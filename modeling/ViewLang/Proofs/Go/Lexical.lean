import ViewLang.Go.Node

namespace ViewLang.Go.Lexical

abbrev Locals := List String

/-- The locals behind a declaration. The blank name declares nothing. -/
def Locals.extend (locals : Locals) (names : List String) : Locals := (names.filter (· ≠ "_")).reverse ++ locals

def field? (env : Env) (locals : Locals) (name : String) : Option String :=
  if name ∈ locals then none else env.fields.lookup name

def latest? (env : Env) (locals : Locals) (channel : String) : Option String :=
  if channel ∈ locals then none else env.latest.lookup channel

def name (env : Env) (locals : Locals) (name : String) : String := (field? env locals name).getD name

def receive (env : Env) (locals : Locals) (channel : String) : String :=
  match latest? env locals channel with
  | some field => field
  | none => "<-" ++ name env locals channel

def runtime (env : Env) (name : String) : String := env.runtime ++ "." ++ name

def type (env : Env) (ty : TypeExpr) : String := (Go.type env.runtime ty).1

def declaredBySimple : SimpleStmt → List String
  | .assign targets op _ _ =>
    if op.value.isDeclaring then targets.filterMap fun e => e.ident?.map (·.value) else []
  | _ => []

def declaredByStmt : Stmt → List String
  | .var d => d.names.map (·.value)
  | .simple s => declaredBySimple s
  | _ => []

def declared (ss : List Stmt) : List String := ss.flatMap declaredByStmt

def declaredByClause : Option SimpleStmt → List String
  | none => []
  | some s => declaredBySimple s

def declaredByHeader : LoopHeader → List String
  | .classic init _ post => declaredByClause init ++ declaredByClause post
  | .range key value _ => (key.toList ++ value.toList).map (·.value)
  | _ => []

def isField (env : Env) (locals : Locals) (target : Expr) : Bool :=
  (Lower.writtenBase? target).any fun base => (field? env locals base.value).isSome

def simpleAssigns (env : Env) (locals : Locals) : SimpleStmt → Bool
  | .assign targets op _ _ => !op.value.isDeclaring && targets.any (isField env locals)
  | _ => false

def clauseAssigns (env : Env) (locals : Locals) : Option SimpleStmt → Bool
  | none => false
  | some s => simpleAssigns env locals s

def headerAssigns (env : Env) (locals : Locals) : LoopHeader → Bool
  | .classic init _ post =>
    clauseAssigns env locals init || clauseAssigns env (locals.extend (declaredByClause init)) post
  | _ => false

mutual

def stmtAssigns (env : Env) (locals : Locals) : Stmt → Bool
  | .simple s => simpleAssigns env locals s
  | .cond s => ifAssigns env locals s
  | .loop header body _ =>
    headerAssigns env locals header || blockAssigns env (locals.extend (declaredByHeader header)) body
  | .var _ => false
  | .ret _ _ => false
  | .branch _ _ => false

def stmtsAssign (env : Env) (locals : Locals) : List Stmt → Bool
  | [] => false
  | s :: ss => stmtAssigns env locals s || stmtsAssign env (locals.extend (declaredByStmt s)) ss

def blockAssigns (env : Env) (locals : Locals) : Block → Bool
  | ⟨ss, _⟩ => stmtsAssign env locals ss

def ifAssigns (env : Env) (locals : Locals) : IfStmt → Bool
  | ⟨init, _, body, otherwise, _⟩ =>
    clauseAssigns env locals init ||
      (blockAssigns env (locals.extend (declaredByClause init)) body ||
        elseAssigns env (locals.extend (declaredByClause init)) otherwise)

def elseAssigns (env : Env) (locals : Locals) : Else → Bool
  | .none => false
  | .block b => blockAssigns env locals b
  | .chain s => ifAssigns env locals s

end

def params (env : Env) (ps : List Param) : List String :=
  ps.map fun p => p.name.value ++ " " ++ (if p.variadic then "..." else "") ++ type env p.ty.value

def typeSuffix (env : Env) : Option (Located TypeExpr) → String
  | none => ""
  | some t => " " ++ type env t.value

def path (base : String) (segments : List Name) : String :=
  segments.foldl (fun text segment => text ++ "." ++ segment.value) base

def format : List Fragment → String
  | [] => ""
  | .text s :: fs => Lower.formatText s ++ format fs
  | .interp _ :: fs => "%v" ++ format fs

mutual

def expr (env : Env) (locals : Locals) (level : Nat) : Expr → String
  | ⟨head, tail, _⟩ => primary env locals level head ++ links env locals level tail

def links (env : Env) (locals : Locals) (level : Nat) : List Link → String
  | [] => ""
  | ⟨op, operand⟩ :: ls =>
    " " ++ op.value.text ++ " " ++ primary env locals level operand ++ links env locals level ls

def exprs (env : Env) (locals : Locals) (level : Nat) : List Expr → List String
  | [] => []
  | e :: es => expr env locals level e :: exprs env locals level es

def optional (env : Env) (locals : Locals) (level : Nat) : Option Expr → String
  | none => ""
  | some e => expr env locals level e

def entries (env : Env) (locals : Locals) (level : Nat) : List Entry → List String
  | [] => []
  | ⟨some key, value⟩ :: es => (key.value ++ ": " ++ expr env locals level value) :: entries env locals level es
  | ⟨none, value⟩ :: es => expr env locals level value :: entries env locals level es

def primary (env : Env) (locals : Locals) (level : Nat) : Primary → String
  | .int text => text.value
  | .float text => text.value
  | .string text => quote text.value
  | .template t => template env locals level t
  | .composite ty es _ => type env ty.value ++ "\x7b" ++ ", ".intercalate (entries env locals level es) ++ "\x7d"
  | .make ty args _ => "make(" ++ ", ".intercalate (type env ty.value :: exprs env locals level args) ++ ")"
  | .index target index _ => primary env locals level target ++ "[" ++ expr env locals level index ++ "]"
  | .slice target low high _ =>
    primary env locals level target ++ "[" ++ optional env locals level low ++ ":" ++ optional env locals level high ++
      "]"
  | .select b segments _ => path (base env locals level b) segments
  | .call b segments args _ =>
    path (base env locals level b) segments ++ "(" ++ ", ".intercalate (exprs env locals level args) ++ ")"
  | .func ps results body _ =>
    let head := "func(" ++ ", ".intercalate (params env ps) ++ ")" ++
      TypeExpr.resultSuffix (results.map fun t => type env t.value)
    let inner := locals.extend (ps.map (·.name.value))
    Lower.funcText level head (block env inner (level + 1) body) (blockAssigns env inner body)
  | .receive channel _ => receive env locals channel.value
  | .unary op operand _ => op.text ++ primary env locals level operand
  | .paren inner => "(" ++ expr env locals level inner ++ ")"

def base (env : Env) (locals : Locals) (level : Nat) : Base → String
  | .name n => name env locals n.value
  | .operand p => primary env locals level p

def template (env : Env) (locals : Locals) (level : Nat) : Template → String
  | ⟨fs, _⟩ =>
    let args := interpolated env locals level fs
    if args.isEmpty then quote (String.join (fs.map fun
      | .text s => s
      | .interp _ => ""))
    else "fmt.Sprintf(" ++ quote (format fs) ++ ", " ++ ", ".intercalate args ++ ")"

def interpolated (env : Env) (locals : Locals) (level : Nat) : List Fragment → List String
  | [] => []
  | .text _ :: fs => interpolated env locals level fs
  | .interp e :: fs => expr env locals level e :: interpolated env locals level fs

def block (env : Env) (locals : Locals) (level : Nat) : Block → Doc
  | ⟨ss, _⟩ => stmts env locals level ss

/-- Statements stand in the scope of the declarations before them. -/
def stmts (env : Env) (locals : Locals) (level : Nat) : List Stmt → Doc
  | [] => []
  | s :: ss => stmt env locals level s ++ stmts env (locals.extend (declaredByStmt s)) level ss

def stmt (env : Env) (locals : Locals) (level : Nat) : Stmt → Doc
  | .var d => [.text level (varDecl env locals level d)]
  | .simple s => [.text level (simple env locals level s)]
  | .ret values _ =>
    let text := ", ".intercalate (exprs env locals level values)
    [.text level (if text.isEmpty then "return" else "return " ++ text)]
  | .cond s => ifStmt env locals level "if " s ++ [.text level "\x7d"]
  | .loop header body _ =>
    .text level (loopHead env locals level header) ::
      block env (locals.extend (declaredByHeader header)) (level + 1) body ++ [.text level "\x7d"]
  | .branch kind _ => [.text level kind.text]

def definedTargets (env : Env) (locals : Locals) (level : Nat) : List Expr → List String
  | [] => []
  | e :: es =>
    match e.ident? with
    | some name => name.value :: definedTargets env (locals.extend [name.value]) level es
    | none => expr env locals level e :: definedTargets env locals level es

def simple (env : Env) (locals : Locals) (level : Nat) : SimpleStmt → String
  | .exprs targets _ => ", ".intercalate (exprs env locals level targets)
  | .assign targets op values _ =>
    if op.value.isDeclaring then
      ", ".intercalate (definedTargets env locals level targets) ++ " := " ++
        ", ".intercalate (exprs env locals level values)
    else if op.value.isPostfix then ", ".intercalate (exprs env locals level targets) ++ op.value.text
    else
      ", ".intercalate (exprs env locals level targets) ++ " " ++ op.value.text ++ " " ++
        ", ".intercalate (exprs env locals level values)
  | .send channel value _ => expr env locals level channel ++ " <- " ++ expr env locals level value

def varDecl (env : Env) (locals : Locals) (level : Nat) : VarDecl → String
  | ⟨names, ty, values, _⟩ =>
    let values := exprs env locals level values
    "var " ++ ", ".intercalate (names.map (·.value)) ++ typeSuffix env ty ++
      (if values.isEmpty then "" else " = " ++ ", ".intercalate values)

def clause (env : Env) (locals : Locals) (level : Nat) : Option SimpleStmt → String
  | none => ""
  | some s => simple env locals level s

def leading (env : Env) (locals : Locals) (level : Nat) : Option SimpleStmt → String
  | none => ""
  | some s => simple env locals level s ++ "; "

def ifStmt (env : Env) (locals : Locals) (level : Nat) (opening : String) : IfStmt → Doc
  | ⟨init, cond, body, otherwise, _⟩ =>
    let inner := locals.extend (declaredByClause init)
    .text level (opening ++ leading env locals level init ++ expr env inner level cond ++ " \x7b") ::
      block env inner (level + 1) body ++ elseBranch env inner level otherwise

def elseBranch (env : Env) (locals : Locals) (level : Nat) : Else → Doc
  | .none => []
  | .block b => .text level "\x7d else \x7b" :: block env locals (level + 1) b
  | .chain s => ifStmt env locals level "\x7d else if " s

def loopHead (env : Env) (locals : Locals) (level : Nat) : LoopHeader → String
  | .infinite => "for \x7b"
  | .cond e => "for " ++ expr env locals level e ++ " \x7b"
  | .classic init cond post =>
    let inner := locals.extend (declaredByClause init)
    "for " ++ clause env locals level init ++ "; " ++ optional env inner level cond ++ "; " ++
      clause env inner level post ++ " \x7b"
  | .range key value iterable =>
    "for " ++ Lower.rangeVars key value ++ "range " ++ expr env locals level iterable ++ " \x7b"

end

def textChild (env : Env) (e : Expr) (value : String) : String :=
  match e.primary? with
  | some (.string _) => runtime env "Text" ++ "(" ++ value ++ ")"
  | some (.template _) => runtime env "Text" ++ "(" ++ value ++ ")"
  | _ => runtime env "Text" ++ "(fmt.Sprint(" ++ value ++ "))"

def elementArgs (env : Env) (locals : Locals) (level : Nat) : List Entry → List String × List String
  | [] => ([], [])
  | ⟨key, value⟩ :: es =>
    let (props, children) := elementArgs env locals level es
    match key with
    | some k => ((quote k.value ++ ": " ++ expr env locals level value) :: props, children)
    | none => (props, textChild env value (expr env locals level value) :: children)

def propChild (env : Env) (locals : Locals) (level : Nat) : Node → Option String
  | .element e =>
    match Vocabulary.prop? e.tag.value, e.args with
    | some key, a :: _ => some (quote key ++ ": " ++ expr env locals level a.value)
    | _, _ => none
  | _ => none

def optionArgs (env : Env) (locals : Locals) (level : Nat) (tag : String) (params : List Param) :
    List Param → List Entry → List String
  | _, [] => []
  | positional, ⟨some name, value⟩ :: es =>
    match params.find? (·.name.value == name.value) with
    | none => optionArgs env locals level tag params positional es
    | some p =>
      (tag ++ "With" ++ exported p.name.value ++ "(" ++ expr env locals level value ++ ")") ::
        optionArgs env locals level tag params positional es
  | [], ⟨none, _⟩ :: es => optionArgs env locals level tag params [] es
  | p :: positional, ⟨none, value⟩ :: es =>
    (tag ++ "With" ++ exported p.name.value ++ "(" ++ expr env locals level value ++ ")") ::
      optionArgs env locals level tag params positional es

def paramArgs (env : Env) (locals : Locals) (level : Nat) (args : List Entry) : List Entry → List Param → List String
  | _, [] => []
  | positional, p :: ps =>
    match Lower.namedArg? args p, p.variadic, positional with
    | some a, true, positional =>
      (expr env locals level a.value ++ "...") :: paramArgs env locals level args positional ps
    | none, true, positional =>
      exprs env locals level (positional.map (·.value)) ++ paramArgs env locals level args [] ps
    | some a, false, positional => expr env locals level a.value :: paramArgs env locals level args positional ps
    | none, false, a :: positional => expr env locals level a.value :: paramArgs env locals level args positional ps
    | none, false, [] => ("*new(" ++ type env p.ty.value ++ ")") :: paramArgs env locals level args [] ps

def embedArgs (env : Env) (locals : Locals) (level : Nat) (tag : String) (args : List Entry) : List String :=
  match env.components.find? (·.name.value == tag) with
  | some c =>
    if !c.isRenderable then exprs env locals level (args.map (·.value))
    else if c.autoProps then optionArgs env locals level tag c.params c.params args
    else paramArgs env locals level args (args.filter (·.key.isNone)) c.params
  | none => exprs env locals level (args.map (·.value))

def embed (env : Env) (locals : Locals) (level : Nat) (tag : String) (args : List Entry) : String :=
  runtime env "Embed" ++ "(New" ++ tag ++ "(" ++ ", ".intercalate (embedArgs env locals level tag args) ++ "))"

def props (env : Env) (entries : List String) : String :=
  if entries.isEmpty then "nil" else runtime env "Props" ++ "\x7b" ++ ", ".intercalate entries ++ "\x7d"

def listText (env : Env) (level : Nat) : List String → String
  | [] => "nil"
  | [text] => text
  | texts => Lower.callText level (runtime env "Fragment" ++ "(") "" texts

def condText (env : Env) (level : Nat) (cond body otherwise : String) : String :=
  "func() " ++ runtime env "Node" ++ " \x7b\n" ++
    Lower.pad (level + 1) ++ "if " ++ cond ++ " \x7b\n" ++
    Lower.pad (level + 2) ++ "return " ++ body ++ "\n" ++
    Lower.pad (level + 1) ++ "\x7d\n" ++
    Lower.pad (level + 1) ++ "return " ++ otherwise ++ "\n" ++
    Lower.pad level ++ "\x7d()"

def loopText (env : Env) (level : Nat) (key value : Option Name) (iterable : String) (children : List String) :
    String :=
  "func() " ++ runtime env "Node" ++ " \x7b\n" ++
    Lower.pad (level + 1) ++ "var nodes []" ++ runtime env "Node" ++ "\n" ++
    Lower.pad (level + 1) ++ "for " ++ Lower.rangeVars key value ++ "range " ++ iterable ++ " \x7b\n" ++
    Lower.appendText (level + 2) children ++
    Lower.pad (level + 1) ++ "\x7d\n" ++
    Lower.pad (level + 1) ++ "return " ++ runtime env "Fragment" ++ "(nodes...)\n" ++
    Lower.pad level ++ "\x7d()"

mutual

def node (env : Env) (locals : Locals) (level : Nat) : Node → String
  | .element e => element env locals level e
  | .text t => runtime env "Text" ++ "(" ++ quote t.value ++ ")"
  | .template t => runtime env "Text" ++ "(" ++ template env locals level t ++ ")"
  | .cond c => nodeIf env locals level c
  | .loop l => nodeFor env locals level l

def nodes (env : Env) (locals : Locals) (level : Nat) : List Node → List String
  | [] => []
  | n :: ns =>
    if (Lower.propKey? n).isSome then nodes env locals level ns
    else node env locals level n :: nodes env locals level ns

def element (env : Env) (locals : Locals) (level : Nat) : Element → String
  | ⟨tag, args, children, _⟩ =>
    match Vocabulary.tag? tag.value with
    | none => embed env locals level tag.value args
    | some html =>
      let (entries, texts) := elementArgs env locals level args
      let more := children.filterMap (propChild env locals level)
      Lower.callText level (runtime env "Element" ++ "(" ++ quote html ++ ", " ++ props env (entries ++ more)) ","
        (texts ++ nodes env locals (level + 1) children)

def nodeIf (env : Env) (locals : Locals) (level : Nat) : NodeIf → String
  | ⟨cond, body, otherwise, _⟩ =>
    condText env level (expr env locals (level + 1) cond)
      (listText env (level + 2) (nodes env locals (Lower.listLevel (level + 2) body) body))
      (listText env (level + 1) (nodes env locals (Lower.listLevel (level + 1) otherwise) otherwise))

/-- The variables of a loop are in scope in its children only. -/
def nodeFor (env : Env) (locals : Locals) (level : Nat) : NodeFor → String
  | ⟨key, value, iterable, children, _⟩ =>
    let inner := locals.extend ((key.toList ++ value.toList).map (·.value))
    loopText env level key value (expr env locals (level + 1) iterable)
      (nodes env inner (Lower.listLevel (level + 2) children) children)

end

def nodeList (env : Env) (locals : Locals) (level : Nat) (ns : List Node) : String :=
  listText env level (nodes env locals (Lower.listLevel level ns) ns)

end ViewLang.Go.Lexical
