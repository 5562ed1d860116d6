import ViewLang.Go.Component
import ViewLang.Proofs.Go.Lexical
import ViewLang.Proofs.Go.Marked

namespace ViewLang.Go.Marked

open Lexical (Locals declaredBySimple declaredByStmt declaredByClause declaredByHeader field? latest?)

def lit (s : String) : Marked := [.text s]

def mention (name : String) : Marked := [.use ⟨.user, name⟩]

def refer (name : String) : Marked := [.use ⟨.generator, name⟩]

def qualified (author : Author) (text : String) : Marked :=
  [.use ⟨author, String.ofList (text.toList.takeWhile (· ≠ '.'))⟩,
    .text (String.ofList (text.toList.dropWhile (· ≠ '.')))]

/-- Names that the user binds. The blank name binds nothing. -/
def binds (names : List String) : Marked := (names.filter (· ≠ "_")).map fun name => .bind ⟨.user, name⟩

def separated : List Marked → Marked
  | [] => []
  | [m] => m
  | m :: n :: ms => m ++ lit ", " ++ separated (n :: ms)

def name (env : Env) (locals : Locals) (name : String) : Marked :=
  match field? env locals name with
  | some field => qualified .generator field
  | none => mention name

def receive (env : Env) (locals : Locals) (channel : String) : Marked :=
  match latest? env locals channel with
  | some field => qualified .generator field
  | none => lit "<-" ++ name env locals channel

def runtime (env : Env) (name : String) : Marked := refer env.runtime ++ lit "." ++ lit name

def resultSuffix : List Marked → Marked
  | [] => []
  | [r] => lit " " ++ r
  | rs => lit " (" ++ separated rs ++ lit ")"

mutual

def typeExpr (runtime : String) : TypeExpr → Marked
  | .named name => if name = "Node" then refer runtime ++ lit ".Node" else qualified .user name
  | .generic name arg => qualified .user name ++ lit "[" ++ typeExpr runtime arg ++ lit "]"
  | .chan recvOnly elem => lit (if recvOnly then "<-chan " else "chan ") ++ typeExpr runtime elem
  | .slice elem => lit "[]" ++ typeExpr runtime elem
  | .pointer elem => lit "*" ++ typeExpr runtime elem
  | .func params results =>
    lit "func(" ++ separated (typeExprs runtime params) ++ lit ")" ++ resultSuffix (typeExprs runtime results)

def typeExprs (runtime : String) : List TypeExpr → List Marked
  | [] => []
  | t :: ts => typeExpr runtime t :: typeExprs runtime ts

end

def type (env : Env) (ty : TypeExpr) : Marked := typeExpr env.runtime ty

def params (env : Env) (ps : List Param) : List Marked :=
  ps.map fun p => lit p.name.value ++ lit " " ++ lit (if p.variadic then "..." else "") ++ type env p.ty.value

def typeSuffix (env : Env) : Option (Located TypeExpr) → Marked
  | none => []
  | some t => lit " " ++ type env t.value

def line (level : Nat) (code : Marked) : Marked := lit (Lower.pad level) ++ code ++ lit "\n"

def deferred (level : Nat) (writes : Bool) : Marked :=
  if writes then line level (lit "defer " ++ refer "c" ++ lit ".Update()") else []

def literal (level : Nat) (head : Marked) (bound : List String) (body : Marked) (empty writes : Bool) : Marked :=
  if empty && !writes then head ++ lit " \x7b\x7d"
  else
    head ++ lit " \x7b\n" ++
      [.scope (binds bound ++ deferred (level + 1) writes ++ body)] ++ lit (Lower.pad level) ++ lit "\x7d"

mutual

def expr (env : Env) (locals : Locals) (level : Nat) : Expr → Marked
  | ⟨head, tail, _⟩ => primary env locals level head ++ links env locals level tail

def links (env : Env) (locals : Locals) (level : Nat) : List Link → Marked
  | [] => []
  | ⟨op, operand⟩ :: ls =>
    lit " " ++ lit op.value.text ++ lit " " ++ primary env locals level operand ++ links env locals level ls

def exprs (env : Env) (locals : Locals) (level : Nat) : List Expr → List Marked
  | [] => []
  | e :: es => expr env locals level e :: exprs env locals level es

def optional (env : Env) (locals : Locals) (level : Nat) : Option Expr → Marked
  | none => []
  | some e => expr env locals level e

def entries (env : Env) (locals : Locals) (level : Nat) : List Entry → List Marked
  | [] => []
  | ⟨some key, value⟩ :: es =>
    (lit key.value ++ lit ": " ++ expr env locals level value) :: entries env locals level es
  | ⟨none, value⟩ :: es => expr env locals level value :: entries env locals level es

def primary (env : Env) (locals : Locals) (level : Nat) : Primary → Marked
  | .int text => lit text.value
  | .float text => lit text.value
  | .string text => lit (quote text.value)
  | .template t => template env locals level t
  | .composite ty es _ => type env ty.value ++ lit "\x7b" ++ separated (entries env locals level es) ++ lit "\x7d"
  | .make ty args _ =>
    mention "make" ++ lit "(" ++ separated (type env ty.value :: exprs env locals level args) ++ lit ")"
  | .index target index _ => primary env locals level target ++ lit "[" ++ expr env locals level index ++ lit "]"
  | .slice target low high _ =>
    primary env locals level target ++ lit "[" ++ optional env locals level low ++ lit ":" ++
      optional env locals level high ++ lit "]"
  | .select b segments _ => base env locals level b ++ lit (Lexical.path "" segments)
  | .call b segments args _ =>
    base env locals level b ++ lit (Lexical.path "" segments) ++ lit "(" ++ separated (exprs env locals level args) ++
      lit ")"
  | .func ps results body _ =>
    let head := lit "func(" ++ separated (params env ps) ++ lit ")" ++
      resultSuffix (results.map fun t => type env t.value)
    let bound := ps.map (·.name.value)
    let inner := locals.extend bound
    literal level head bound (block env inner (level + 1) body) (Lexical.block env inner (level + 1) body).isEmpty
      (Lexical.blockAssigns env inner body)
  | .receive channel _ => receive env locals channel.value
  | .unary op operand _ => lit op.text ++ primary env locals level operand
  | .paren inner => lit "(" ++ expr env locals level inner ++ lit ")"

def base (env : Env) (locals : Locals) (level : Nat) : Base → Marked
  | .name n => name env locals n.value
  | .operand p => primary env locals level p

def template (env : Env) (locals : Locals) (level : Nat) : Template → Marked
  | ⟨fs, _⟩ =>
    let args := interpolated env locals level fs
    if args.isEmpty then lit (quote (String.join (fs.map fun
      | .text s => s
      | .interp _ => "")))
    else
      refer "fmt" ++ lit ".Sprintf(" ++ lit (quote (Lexical.format fs)) ++ lit ", " ++ separated args ++ lit ")"

def interpolated (env : Env) (locals : Locals) (level : Nat) : List Fragment → List Marked
  | [] => []
  | .text _ :: fs => interpolated env locals level fs
  | .interp e :: fs => expr env locals level e :: interpolated env locals level fs

def block (env : Env) (locals : Locals) (level : Nat) : Block → Marked
  | ⟨ss, _⟩ => [.scope (stmts env locals level ss)]

def stmts (env : Env) (locals : Locals) (level : Nat) : List Stmt → Marked
  | [] => []
  | s :: ss => stmt env locals level s ++ stmts env (locals.extend (declaredByStmt s)) level ss

def stmt (env : Env) (locals : Locals) (level : Nat) : Stmt → Marked
  | .var d => line level (varDecl env locals level d)
  | .simple s => line level (simple env locals level s)
  | .ret values _ =>
    line level (if (", ".intercalate (Lexical.exprs env locals level values)).isEmpty then lit "return"
      else lit "return " ++ separated (exprs env locals level values))
  | .cond s => ifStmt env locals level "if " s ++ line level (lit "\x7d")
  | .loop header body _ =>
    [.scope (line level (loopHead env locals level header) ++
      block env (locals.extend (declaredByHeader header)) (level + 1) body)] ++ line level (lit "\x7d")
  | .branch kind _ => line level (lit kind.text)

def definedTargets (env : Env) (locals : Locals) (level : Nat) : List Expr → List Marked
  | [] => []
  | e :: es =>
    match e.ident? with
    | some name => lit name.value :: definedTargets env (locals.extend [name.value]) level es
    | none => expr env locals level e :: definedTargets env locals level es

def simple (env : Env) (locals : Locals) (level : Nat) : SimpleStmt → Marked
  | .exprs targets _ => separated (exprs env locals level targets)
  | .assign targets op values _ =>
    if op.value.isDeclaring then
      separated (definedTargets env locals level targets) ++ lit " := " ++ separated (exprs env locals level values) ++
        binds (targets.filterMap fun e => e.ident?.map (·.value))
    else if op.value.isPostfix then separated (exprs env locals level targets) ++ lit op.value.text
    else
      separated (exprs env locals level targets) ++ lit " " ++ lit op.value.text ++ lit " " ++
        separated (exprs env locals level values)
  | .send channel value _ => expr env locals level channel ++ lit " <- " ++ expr env locals level value

def varDecl (env : Env) (locals : Locals) (level : Nat) : VarDecl → Marked
  | ⟨names, ty, values, _⟩ =>
    let values := exprs env locals level values
    lit "var " ++ lit (", ".intercalate (names.map (·.value))) ++ typeSuffix env ty ++
      (if values.isEmpty then [] else lit " = " ++ separated values) ++ binds (names.map (·.value))

def clause (env : Env) (locals : Locals) (level : Nat) : Option SimpleStmt → Marked
  | none => []
  | some s => simple env locals level s

def leading (env : Env) (locals : Locals) (level : Nat) : Option SimpleStmt → Marked
  | none => []
  | some s => simple env locals level s ++ lit "; "

def ifStmt (env : Env) (locals : Locals) (level : Nat) (opening : String) : IfStmt → Marked
  | ⟨init, cond, body, otherwise, _⟩ =>
    let inner := locals.extend (declaredByClause init)
    [.scope (line level (lit opening ++ leading env locals level init ++ expr env inner level cond ++ lit " \x7b") ++
      block env inner (level + 1) body ++ elseBranch env inner level otherwise)]

def elseBranch (env : Env) (locals : Locals) (level : Nat) : Else → Marked
  | .none => []
  | .block b => line level (lit "\x7d else \x7b") ++ block env locals (level + 1) b
  | .chain s => ifStmt env locals level "\x7d else if " s

def loopHead (env : Env) (locals : Locals) (level : Nat) : LoopHeader → Marked
  | .infinite => lit "for \x7b"
  | .cond e => lit "for " ++ expr env locals level e ++ lit " \x7b"
  | .classic init cond post =>
    let inner := locals.extend (declaredByClause init)
    lit "for " ++ clause env locals level init ++ lit "; " ++ optional env inner level cond ++ lit "; " ++
      clause env inner level post ++ lit " \x7b"
  | .range key value iterable =>
    lit "for " ++ lit (Lower.rangeVars key value) ++ lit "range " ++ expr env locals level iterable ++ lit " \x7b" ++
      binds ((key.toList ++ value.toList).map (·.value))

end

def textChild (env : Env) (e : Expr) (value : Marked) : Marked :=
  match e.primary? with
  | some (.string _) => runtime env "Text" ++ lit "(" ++ value ++ lit ")"
  | some (.template _) => runtime env "Text" ++ lit "(" ++ value ++ lit ")"
  | _ => runtime env "Text" ++ (lit "(" ++ refer "fmt" ++ lit ".Sprint(") ++ value ++ lit "))"

def call (level : Nat) (head : Marked) (separator : String) (children : List Marked) : Marked :=
  if children.isEmpty then head ++ lit ")"
  else
    head ++ lit separator ++ lit "\n" ++
      (children.flatMap fun c => lit (Lower.pad (level + 1)) ++ c ++ lit ",\n") ++ lit (Lower.pad level) ++ lit ")"

def elementArgs (env : Env) (locals : Locals) (level : Nat) : List Entry → List Marked × List Marked
  | [] => ([], [])
  | ⟨key, value⟩ :: es =>
    let (props, children) := elementArgs env locals level es
    match key with
    | some k => ((lit (quote k.value) ++ lit ": " ++ expr env locals level value) :: props, children)
    | none => (props, textChild env value (expr env locals level value) :: children)

def propChild (env : Env) (locals : Locals) (level : Nat) : Node → Option Marked
  | .element e =>
    match Vocabulary.prop? e.tag.value, e.args with
    | some key, a :: _ => some (lit (quote key) ++ lit ": " ++ expr env locals level a.value)
    | _, _ => none
  | _ => none

def option (tag : String) (p : Param) (value : Marked) : Marked :=
  refer (tag ++ "With" ++ exported p.name.value) ++ lit "(" ++ value ++ lit ")"

def optionArgs (env : Env) (locals : Locals) (level : Nat) (tag : String) (params : List Param) :
    List Param → List Entry → List Marked
  | _, [] => []
  | positional, ⟨some name, value⟩ :: es =>
    match params.find? (·.name.value == name.value) with
    | none => optionArgs env locals level tag params positional es
    | some p => option tag p (expr env locals level value) :: optionArgs env locals level tag params positional es
  | [], ⟨none, _⟩ :: es => optionArgs env locals level tag params [] es
  | p :: positional, ⟨none, value⟩ :: es =>
    option tag p (expr env locals level value) :: optionArgs env locals level tag params positional es

def paramArgs (env : Env) (locals : Locals) (level : Nat) (args : List Entry) : List Entry → List Param → List Marked
  | _, [] => []
  | positional, p :: ps =>
    match Lower.namedArg? args p, p.variadic, positional with
    | some a, true, positional =>
      (expr env locals level a.value ++ lit "...") :: paramArgs env locals level args positional ps
    | none, true, positional =>
      exprs env locals level (positional.map (·.value)) ++ paramArgs env locals level args [] ps
    | some a, false, positional => expr env locals level a.value :: paramArgs env locals level args positional ps
    | none, false, a :: positional => expr env locals level a.value :: paramArgs env locals level args positional ps
    | none, false, [] =>
      (lit "*" ++ refer "new" ++ lit "(" ++ type env p.ty.value ++ lit ")") :: paramArgs env locals level args [] ps

def embedArgs (env : Env) (locals : Locals) (level : Nat) (tag : String) (args : List Entry) : List Marked :=
  match env.components.find? (·.name.value == tag) with
  | some c =>
    if !c.isRenderable then exprs env locals level (args.map (·.value))
    else if c.autoProps then optionArgs env locals level tag c.params c.params args
    else paramArgs env locals level args (args.filter (·.key.isNone)) c.params
  | none => exprs env locals level (args.map (·.value))

def embed (env : Env) (locals : Locals) (level : Nat) (tag : String) (args : List Entry) : Marked :=
  runtime env "Embed" ++ lit "(" ++ refer ("New" ++ tag) ++ lit "(" ++
    separated (embedArgs env locals level tag args) ++ lit "))"

def props (env : Env) (entries : List Marked) : Marked :=
  if entries.isEmpty then refer "nil" else runtime env "Props" ++ lit "\x7b" ++ separated entries ++ lit "\x7d"

def listText (env : Env) (level : Nat) : List Marked → Marked
  | [] => refer "nil"
  | [code] => code
  | codes => call level (runtime env "Fragment" ++ lit "(") "" codes

def gather (level : Nat) : List Marked → Marked
  | [] => []
  | [code] =>
    lit (Lower.pad level) ++ (refer "nodes" ++ lit " = " ++ refer "append" ++ lit "(" ++ refer "nodes" ++ lit ", ") ++
      code ++ lit ")\n"
  | codes =>
    lit (Lower.pad level) ++ (refer "nodes" ++ lit " = ") ++
      call level (refer "append" ++ lit "(" ++ refer "nodes") "," codes ++ lit "\n"

def conditional (env : Env) (level : Nat) (cond body otherwise : Marked) : Marked :=
  lit "func() " ++ runtime env "Node" ++ lit " \x7b\n" ++
    lit (Lower.pad (level + 1)) ++ lit "if " ++ cond ++ lit " \x7b\n" ++
    lit (Lower.pad (level + 2)) ++ lit "return " ++ body ++ lit "\n" ++
    lit (Lower.pad (level + 1)) ++ lit "\x7d\n" ++
    lit (Lower.pad (level + 1)) ++ lit "return " ++ otherwise ++ lit "\n" ++
    lit (Lower.pad level) ++ lit "\x7d()"

def loop (env : Env) (level : Nat) (key value : Option Name) (iterable : Marked) (children : List Marked) : Marked :=
  lit "func() " ++ runtime env "Node" ++ lit " \x7b\n" ++
    [.scope (
      line (level + 1) (lit "var nodes []" ++ runtime env "Node") ++ [.bind ⟨.generator, "nodes"⟩] ++
      [.scope (
        line (level + 1) (lit "for " ++ lit (Lower.rangeVars key value) ++ lit "range " ++ iterable ++ lit " \x7b") ++
        binds ((key.toList ++ value.toList).map (·.value)) ++ gather (level + 2) children)] ++
      line (level + 1) (lit "\x7d") ++
      line (level + 1) (lit "return " ++ runtime env "Fragment" ++ lit "(" ++ refer "nodes" ++ lit "...)"))] ++
    lit (Lower.pad level) ++ lit "\x7d()"

mutual

def node (env : Env) (locals : Locals) (level : Nat) : Node → Marked
  | .element e => element env locals level e
  | .text t => runtime env "Text" ++ lit "(" ++ lit (quote t.value) ++ lit ")"
  | .template t => runtime env "Text" ++ lit "(" ++ template env locals level t ++ lit ")"
  | .cond c => nodeIf env locals level c
  | .loop l => nodeFor env locals level l

def nodes (env : Env) (locals : Locals) (level : Nat) : List Node → List Marked
  | [] => []
  | n :: ns =>
    if (Lower.propKey? n).isSome then nodes env locals level ns
    else node env locals level n :: nodes env locals level ns

def element (env : Env) (locals : Locals) (level : Nat) : Element → Marked
  | ⟨tag, args, children, _⟩ =>
    match Vocabulary.tag? tag.value with
    | none => embed env locals level tag.value args
    | some html =>
      let (entries, texts) := elementArgs env locals level args
      let more := children.filterMap (propChild env locals level)
      call level (runtime env "Element" ++ lit "(" ++ lit (quote html) ++ lit ", " ++ props env (entries ++ more)) ","
        (texts ++ nodes env locals (level + 1) children)

def nodeIf (env : Env) (locals : Locals) (level : Nat) : NodeIf → Marked
  | ⟨cond, body, otherwise, _⟩ =>
    conditional env level (expr env locals (level + 1) cond)
      (listText env (level + 2) (nodes env locals (Lower.listLevel (level + 2) body) body))
      (listText env (level + 1) (nodes env locals (Lower.listLevel (level + 1) otherwise) otherwise))

def nodeFor (env : Env) (locals : Locals) (level : Nat) : NodeFor → Marked
  | ⟨key, value, iterable, children, _⟩ =>
    let inner := locals.extend ((key.toList ++ value.toList).map (·.value))
    loop env level key value (expr env locals (level + 1) iterable)
      (nodes env inner (Lower.listLevel (level + 2) children) children)

end

def nodeList (env : Env) (locals : Locals) (level : Nat) (ns : List Node) : Marked :=
  listText env level (nodes env locals (Lower.listLevel level ns) ns)

def methodHead (env : Env) (c : Component) : Marked :=
  line 0 (lit ("// Render builds the node tree of " ++ c.name.value ++ ".")) ++
    line 0 (lit "func (c *" ++ mention c.name.value ++ lit ") Render() " ++ runtime env "Node" ++ lit " \x7b")

def methodBody (env : Env) (c : Component) : Marked :=
  stmts env [] 1 c.body.stmts ++
    line 1 (lit "return " ++ nodeList env (Locals.extend [] (Lexical.declared c.body.stmts)) 1 c.body.nodes)

def methodEnd : Marked := line 0 (lit "\x7d") ++ lit "\n"

/-- The method that renders a component. The receiver is in scope in all of its body. -/
def renderMethod (env : Env) (c : Component) : Marked :=
  methodHead env c ++ ([.scope (.bind ⟨.generator, "c"⟩ :: methodBody env c)] ++ methodEnd)

end ViewLang.Go.Marked
