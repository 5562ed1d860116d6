import ViewLang.Code
import ViewLang.Go.Literal
import ViewLang.Syntax.Unit

namespace ViewLang.Go

structure Uses where
  fmt : Bool
  runtime : Bool
deriving Repr, DecidableEq

namespace Uses

def none : Uses := ⟨false, false⟩

def union (a b : Uses) : Uses := ⟨a.fmt || b.fmt, a.runtime || b.runtime⟩

end Uses

/-- Names that stand for fields of the receiver. The first entry of a name counts. -/
structure Env where
  runtime : String
  components : List Component
  fields : List (String × String)
  latest : List (String × String)

structure LowerState where
  scopes : List (List String)
  writes : List Bool
  uses : Uses
deriving Repr, DecidableEq

namespace LowerState

def start : LowerState := ⟨[[]], [], Uses.none⟩

def isLocal (s : LowerState) (name : String) : Bool := s.scopes.any (·.contains name)

def field? (env : Env) (s : LowerState) (name : String) : Option String :=
  if s.isLocal name then none else env.fields.lookup name

def latest? (env : Env) (s : LowerState) (name : String) : Option String :=
  if s.isLocal name then none else env.latest.lookup name

def declare (s : LowerState) (name : String) : LowerState :=
  if name = "_" then s
  else match s.scopes with
    | [] => s
    | scope :: outer => { s with scopes := (name :: scope) :: outer }

def pushScope (s : LowerState) : LowerState := { s with scopes := [] :: s.scopes }

def popScope (s : LowerState) : LowerState := { s with scopes := s.scopes.tail }

def noteWrite (s : LowerState) : LowerState :=
  match s.writes with
  | [] => s
  | _ :: outer => { s with writes := true :: outer }

def useFmt (s : LowerState) : LowerState := { s with uses := { s.uses with fmt := true } }

def useRuntime (s : LowerState) : LowerState := { s with uses := { s.uses with runtime := true } }

end LowerState

abbrev Lower := StateM LowerState

namespace Lower

def inScope {α : Type} (act : Lower α) : Lower α := do
  modify .pushScope
  let a ← act
  modify .popScope
  pure a

def declare (name : String) : Lower Unit := modify (·.declare name)

def declareAll (names : List Name) : Lower Unit := names.forM fun n => declare n.value

def resolve (env : Env) (name : String) : Lower String := do
  pure (((← get).field? env name).getD name)

def runtime (env : Env) (name : String) : Lower String := do
  modify .useRuntime
  pure (env.runtime ++ "." ++ name)

def type (env : Env) (ty : TypeExpr) : Lower String := do
  let (text, uses) := Go.type env.runtime ty
  if uses then modify .useRuntime
  pure text

def params (env : Env) : List Param → Lower (List String)
  | [] => pure []
  | p :: ps => do
    let ty ← type env p.ty.value
    let rest ← params env ps
    pure ((p.name.value ++ " " ++ (if p.variadic then "..." else "") ++ ty) :: rest)

def typeList (env : Env) : List (Located TypeExpr) → Lower (List String)
  | [] => pure []
  | t :: ts => do
    let text ← type env t.value
    let rest ← typeList env ts
    pure (text :: rest)

def writtenBase? (target : Expr) : Option Name :=
  match target.primary? with
  | some (.select b _ _) => b.name?
  | some (.call b _ _ _) => b.name?
  | some (.index (.select b _ _) _ _) => b.name?
  | some (.index (.call b _ _ _) _ _) => b.name?
  | some (.slice (.select b _ _) _ _ _) => b.name?
  | some (.slice (.call b _ _ _) _ _ _) => b.name?
  | _ => none

def noteTarget (env : Env) (target : Expr) : Lower Unit := do
  match writtenBase? target with
  | none => pure ()
  | some name => if ((← get).field? env name.value).isSome then modify .noteWrite

def formatText (s : String) : String := String.ofList (s.toList.flatMap fun c => if c = '%' then ['%', '%'] else [c])

def rangeVars (key value : Option Name) : String :=
  match key, value with
  | some k, some v => k.value ++ ", " ++ v.value ++ " := "
  | none, some v => "_, " ++ v.value ++ " := "
  | some k, none => k.value ++ " := "
  | none, none => ""

def pad (level : Nat) : String := String.join (List.replicate level "\t")

def funcText (level : Nat) (head : String) (body : Doc) (writesState : Bool) : String :=
  if body.isEmpty && !writesState then head ++ " \x7b\x7d"
  else
    head ++ " \x7b\n" ++ (if writesState then pad (level + 1) ++ "defer c.Update()\n" else "") ++ body.render "\t" ++
      pad level ++ "\x7d"

mutual

def expr (env : Env) (level : Nat) : Expr → Lower String
  | ⟨head, tail, _⟩ => do
    let first ← primary env level head
    let rest ← links env level tail
    pure (first ++ rest)

def links (env : Env) (level : Nat) : List Link → Lower String
  | [] => pure ""
  | ⟨op, operand⟩ :: ls => do
    let text ← primary env level operand
    let rest ← links env level ls
    pure (" " ++ op.value.text ++ " " ++ text ++ rest)

def exprs (env : Env) (level : Nat) : List Expr → Lower (List String)
  | [] => pure []
  | e :: es => do
    let text ← expr env level e
    let rest ← exprs env level es
    pure (text :: rest)

def entries (env : Env) (level : Nat) : List Entry → Lower (List String)
  | [] => pure []
  | ⟨key, value⟩ :: es => do
    let text ← expr env level value
    let rest ← entries env level es
    let keyed := match key with
      | some k => k.value ++ ": " ++ text
      | none => text
    pure (keyed :: rest)

def primary (env : Env) (level : Nat) : Primary → Lower String
  | .int text => pure text.value
  | .float text => pure text.value
  | .string text => pure (quote text.value)
  | .template t => template env level t
  | .composite ty es _ => do
    let ty ← type env ty.value
    let es ← entries env level es
    pure (ty ++ "\x7b" ++ ", ".intercalate es ++ "\x7d")
  | .make ty args _ => do
    let ty ← type env ty.value
    let args ← exprs env level args
    pure ("make(" ++ ", ".intercalate (ty :: args) ++ ")")
  | .index target index _ => do
    let target ← primary env level target
    let index ← expr env level index
    pure (target ++ "[" ++ index ++ "]")
  | .slice target low high _ => do
    let target ← primary env level target
    let low ← match low with
      | none => pure ""
      | some e => expr env level e
    let high ← match high with
      | none => pure ""
      | some e => expr env level e
    pure (target ++ "[" ++ low ++ ":" ++ high ++ "]")
  | .select b path _ => do
    let b ← base env level b
    pure (path.foldl (fun text segment => text ++ "." ++ segment.value) b)
  | .call b path args _ => do
    let b ← base env level b
    let args ← exprs env level args
    pure (path.foldl (fun text segment => text ++ "." ++ segment.value) b ++ "(" ++ ", ".intercalate args ++ ")")
  | .func ps results body _ => do
    let ps' ← params env ps
    let results ← typeList env results
    let head := "func(" ++ ", ".intercalate ps' ++ ")" ++ TypeExpr.resultSuffix results
    modify fun s => { s.pushScope with writes := false :: s.writes }
    declareAll (ps.map (·.name))
    let body ← block env (level + 1) body
    let writesState := (← get).writes.head?.getD false
    modify fun s => { s.popScope with writes := s.writes.tail }
    pure (funcText level head body writesState)
  | .receive channel _ => do
    match (← get).latest? env channel.value with
    | some field => pure field
    | none =>
      let name ← resolve env channel.value
      pure ("<-" ++ name)
  | .unary op operand _ => do
    let operand ← primary env level operand
    pure (op.text ++ operand)
  | .paren inner => do
    let inner ← expr env level inner
    pure ("(" ++ inner ++ ")")

def base (env : Env) (level : Nat) : Base → Lower String
  | .name n => resolve env n.value
  | .operand p => primary env level p

def template (env : Env) (level : Nat) : Template → Lower String
  | ⟨fs, _⟩ => do
    let (format, args) ← fragments env level fs
    if args.isEmpty then pure (quote (String.join (fs.map fun
      | .text s => s
      | .interp _ => "")))
    else
      modify .useFmt
      pure ("fmt.Sprintf(" ++ quote format ++ ", " ++ ", ".intercalate args ++ ")")

def fragments (env : Env) (level : Nat) : List Fragment → Lower (String × List String)
  | [] => pure ("", [])
  | .text s :: fs => do
    let (format, args) ← fragments env level fs
    pure (formatText s ++ format, args)
  | .interp e :: fs => do
    let arg ← expr env level e
    let (format, args) ← fragments env level fs
    pure ("%v" ++ format, arg :: args)

def block (env : Env) (level : Nat) : Block → Lower Doc
  | ⟨ss, _⟩ => do
    modify .pushScope
    let doc ← stmts env level ss
    modify .popScope
    pure doc

def stmts (env : Env) (level : Nat) : List Stmt → Lower Doc
  | [] => pure []
  | s :: ss => do
    let first ← stmt env level s
    let rest ← stmts env level ss
    pure (first ++ rest)

def stmt (env : Env) (level : Nat) : Stmt → Lower Doc
  | .var d => do
    let text ← varDecl env level d
    pure [.text level text]
  | .simple s => do
    let text ← simple env level s
    pure [.text level text]
  | .ret values _ => do
    let values ← exprs env level values
    let text := ", ".intercalate values
    pure [.text level (if text.isEmpty then "return" else "return " ++ text)]
  | .cond s => do
    let doc ← ifStmt env level "if " s
    pure (doc ++ [.text level "\x7d"])
  | .loop header body _ => do
    modify .pushScope
    let head ← loopHead env level header
    let body ← block env (level + 1) body
    modify .popScope
    pure (.text level head :: body ++ [.text level "\x7d"])
  | .branch kind _ => pure [.text level kind.text]

def definedTargets (env : Env) (level : Nat) : List Expr → Lower (List String)
  | [] => pure []
  | e :: es => do
    let text ← match e.ident? with
      | some name => do
        declare name.value
        pure name.value
      | none => expr env level e
    let rest ← definedTargets env level es
    pure (text :: rest)

def simple (env : Env) (level : Nat) : SimpleStmt → Lower String
  | .exprs targets _ => do
    let targets ← exprs env level targets
    pure (", ".intercalate targets)
  | .assign targets op values _ => do
    if op.value.isDeclaring then
      let values ← exprs env level values
      let targets ← definedTargets env level targets
      pure (", ".intercalate targets ++ " := " ++ ", ".intercalate values)
    else
      targets.forM (noteTarget env)
      let targets ← exprs env level targets
      if op.value.isPostfix then pure (", ".intercalate targets ++ op.value.text)
      else
        let values ← exprs env level values
        pure (", ".intercalate targets ++ " " ++ op.value.text ++ " " ++ ", ".intercalate values)
  | .send channel value _ => do
    let channel ← expr env level channel
    let value ← expr env level value
    pure (channel ++ " <- " ++ value)

def varDecl (env : Env) (level : Nat) : VarDecl → Lower String
  | ⟨names, ty, values, _⟩ => do
    let ty ← match ty with
      | none => pure ""
      | some t => do
        let text ← type env t.value
        pure (" " ++ text)
    let values ← exprs env level values
    declareAll names
    pure ("var " ++ ", ".intercalate (names.map (·.value)) ++ ty ++
      (if values.isEmpty then "" else " = " ++ ", ".intercalate values))

/-- A conditional from `opening` on, without the line that closes it. Its first clause has a scope around all its
branches. -/
def ifStmt (env : Env) (level : Nat) (opening : String) : IfStmt → Lower Doc
  | ⟨init, cond, body, otherwise, _⟩ => do
    modify .pushScope
    let init ← match init with
      | none => pure ""
      | some s => do
        let text ← simple env level s
        pure (text ++ "; ")
    let cond ← expr env level cond
    let body ← block env (level + 1) body
    let otherwise ← elseBranch env level otherwise
    modify .popScope
    pure (.text level (opening ++ init ++ cond ++ " \x7b") :: body ++ otherwise)

def elseBranch (env : Env) (level : Nat) : Else → Lower Doc
  | .none => pure []
  | .block b => do
    let body ← block env (level + 1) b
    pure (.text level "\x7d else \x7b" :: body)
  | .chain s => ifStmt env level "\x7d else if " s

def loopHead (env : Env) (level : Nat) : LoopHeader → Lower String
  | .infinite => pure "for \x7b"
  | .cond e => do
    let e ← expr env level e
    pure ("for " ++ e ++ " \x7b")
  | .classic init cond post => do
    let init ← match init with
      | none => pure ""
      | some s => simple env level s
    let cond ← match cond with
      | none => pure ""
      | some e => expr env level e
    let post ← match post with
      | none => pure ""
      | some s => simple env level s
    pure ("for " ++ init ++ "; " ++ cond ++ "; " ++ post ++ " \x7b")
  | .range key value iterable => do
    let iterable ← expr env level iterable
    declareAll (key.toList ++ value.toList)
    pure ("for " ++ rangeVars key value ++ "range " ++ iterable ++ " \x7b")

end

end Lower
end ViewLang.Go
