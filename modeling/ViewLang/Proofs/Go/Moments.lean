import ViewLang.Go.Component
import ViewLang.Proofs.Go.ScopeDiscipline

namespace ViewLang.Go

structure Moment where
  state : LowerState
  name : Name

def after {α : Type} (act : Lower α) (s : LowerState) : LowerState := (act.run s).2

namespace Moments

def openLiteral (env : Env) (ps : List Param) (results : List (Located TypeExpr)) : Lower Unit := do
  let _ ← Lower.params env ps
  let _ ← Lower.typeList env results
  modify fun s => { s.pushScope with writes := false :: s.writes }
  Lower.declareAll (ps.map (·.name))

mutual

def expr (env : Env) (level : Nat) : Expr → LowerState → List Moment
  | ⟨head, tail, _⟩, s => primary env level head s ++ links env level tail (after (Lower.primary env level head) s)

def links (env : Env) (level : Nat) : List Link → LowerState → List Moment
  | [], _ => []
  | ⟨_, operand⟩ :: ls, s =>
    primary env level operand s ++ links env level ls (after (Lower.primary env level operand) s)

def exprs (env : Env) (level : Nat) : List Expr → LowerState → List Moment
  | [], _ => []
  | e :: es, s => expr env level e s ++ exprs env level es (after (Lower.expr env level e) s)

def optional (env : Env) (level : Nat) : Option Expr → LowerState → List Moment
  | none, _ => []
  | some e, s => expr env level e s

def entries (env : Env) (level : Nat) : List Entry → LowerState → List Moment
  | [], _ => []
  | ⟨_, value⟩ :: es, s => expr env level value s ++ entries env level es (after (Lower.expr env level value) s)

def primary (env : Env) (level : Nat) : Primary → LowerState → List Moment
  | .int _, _ => []
  | .float _, _ => []
  | .string _, _ => []
  | .template t, s => template env level t s
  | .composite ty es _, s => entries env level es (after (Lower.type env ty.value) s)
  | .make ty args _, s => exprs env level args (after (Lower.type env ty.value) s)
  | .index target index _, s =>
    primary env level target s ++ expr env level index (after (Lower.primary env level target) s)
  | .slice target low high _, s =>
    let bounds := after (Lower.primary env level target) s
    primary env level target s ++ (optional env level low bounds ++
      optional env level high (after (optionally (Lower.expr env level) low) bounds))
  | .select b _ _, s => base env level b s
  | .call b _ args _, s => base env level b s ++ exprs env level args (after (Lower.base env level b) s)
  | .func ps results body _, s => block env (level + 1) body (after (openLiteral env ps results) s)
  | .receive _ _, _ => []
  | .unary _ operand _, s => primary env level operand s
  | .paren inner, s => expr env level inner s

def base (env : Env) (level : Nat) : Base → LowerState → List Moment
  | .name _, _ => []
  | .operand p, s => primary env level p s

def template (env : Env) (level : Nat) : Template → LowerState → List Moment
  | ⟨fs, _⟩, s => fragments env level fs s

def fragments (env : Env) (level : Nat) : List Fragment → LowerState → List Moment
  | [], _ => []
  | .text _ :: fs, s => fragments env level fs s
  | .interp e :: fs, s => expr env level e s ++ fragments env level fs (after (Lower.expr env level e) s)

def block (env : Env) (level : Nat) : Block → LowerState → List Moment
  | ⟨ss, _⟩, s => stmts env level ss s.pushScope

def stmts (env : Env) (level : Nat) : List Stmt → LowerState → List Moment
  | [], _ => []
  | st :: ss, s => stmt env level st s ++ stmts env level ss (after (Lower.stmt env level st) s)

def stmt (env : Env) (level : Nat) : Stmt → LowerState → List Moment
  | .var d, s => varDecl env level d s
  | .simple st, s => simple env level st s
  | .ret values _, s => exprs env level values s
  | .cond st, s => ifStmt env level st s
  | .loop header body _, s =>
    loopHead env level header s.pushScope ++
      block env (level + 1) body (after (Lower.loopHead env level header) s.pushScope)
  | .branch _ _, _ => []

def definedTargets (env : Env) (level : Nat) : List Expr → LowerState → List Moment
  | [], _ => []
  | e :: es, s =>
    match e.ident? with
    | some name => definedTargets env level es (after (Lower.declare name.value) s)
    | none => expr env level e s ++ definedTargets env level es (after (Lower.expr env level e) s)

def assignedTargets (env : Env) (level : Nat) : List Expr → LowerState → List Moment
  | [], _ => []
  | e :: es, s =>
    e.ident?.toList.map (Moment.mk s) ++
      (expr env level e s ++ assignedTargets env level es (after (Lower.expr env level e) s))

def simple (env : Env) (level : Nat) : SimpleStmt → LowerState → List Moment
  | .exprs targets _, s => exprs env level targets s
  | .assign targets op values _, s =>
    if op.value.isDeclaring then
      exprs env level values s ++ definedTargets env level targets (after (Lower.exprs env level values) s)
    else
      let noted := after (targets.forM (Lower.noteTarget env)) s
      assignedTargets env level targets noted ++
        if op.value.isPostfix then [] else exprs env level values (after (Lower.exprs env level targets) noted)
  | .send channel value _, s =>
    expr env level channel s ++ expr env level value (after (Lower.expr env level channel) s)

def varDecl (env : Env) (level : Nat) : VarDecl → LowerState → List Moment
  | ⟨_, ty, values, _⟩, s =>
    exprs env level values (after (optionally (fun t => do
      let text ← Lower.type env t.value
      pure (" " ++ text)) ty) s)

def clause (env : Env) (level : Nat) : Option SimpleStmt → LowerState → List Moment
  | none, _ => []
  | some st, s => simple env level st s

def ifStmt (env : Env) (level : Nat) : IfStmt → LowerState → List Moment
  | ⟨init, cond, body, otherwise, _⟩, s =>
    let tested := after (optionally (Lower.simple env level) init) s.pushScope
    let taken := after (Lower.expr env level cond) tested
    clause env level init s.pushScope ++ (expr env level cond tested ++ (block env (level + 1) body taken ++
      elseBranch env level otherwise (after (Lower.block env (level + 1) body) taken)))

def elseBranch (env : Env) (level : Nat) : Else → LowerState → List Moment
  | .none, _ => []
  | .block b, s => block env (level + 1) b s
  | .chain st, s => ifStmt env level st s

def loopHead (env : Env) (level : Nat) : LoopHeader → LowerState → List Moment
  | .infinite, _ => []
  | .cond e, s => expr env level e s
  | .classic init cond post, s =>
    let tested := after (optionally (Lower.simple env level) init) s
    clause env level init s ++ (optional env level cond tested ++
      clause env level post (after (optionally (Lower.expr env level) cond) tested))
  | .range _ _ iterable, s => expr env level iterable s

end

def elementArgs (env : Env) (level : Nat) : List Entry → LowerState → List Moment
  | [], _ => []
  | ⟨some _, value⟩ :: es, s =>
    expr env level value s ++ elementArgs env level es (after (Lower.expr env level value) s)
  | ⟨none, value⟩ :: es, s =>
    let given := after (Lower.expr env level value >>= Lower.textChild env value) s
    expr env level value s ++ elementArgs env level es given

def propChildren (env : Env) (level : Nat) : List Node → LowerState → List Moment
  | [], _ => []
  | .element ⟨tag, args, _, _⟩ :: ns, s =>
    match Vocabulary.prop? tag.value, args with
    | some _, ⟨_, value⟩ :: _ =>
      expr env level value s ++ propChildren env level ns (after (Lower.expr env level value) s)
    | _, _ => propChildren env level ns s
  | _ :: ns, s => propChildren env level ns s

def optionArgs (env : Env) (level : Nat) (params : List Param) : List Param → List Entry → LowerState → List Moment
  | _, [], _ => []
  | positional, ⟨some name, value⟩ :: es, s =>
    match params.find? (·.name.value == name.value) with
    | none => optionArgs env level params positional es s
    | some _ =>
      expr env level value s ++ optionArgs env level params positional es (after (Lower.expr env level value) s)
  | [], ⟨none, _⟩ :: es, s => optionArgs env level params [] es s
  | _ :: positional, ⟨none, value⟩ :: es, s =>
    expr env level value s ++ optionArgs env level params positional es (after (Lower.expr env level value) s)

def paramArgs (env : Env) (level : Nat) (args : List Entry) : List Entry → List Param → LowerState → List Moment
  | _, [], _ => []
  | positional, p :: ps, s =>
    match Lower.namedArg? args p, p.variadic, positional with
    | some a, _, positional =>
      expr env level a.value s ++ paramArgs env level args positional ps (after (Lower.expr env level a.value) s)
    | none, true, positional =>
      exprs env level (positional.map (·.value)) s ++
        paramArgs env level args [] ps (after (Lower.exprs env level (positional.map (·.value))) s)
    | none, false, a :: positional =>
      expr env level a.value s ++ paramArgs env level args positional ps (after (Lower.expr env level a.value) s)
    | none, false, [] => paramArgs env level args [] ps (after (Lower.type env p.ty.value) s)

def embedArgs (env : Env) (level : Nat) (tag : String) (args : List Entry) (s : LowerState) : List Moment :=
  match env.components.find? (·.name.value == tag) with
  | some c =>
    if !c.isRenderable then exprs env level (args.map (·.value)) s
    else if c.autoProps then optionArgs env level c.params c.params args s
    else paramArgs env level args (args.filter (·.key.isNone)) c.params s
  | none => exprs env level (args.map (·.value)) s

mutual

def node (env : Env) (level : Nat) : Node → LowerState → List Moment
  | .element e, s => element env level e s
  | .text _, _ => []
  | .template t, s => template env level t s
  | .cond c, s => nodeIf env level c s
  | .loop l, s => nodeFor env level l s

def nodes (env : Env) (level : Nat) : List Node → LowerState → List Moment
  | [], _ => []
  | n :: ns, s =>
    if (Lower.propKey? n).isSome then nodes env level ns s
    else node env level n s ++ nodes env level ns (after (Lower.node env level n) s)

def element (env : Env) (level : Nat) : Element → LowerState → List Moment
  | ⟨tag, args, children, _⟩, s =>
    match Vocabulary.tag? tag.value with
    | none => embedArgs env level tag.value args s
    | some _ =>
      let given := after (Lower.elementArgs env level args) s
      elementArgs env level args s ++ (propChildren env level children given ++
        nodes env (level + 1) children (after (Lower.propChildren env level children) given))

def nodeIf (env : Env) (level : Nat) : NodeIf → LowerState → List Moment
  | ⟨cond, body, otherwise, _⟩, s =>
    let tested := after (Lower.runtime env "Node") s
    let taken := after (Lower.expr env (level + 1) cond) tested
    let refused := after (do
      let texts ← Lower.nodes env (Lower.listLevel (level + 2) body) body
      Lower.listText env (level + 2) texts) taken
    expr env (level + 1) cond tested ++ (nodes env (Lower.listLevel (level + 2) body) body taken ++
      nodes env (Lower.listLevel (level + 1) otherwise) otherwise refused)

def nodeFor (env : Env) (level : Nat) : NodeFor → LowerState → List Moment
  | ⟨key, value, iterable, children, _⟩, s =>
    let ranged := after (do
      let _ ← Lower.runtime env "Node"
      Lower.runtime env "Fragment") s
    let inside := (after (Lower.expr env (level + 1) iterable) ranged).pushScope
    let bound := after (Lower.declareAll (key.toList ++ value.toList)) inside
    expr env (level + 1) iterable ranged ++ nodes env (Lower.listLevel (level + 2) children) children bound

end

def initialise (env : Env) : List VarDecl → LowerState → List Moment
  | [], _ => []
  | d :: ds, s => exprs env 1 d.values s ++ initialise env ds (after (Lower.exprs env 1 d.values) s)

def constructor (env : Env) (c : Component) : List Moment :=
  initialise env c.body.vars (after (Lower.constructorHead env c) .start)

/-- Every moment in the method that renders a component. -/
def render (env : Env) (c : Component) : List Moment :=
  let entered := after (Lower.runtime env "Node") .start
  stmts env 1 c.body.stmts entered ++
    nodes env (Lower.listLevel 1 c.body.nodes) c.body.nodes (after (Lower.stmts env 1 c.body.stmts) entered)

end Moments
end ViewLang.Go
