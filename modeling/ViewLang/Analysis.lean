import ViewLang.Diagnostic
import ViewLang.Syntax.Unit

namespace ViewLang
namespace Analysis

structure State where
  scopes : List (List String)
  found : List Diagnostic
deriving Repr

abbrev Check := StateM State

def report (d : Diagnostic) : Check Unit := modify fun s => { s with found := s.found ++ [d] }

/-- Add a name to the innermost scope. The blank name declares nothing. -/
def declare (name : Name) : Check Unit :=
  modify fun s =>
    if name.value = "_" then s
    else match s.scopes with
      | [] => s
      | scope :: outer => { s with scopes := (name.value :: scope) :: outer }

def declareAll (names : List Name) : Check Unit := names.forM declare

def inScope (check : Check Unit) : Check Unit := do
  modify fun s => { s with scopes := [] :: s.scopes }
  check
  modify fun s => { s with scopes := s.scopes.tail }

def isVisible (scopes : List (List String)) (name : String) : Bool :=
  name == "_" || scopes.any (·.contains name)

def undefinedVariable (name : Name) : Diagnostic :=
  (Diagnostic.errorAt .undefinedVariable ("undefined variable: " ++ name.value) name.span
    "not declared in any enclosing scope").withHelp "declare it with `:=` or `var` first"

def undefinedChannel (name : Name) : Diagnostic :=
  Diagnostic.errorAt .undefinedChannel ("undefined channel: " ++ name.value) name.span
    "no channel with this name is in scope"

def countMismatch (names values : Nat) (span : Span) : Diagnostic :=
  Diagnostic.errorAt .countMismatch
    ("assignment mismatch: " ++ toString names ++ " variables but " ++ toString values ++ " values") span
    "declared here"

def ignoredNodes (component : Name) (first : Span) : Diagnostic :=
  ((Diagnostic.warningAt .ignoredNodes ("child nodes in plain function `" ++ component.value ++ "` are ignored")
    first "this node is never rendered").withSecondary component.span "declared without results").withHelp
    "add a result type such as `(Node)` to make it renderable"

def shadowedParam (name : Name) : Diagnostic :=
  (Diagnostic.warningAt .shadowedParam ("variable `" ++ name.value ++ "` shadows a parameter") name.span
    "hoisted here").withHelp "rename the variable or the parameter"

def checkTarget (name : Name) : Check Unit := do
  if !isVisible (← get).scopes name.value then report (undefinedVariable name)

def checkChannel (name : Name) : Check Unit := do
  if !isVisible (← get).scopes name.value then report (undefinedChannel name)

def checkCounts (names values : Nat) (span : Span) : Check Unit := do
  if 2 ≤ values ∧ names ≠ values then report (countMismatch names values span)

mutual

def expr : Expr → Check Unit
  | ⟨head, tail, _⟩ => do
    primary head
    links tail

def links : List Link → Check Unit
  | [] => pure ()
  | ⟨_, operand⟩ :: rest => do
    primary operand
    links rest

def exprs : List Expr → Check Unit
  | [] => pure ()
  | e :: es => do
    expr e
    exprs es

def entries : List Entry → Check Unit
  | [] => pure ()
  | ⟨_, value⟩ :: es => do
    expr value
    entries es

def primary : Primary → Check Unit
  | .int _ => pure ()
  | .float _ => pure ()
  | .string _ => pure ()
  | .template t => template t
  | .composite _ es _ => entries es
  | .make _ args _ => exprs args
  | .index target index _ => do
    primary target
    expr index
  | .slice target low high _ => do
    primary target
    match low with
    | none => pure ()
    | some e => expr e
    match high with
    | none => pure ()
    | some e => expr e
  | .select b _ _ => base b
  | .call b _ args _ => do
    base b
    exprs args
  | .func params _ body _ =>
    inScope do
      declareAll (params.map (·.name))
      block body
  | .receive channel _ => checkChannel channel
  | .unary _ operand _ => primary operand
  | .paren inner => expr inner

def base : Base → Check Unit
  | .name _ => pure ()
  | .operand p => primary p

def template : Template → Check Unit
  | ⟨fs, _⟩ => fragments fs

def fragments : List Fragment → Check Unit
  | [] => pure ()
  | .text _ :: fs => fragments fs
  | .interp e :: fs => do
    expr e
    fragments fs

def block : Block → Check Unit
  | ⟨ss, _⟩ => inScope (stmts ss)

def stmts : List Stmt → Check Unit
  | [] => pure ()
  | s :: ss => do
    stmt s
    stmts ss

def definedTargets : List Expr → Check Unit
  | [] => pure ()
  | e :: es => do
    match e.ident? with
    | some name => declare name
    | none => expr e
    definedTargets es

def assignedTargets : List Expr → Check Unit
  | [] => pure ()
  | e :: es => do
    match e.ident? with
    | some name => checkTarget name
    | none => expr e
    assignedTargets es

def simple : SimpleStmt → Check Unit
  | .exprs targets _ => exprs targets
  | .assign targets op values span => do
    exprs values
    if op.value.isDeclaring then
      checkCounts targets.length values.length span
      definedTargets targets
    else assignedTargets targets
  | .send channel value _ => do
    match channel.ident? with
    | some name => checkChannel name
    | none => expr channel
    expr value

def stmt : Stmt → Check Unit
  | .var d => varDecl d
  | .simple s => simple s
  | .ret values _ => exprs values
  | .cond s => ifStmt s
  | .loop header body _ =>
    inScope do
      loopHeader header
      block body
  | .branch _ _ => pure ()

def varDecl : VarDecl → Check Unit
  | ⟨names, _, values, span⟩ => do
    exprs values
    checkCounts names.length values.length span
    declareAll names

def ifStmt : IfStmt → Check Unit
  | ⟨init, cond, body, otherwise, _⟩ =>
    inScope do
      match init with
      | none => pure ()
      | some s => simple s
      expr cond
      block body
      elseBranch otherwise

def elseBranch : Else → Check Unit
  | .none => pure ()
  | .block b => block b
  | .chain s => ifStmt s

def loopHeader : LoopHeader → Check Unit
  | .infinite => pure ()
  | .cond e => expr e
  | .classic init cond post => do
    match init with
    | none => pure ()
    | some s => simple s
    match cond with
    | none => pure ()
    | some e => expr e
    match post with
    | none => pure ()
    | some s => simple s
  | .range key value iterable => do
    expr iterable
    declareAll (key.toList ++ value.toList)

end

mutual

def node : Node → Check Unit
  | .element e => element e
  | .text _ => pure ()
  | .template t => template t
  | .cond c => nodeIf c
  | .loop l => nodeFor l

def nodes : List Node → Check Unit
  | [] => pure ()
  | n :: ns => do
    node n
    nodes ns

def element : Element → Check Unit
  | ⟨_, args, children, _⟩ => do
    entries args
    nodes children

def nodeIf : NodeIf → Check Unit
  | ⟨cond, body, otherwise, _⟩ => do
    expr cond
    nodes body
    nodes otherwise

def nodeFor : NodeFor → Check Unit
  | ⟨key, value, iterable, children, _⟩ => do
    expr iterable
    inScope do
      declareAll (key.toList ++ value.toList)
      nodes children

end

def hoist (params : List String) (name : Name) : Check Unit := do
  if name.value ≠ "_" ∧ name.value ∈ params then report (shadowedParam name)
  declare name

def body (params : List String) (b : Body) : Check Unit :=
  inScope do
    b.vars.forM fun d => d.names.forM (hoist params)
    b.vars.forM varDecl
    stmts b.stmts
    nodes b.nodes

def component (c : Component) : Check Unit := do
  match c.isRenderable, c.body.nodes with
  | false, first :: _ => report (ignoredNodes c.name first.span)
  | _, _ => pure ()
  inScope do
    declareAll (c.params.map (·.name))
    body (c.params.map (·.name.value)) c.body

def decorators (ds : List Decorator) : Check Unit := ds.forM fun d => exprs d.args

def gpuStruct (s : GpuStruct) : Check Unit := do
  decorators s.decorators
  s.fields.forM fun f => decorators f.decorators

def gpuFunction (f : GpuFunction) : Check Unit :=
  inScope do
    declareAll (f.params.map (·.name))
    decorators f.decorators
    f.params.forM fun p => decorators p.decorators
    match f.result with
    | none => pure ()
    | some r => decorators r.decorators
    block f.body

def sourceUnit (u : SourceUnit) : Check Unit :=
  inScope do
    declareAll (u.gpuBindings.map (·.name))
    u.components.forM component
    u.gpuStructs.forM gpuStruct
    u.gpuBindings.forM fun b => decorators b.decorators
    u.gpuFunctions.forM gpuFunction

end Analysis

def analyze (u : SourceUnit) : List Diagnostic := ((Analysis.sourceUnit u).run ⟨[], []⟩).2.found

end ViewLang
