import ViewLang.Analysis
import ViewLang.Proofs.Go.Lexical

namespace ViewLang.Analysis.Lexical

open Go.Lexical (Locals declared declaredByStmt declaredByClause declaredByHeader)

inductive Place
  | target (visible : Locals) (name : Name)
  | channel (visible : Locals) (name : Name)
  | declaration (names values : Nat) (span : Span)
  | view (component : Component) (first : Node)
  | hoisted (params : List String) (name : Name)

def Place.finding? : Place → Option Diagnostic
  | target visible name =>
    if name.value = "_" ∨ name.value ∈ visible then none else some (undefinedVariable name)
  | channel visible name =>
    if name.value = "_" ∨ name.value ∈ visible then none else some (undefinedChannel name)
  | declaration names values span =>
    if 2 ≤ values ∧ names ≠ values then some (countMismatch names values span) else none
  | view component first =>
    if component.isRenderable then none else some (ignoredNodes component.name first.span)
  | hoisted params name => if name.value ≠ "_" ∧ name.value ∈ params then some (shadowedParam name) else none

mutual

def expr (visible : Locals) : Expr → List Place
  | ⟨head, tail, _⟩ => primary visible head ++ links visible tail

def links (visible : Locals) : List Link → List Place
  | [] => []
  | ⟨_, operand⟩ :: ls => primary visible operand ++ links visible ls

def exprs (visible : Locals) : List Expr → List Place
  | [] => []
  | e :: es => expr visible e ++ exprs visible es

def optional (visible : Locals) : Option Expr → List Place
  | none => []
  | some e => expr visible e

def entries (visible : Locals) : List Entry → List Place
  | [] => []
  | ⟨_, value⟩ :: es => expr visible value ++ entries visible es

def primary (visible : Locals) : Primary → List Place
  | .int _ => []
  | .float _ => []
  | .string _ => []
  | .template t => template visible t
  | .composite _ es _ => entries visible es
  | .make _ args _ => exprs visible args
  | .index target index _ => primary visible target ++ expr visible index
  | .slice target low high _ => primary visible target ++ (optional visible low ++ optional visible high)
  | .select b _ _ => base visible b
  | .call b _ args _ => base visible b ++ exprs visible args
  | .func params _ body _ => block (visible.extend (params.map (·.name.value))) body
  | .receive channel _ => [.channel visible channel]
  | .unary _ operand _ => primary visible operand
  | .paren inner => expr visible inner

def base (visible : Locals) : Base → List Place
  | .name _ => []
  | .operand p => primary visible p

def template (visible : Locals) : Template → List Place
  | ⟨fs, _⟩ => fragments visible fs

def fragments (visible : Locals) : List Fragment → List Place
  | [] => []
  | .text _ :: fs => fragments visible fs
  | .interp e :: fs => expr visible e ++ fragments visible fs

def block (visible : Locals) : Block → List Place
  | ⟨ss, _⟩ => stmts visible ss

/-- What a statement declares is visible in those behind it. -/
def stmts (visible : Locals) : List Stmt → List Place
  | [] => []
  | s :: ss => stmt visible s ++ stmts (visible.extend (declaredByStmt s)) ss

def stmt (visible : Locals) : Stmt → List Place
  | .var d => varDecl visible d
  | .simple s => simple visible s
  | .ret values _ => exprs visible values
  | .cond s => ifStmt visible s
  | .loop header body _ => loopHeader visible header ++ block (visible.extend (declaredByHeader header)) body
  | .branch _ _ => []

def definedTargets (visible : Locals) : List Expr → List Place
  | [] => []
  | e :: es =>
    match e.ident? with
    | some name => definedTargets (visible.extend [name.value]) es
    | none => expr visible e ++ definedTargets visible es

def assignedTargets (visible : Locals) : List Expr → List Place
  | [] => []
  | e :: es =>
    match e.ident? with
    | some name => .target visible name :: assignedTargets visible es
    | none => expr visible e ++ assignedTargets visible es

def simple (visible : Locals) : SimpleStmt → List Place
  | .exprs targets _ => exprs visible targets
  | .assign targets op values span =>
    exprs visible values ++
      if op.value.isDeclaring then
        .declaration targets.length values.length span :: definedTargets visible targets
      else assignedTargets visible targets
  | .send channel value _ =>
    match channel.ident? with
    | some name => .channel visible name :: expr visible value
    | none => expr visible channel ++ expr visible value

def varDecl (visible : Locals) : VarDecl → List Place
  | ⟨names, _, values, span⟩ => exprs visible values ++ [.declaration names.length values.length span]

def clause (visible : Locals) : Option SimpleStmt → List Place
  | none => []
  | some s => simple visible s

def ifStmt (visible : Locals) : IfStmt → List Place
  | ⟨init, cond, body, otherwise, _⟩ =>
    let inner := visible.extend (declaredByClause init)
    clause visible init ++ (expr inner cond ++ (block inner body ++ elseBranch inner otherwise))

def elseBranch (visible : Locals) : Else → List Place
  | .none => []
  | .block b => block visible b
  | .chain s => ifStmt visible s

def loopHeader (visible : Locals) : LoopHeader → List Place
  | .infinite => []
  | .cond e => expr visible e
  | .classic init cond post =>
    let inner := visible.extend (declaredByClause init)
    clause visible init ++ (optional inner cond ++ clause inner post)
  | .range _ _ iterable => expr visible iterable

end

mutual

def node (visible : Locals) : Node → List Place
  | .element e => element visible e
  | .text _ => []
  | .template t => template visible t
  | .cond c => nodeIf visible c
  | .loop l => nodeFor visible l

def nodes (visible : Locals) : List Node → List Place
  | [] => []
  | n :: ns => node visible n ++ nodes visible ns

def element (visible : Locals) : Element → List Place
  | ⟨_, args, children, _⟩ => entries visible args ++ nodes visible children

def nodeIf (visible : Locals) : NodeIf → List Place
  | ⟨cond, body, otherwise, _⟩ => expr visible cond ++ (nodes visible body ++ nodes visible otherwise)

/-- The variables of a loop are visible in its children only. -/
def nodeFor (visible : Locals) : NodeFor → List Place
  | ⟨key, value, iterable, children, _⟩ =>
    expr visible iterable ++ nodes (visible.extend ((key.toList ++ value.toList).map (·.value))) children

end

def hoistedNames (b : Body) : List Name := b.vars.flatMap (·.names)

def body (visible : Locals) (params : List String) (b : Body) : List Place :=
  let inner := visible.extend ((hoistedNames b).map (·.value))
  (hoistedNames b).map (.hoisted params) ++
    (b.vars.flatMap (varDecl inner) ++ (stmts inner b.stmts ++ nodes (inner.extend (declared b.stmts)) b.nodes))

def view (c : Component) : List Place :=
  match c.body.nodes with
  | [] => []
  | first :: _ => [.view c first]

def component (visible : Locals) (c : Component) : List Place :=
  let params := c.params.map (·.name.value)
  view c ++ body (visible.extend params) params c.body

def decorators (visible : Locals) (ds : List Decorator) : List Place := ds.flatMap fun d => exprs visible d.args

def gpuStruct (visible : Locals) (s : GpuStruct) : List Place :=
  decorators visible s.decorators ++ s.fields.flatMap fun f => decorators visible f.decorators

def resultDecorators : Option GpuResult → List Decorator
  | none => []
  | some r => r.decorators

def gpuFunction (visible : Locals) (f : GpuFunction) : List Place :=
  let inner := visible.extend (f.params.map (·.name.value))
  decorators inner f.decorators ++ (f.params.flatMap (fun p => decorators inner p.decorators) ++
    (decorators inner (resultDecorators f.result) ++ block inner f.body))

def bindings (u : SourceUnit) : Locals := Locals.extend [] (u.gpuBindings.map (·.name.value))

def places (u : SourceUnit) : List Place :=
  u.components.flatMap (component (bindings u)) ++ (u.gpuStructs.flatMap (gpuStruct (bindings u)) ++
    (u.gpuBindings.flatMap (fun b => decorators (bindings u) b.decorators) ++
      u.gpuFunctions.flatMap (gpuFunction (bindings u))))

end ViewLang.Analysis.Lexical
