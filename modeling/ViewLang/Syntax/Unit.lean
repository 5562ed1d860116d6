import ViewLang.Syntax.Expr

namespace ViewLang

mutual

inductive Node
  | element (e : Element)
  | text (t : Name)
  | template (t : Template)
  | cond (c : NodeIf)
  | loop (l : NodeFor)

structure Element where
  tag : Name
  args : List Entry
  children : List Node
  span : Span

/-- Children under a condition. `else if` is a single conditional in `otherwise`. -/
structure NodeIf where
  cond : Expr
  body : List Node
  otherwise : List Node
  span : Span

/-- Children repeated: `for key, value := range iterable { ... }`. -/
structure NodeFor where
  key : Option Name
  value : Option Name
  iterable : Expr
  children : List Node
  span : Span

end

def Node.span : Node → Span
  | element e => e.span
  | text t => t.span
  | template t => t.span
  | cond c => c.span
  | loop l => l.span

structure Body where
  /-- Variables declared at the top level of the body; in a renderable component they are its state. -/
  vars : List VarDecl
  stmts : List Stmt
  nodes : List Node

def Body.empty : Body := ⟨[], [], []⟩

/-- A function of the unit. With results it renders a view; without, it is a plain function. -/
structure Component where
  name : Name
  params : List Param
  results : List (Located TypeExpr)
  body : Body
  autoProps : Bool
  span : Span

namespace Component

def isRenderable (c : Component) : Bool := !c.results.isEmpty

def channelParams (c : Component) : List Param := c.params.filter (·.ty.value.isChan)

end Component

structure Field where
  name : Name
  ty : Located TypeExpr

structure TypeDef where
  name : Name
  fields : List Field
  span : Span

namespace TypeDef

def same (a b : TypeDef) : Bool :=
  a.name.sameValue b.name && a.span == b.span && a.fields.length == b.fields.length &&
    (a.fields.zip b.fields).all fun (f, g) => f.name.sameValue g.name && f.ty.sameValue g.ty

end TypeDef

structure Decorator where
  name : Name
  args : List Expr
  span : Span

structure GpuField where
  decorators : List Decorator
  name : Name
  ty : Located TypeExpr

structure GpuStruct where
  decorators : List Decorator
  name : Name
  fields : List GpuField
  span : Span

structure GpuBinding where
  decorators : List Decorator
  name : Name
  ty : Located TypeExpr
  span : Span

structure GpuResult where
  decorators : List Decorator
  ty : Located TypeExpr

structure GpuFunction where
  decorators : List Decorator
  name : Name
  params : List GpuField
  result : Option GpuResult
  body : Block
  span : Span

structure SourceUnit where
  package : Name
  imports : List Name
  types : List TypeDef
  components : List Component
  gpuStructs : List GpuStruct
  gpuBindings : List GpuBinding
  gpuFunctions : List GpuFunction

namespace SourceUnit

def hasGpu (u : SourceUnit) : Bool :=
  !(u.gpuStructs.isEmpty && u.gpuBindings.isEmpty && u.gpuFunctions.isEmpty)

def component? (u : SourceUnit) (name : String) : Option Component := u.components.find? (·.name.value == name)

def sameTypes (u v : SourceUnit) : Bool :=
  u.types.length == v.types.length && (u.types.zip v.types).all fun (a, b) => a.same b

def sameImports (u v : SourceUnit) : Bool := u.imports.map (·.value) == v.imports.map (·.value)

end SourceUnit
end ViewLang
