import ViewLang.Syntax.Unit

namespace ViewLang

inductive Kind
  | unit
  | import_
  | typeDef
  | field
  | component
  | param
  | type
  | body
  | block
  | stmt
  | varDecl
  | assign
  | send
  | ret
  | cond
  | loop
  | branch
  | node
  | element
  | elementArg
  | text
  | nodeIf
  | nodeFor
  | expr
  | primary
  | literal
  | template
  | composite
  | make
  | index
  | path
  | func
  | receive
  | unary
  | decorator
  | gpuStruct
  | gpuField
  | gpuBinding
  | gpuFunction
  | gpuParam
deriving Repr, DecidableEq

inductive Part
  | unit (package : String)
  | import_ (path : String)
  | typeDef (name : String)
  | field (name : String) (ty : TypeExpr)
  | component (name : String) (renderable autoProps : Bool)
  | param (name : String) (variadic : Bool) (ty : TypeExpr)
  | type (ty : TypeExpr)
  | body
  | block
  | stmt
  | varDecl (names : List String) (ty : Option TypeExpr)
  | exprs
  | assign (op : AssignOp)
  | send
  | ret
  | cond
  | loop
  | branch (kind : BranchKind)
  | node
  | element (tag : String)
  | elementArg (name : Option String)
  | text (s : String)
  | nodeIf
  | nodeFor
  | expr (ops : List BinaryOp)
  | primary
  | int (text : String)
  | float (text : String)
  | string (text : String)
  | templateLiteral
  | template (fragments : Nat) (received : List String)
  | composite (ty : TypeExpr)
  | make (ty : TypeExpr)
  | index
  | select (name : Option String)
  | call (name : Option String)
  | func
  | receive (channel : String)
  | unary (op : UnaryOp)
  | decorator (name : String)
  | gpuStruct (name : String)
  | gpuField (name : String) (ty : TypeExpr)
  | gpuBinding (name : String) (ty : TypeExpr)
  | gpuFunction (name : String)
  | gpuParam
deriving Repr

def Part.kind : Part → Kind
  | unit _ => .unit
  | import_ _ => .import_
  | typeDef _ => .typeDef
  | field .. => .field
  | component .. => .component
  | param .. => .param
  | type _ => .type
  | body => .body
  | block => .block
  | stmt => .stmt
  | varDecl .. => .varDecl
  | exprs => .assign
  | assign _ => .assign
  | send => .send
  | ret => .ret
  | cond => .cond
  | loop => .loop
  | branch _ => .branch
  | node => .node
  | element _ => .element
  | elementArg _ => .elementArg
  | text _ => .text
  | nodeIf => .nodeIf
  | nodeFor => .nodeFor
  | expr _ => .expr
  | primary => .primary
  | int _ => .literal
  | float _ => .literal
  | string _ => .literal
  | templateLiteral => .literal
  | template .. => .template
  | composite _ => .composite
  | make _ => .make
  | index => .index
  | select _ => .path
  | call _ => .path
  | func => .func
  | receive _ => .receive
  | unary _ => .unary
  | decorator _ => .decorator
  | gpuStruct _ => .gpuStruct
  | gpuField .. => .gpuField
  | gpuBinding .. => .gpuBinding
  | gpuFunction _ => .gpuFunction
  | gpuParam => .gpuParam

inductive Tree
  | mk (part : Part) (children : List Tree)
deriving Repr

namespace Tree

def part : Tree → Part
  | mk p _ => p

def children : Tree → List Tree
  | mk _ ts => ts

def leaf (p : Part) : Tree := mk p []

mutual

def subtrees : Tree → List Tree
  | mk p ts => mk p ts :: subtreesEach ts

def subtreesEach : List Tree → List Tree
  | [] => []
  | t :: ts => subtrees t ++ subtreesEach ts

end

def parts (t : Tree) : List Part := t.subtrees.map part

def ofKind (t : Tree) (kind : Kind) : List Tree := t.subtrees.filter (·.part.kind == kind)

end Tree

def typeTree (ty : Located TypeExpr) : Tree := .leaf (.type ty.value)

def Param.tree (p : Param) : Tree := .mk (.param p.name.value p.variadic p.ty.value) [typeTree p.ty]

mutual

def Expr.tree : Expr → Tree
  | ⟨head, tail, _⟩ => .mk (.expr (tail.map (·.op.value))) (head.tree :: Link.trees tail)

def Link.trees : List Link → List Tree
  | [] => []
  | ⟨_, operand⟩ :: links => operand.tree :: Link.trees links

def Expr.trees : List Expr → List Tree
  | [] => []
  | e :: es => e.tree :: Expr.trees es

def Entry.trees : List Entry → List Tree
  | [] => []
  | ⟨_, value⟩ :: es => value.tree :: Entry.trees es

def Primary.tree : Primary → Tree
  | .int text => .mk .primary [.leaf (.int text.value)]
  | .float text => .mk .primary [.leaf (.float text.value)]
  | .string text => .mk .primary [.leaf (.string text.value)]
  | .template t => .mk .primary [.mk .templateLiteral [t.tree]]
  | .composite ty entries _ => .mk .primary [.mk (.composite ty.value) (typeTree ty :: Entry.trees entries)]
  | .make ty args _ => .mk .primary [.mk (.make ty.value) (typeTree ty :: Expr.trees args)]
  | .index target index _ => .mk .primary [.mk .index [target.tree, index.tree]]
  | .slice target low high _ =>
    let lows := match low with
      | none => []
      | some e => [e.tree]
    let highs := match high with
      | none => []
      | some e => [e.tree]
    .mk .primary [.mk .index (target.tree :: (lows ++ highs))]
  | .select base path _ => .mk .primary [.mk (.select (base.qualified? path)) base.trees]
  | .call base path args _ => .mk .primary [.mk (.call (base.qualified? path)) (base.trees ++ Expr.trees args)]
  | .func params results body _ =>
    .mk .primary [.mk .func (params.map Param.tree ++ results.map typeTree ++ [body.tree])]
  | .receive channel _ => .mk .primary [.leaf (.receive channel.value)]
  | .unary op operand _ => .mk .primary [.mk (.unary op) [operand.tree]]
  | .paren inner => .mk .primary [inner.tree]

def Base.trees : Base → List Tree
  | .name _ => []
  | .operand p => [p.tree]

def Template.tree : Template → Tree
  | ⟨fragments, span⟩ =>
    .mk (.template fragments.length ((Template.received ⟨fragments, span⟩).map (·.value))) (Fragment.trees fragments)

def Fragment.trees : List Fragment → List Tree
  | [] => []
  | .text _ :: fs => Fragment.trees fs
  | .interp e :: fs => e.tree :: Fragment.trees fs

def Block.tree : Block → Tree
  | ⟨stmts, _⟩ => .mk .block (Stmt.trees stmts)

def Stmt.trees : List Stmt → List Tree
  | [] => []
  | s :: ss => s.tree :: Stmt.trees ss

def Stmt.tree : Stmt → Tree
  | .var d => .mk .stmt [d.tree]
  | .simple s => s.tree
  | .ret values _ => .mk .stmt [.mk .ret (Expr.trees values)]
  | .cond s => .mk .stmt [s.tree]
  | .loop header body _ => .mk .stmt [.mk .loop (header.trees ++ [body.tree])]
  | .branch kind _ => .mk .stmt [.leaf (.branch kind)]

def SimpleStmt.tree : SimpleStmt → Tree
  | .exprs targets _ => .mk .stmt [.mk .exprs (Expr.trees targets)]
  | .assign targets op values _ => .mk .stmt [.mk (.assign op.value) (Expr.trees targets ++ Expr.trees values)]
  | .send channel value _ => .mk .stmt [.mk .send [channel.tree, value.tree]]

def VarDecl.tree : VarDecl → Tree
  | ⟨names, ty, values, _⟩ =>
    .mk (.varDecl (names.map (·.value)) (ty.map (·.value))) ((ty.map typeTree).toList ++ Expr.trees values)

def IfStmt.tree : IfStmt → Tree
  | ⟨init, cond, body, otherwise, _⟩ =>
    let inits := match init with
      | none => []
      | some s => [s.tree]
    .mk .cond (inits ++ [cond.tree, body.tree] ++ otherwise.trees)

def Else.trees : Else → List Tree
  | .none => []
  | .block b => [b.tree]
  | .chain s => [s.tree]

def LoopHeader.trees : LoopHeader → List Tree
  | .infinite => []
  | .cond e => [e.tree]
  | .classic init cond post =>
    let inits := match init with
      | none => []
      | some s => [s.tree]
    let conds := match cond with
      | none => []
      | some e => [e.tree]
    let posts := match post with
      | none => []
      | some s => [s.tree]
    inits ++ conds ++ posts
  | .range _ _ iterable => [iterable.tree]

end

def Entry.argTree (a : Entry) : Tree := .mk (.elementArg (a.key.map (·.value))) [a.value.tree]

mutual

def Node.tree : Node → Tree
  | .element e => .mk .node [e.tree]
  | .text t => .mk .node [.leaf (.text t.value)]
  | .template t => .mk .node [t.tree]
  | .cond c => .mk .node [c.tree]
  | .loop l => .mk .node [l.tree]

def Node.trees : List Node → List Tree
  | [] => []
  | n :: ns => n.tree :: Node.trees ns

def Element.tree : Element → Tree
  | ⟨tag, args, children, _⟩ => .mk (.element tag.value) (args.map Entry.argTree ++ Node.trees children)

def NodeIf.tree : NodeIf → Tree
  | ⟨cond, body, otherwise, _⟩ => .mk .nodeIf (cond.tree :: (Node.trees body ++ Node.trees otherwise))

def NodeFor.tree : NodeFor → Tree
  | ⟨_, _, iterable, children, _⟩ => .mk .nodeFor (iterable.tree :: Node.trees children)

end

def Body.tree (b : Body) : Tree :=
  .mk .body (b.vars.map VarDecl.tree ++ b.stmts.map Stmt.tree ++ b.nodes.map Node.tree)

def Body.received (b : Body) : List String :=
  b.tree.parts.flatMap fun
    | .template _ received => received
    | _ => []

def Component.tree (c : Component) : Tree :=
  .mk (.component c.name.value c.isRenderable c.autoProps)
    (c.params.map Param.tree ++ c.results.map typeTree ++ [c.body.tree])

def TypeDef.tree (d : TypeDef) : Tree :=
  .mk (.typeDef d.name.value) (d.fields.map fun f => .mk (.field f.name.value f.ty.value) [typeTree f.ty])

def Decorator.tree (d : Decorator) : Tree := .mk (.decorator d.name.value) (d.args.map Expr.tree)

def GpuField.tree (f : GpuField) : Tree :=
  .mk (.gpuField f.name.value f.ty.value) (f.decorators.map Decorator.tree ++ [typeTree f.ty])

def GpuField.paramTree (p : GpuField) : Tree :=
  .mk .gpuParam (p.decorators.map Decorator.tree ++ [typeTree p.ty])

def GpuStruct.tree (s : GpuStruct) : Tree :=
  .mk (.gpuStruct s.name.value) (s.decorators.map Decorator.tree ++ s.fields.map GpuField.tree)

def GpuBinding.tree (b : GpuBinding) : Tree :=
  .mk (.gpuBinding b.name.value b.ty.value) (b.decorators.map Decorator.tree ++ [typeTree b.ty])

def GpuResult.trees (r : GpuResult) : List Tree := r.decorators.map Decorator.tree ++ [typeTree r.ty]

def GpuFunction.tree (f : GpuFunction) : Tree :=
  .mk (.gpuFunction f.name.value)
    (f.decorators.map Decorator.tree ++ f.params.map GpuField.paramTree ++
      (match f.result with
        | some r => r.trees
        | none => []) ++ [f.body.tree])

def SourceUnit.tree (u : SourceUnit) : Tree :=
  .mk (.unit u.package.value)
    (u.imports.map (fun path => .leaf (.import_ path.value)) ++ u.types.map TypeDef.tree ++
      u.components.map Component.tree ++ u.gpuStructs.map GpuStruct.tree ++ u.gpuBindings.map GpuBinding.tree ++
      u.gpuFunctions.map GpuFunction.tree)

end ViewLang
