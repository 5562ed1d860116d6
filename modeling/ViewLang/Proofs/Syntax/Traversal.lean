import Mathlib.Data.List.FinRange
import ViewLang.Proofs.Syntax.Templates

namespace ViewLang

inductive Construct
  | unit (u : SourceUnit)
  | import_ (path : Name)
  | typeDef (d : TypeDef)
  | field (f : Field)
  | component (c : Component)
  | param (p : Param)
  | type (ty : Located TypeExpr)
  | body (b : Body)
  | block (b : Block)
  | stmt (s : Stmt)
  | varDecl (d : VarDecl)
  | exprs (targets : List Expr) (span : Span)
  | assign (targets : List Expr) (op : Located AssignOp) (values : List Expr) (span : Span)
  | send (channel value : Expr) (span : Span)
  | ret (values : List Expr) (span : Span)
  | cond (s : IfStmt)
  | loop (header : LoopHeader) (body : Block) (span : Span)
  | branch (kind : BranchKind) (span : Span)
  | node (n : Node)
  | element (e : Element)
  | elementArg (a : Entry)
  | text (t : Name)
  | nodeIf (c : NodeIf)
  | nodeFor (l : NodeFor)
  | expr (e : Expr)
  | primary (p : Primary)
  | int (text : Name)
  | float (text : Name)
  | string (text : Name)
  | templateLiteral (t : Template)
  | template (t : Template)
  | composite (ty : Located TypeExpr) (entries : List Entry) (span : Span)
  | make (ty : Located TypeExpr) (args : List Expr) (span : Span)
  | index (target : Primary) (index : Expr) (span : Span)
  | slice (target : Primary) (low high : Option Expr) (span : Span)
  | select (base : Base) (path : List Name) (span : Span)
  | call (base : Base) (path : List Name) (args : List Expr) (span : Span)
  | func (params : List Param) (results : List (Located TypeExpr)) (body : Block) (span : Span)
  | receive (channel : Name) (span : Span)
  | unary (op : UnaryOp) (operand : Primary) (span : Span)
  | decorator (d : Decorator)
  | gpuStruct (s : GpuStruct)
  | gpuField (f : GpuField)
  | gpuBinding (b : GpuBinding)
  | gpuFunction (f : GpuFunction)
  | gpuParam (p : GpuField)

def Stmt.inner : Stmt → Construct
  | .var d => .varDecl d
  | .simple (.exprs targets s) => .exprs targets s
  | .simple (.assign targets op values s) => .assign targets op values s
  | .simple (.send channel value s) => .send channel value s
  | .ret values s => .ret values s
  | .cond s => .cond s
  | .loop header body s => .loop header body s
  | .branch kind s => .branch kind s

/-- What the operand is; parentheses have no kind of their own. -/
def Primary.inner : Primary → Construct
  | .int text => .int text
  | .float text => .float text
  | .string text => .string text
  | .template t => .templateLiteral t
  | .composite ty entries s => .composite ty entries s
  | .make ty args s => .make ty args s
  | .index target i s => .index target i s
  | .slice target low high s => .slice target low high s
  | .select base path s => .select base path s
  | .call base path args s => .call base path args s
  | .func params results body s => .func params results body s
  | .receive channel s => .receive channel s
  | .unary op operand s => .unary op operand s
  | .paren inner => .expr inner

def Node.inner : Node → Construct
  | .element e => .element e
  | .text t => .text t
  | .template t => .template t
  | .cond c => .nodeIf c
  | .loop l => .nodeFor l

def Base.constructs : Base → List Construct
  | .name _ => []
  | .operand p => [.primary p]

def Fragment.constructs : Fragment → List Construct
  | .text _ => []
  | .interp e => [.expr e]

def Else.constructs : Else → List Construct
  | .none => []
  | .block b => [.block b]
  | .chain s => [.cond s]

def LoopHeader.constructs : LoopHeader → List Construct
  | .infinite => []
  | .cond e => [.expr e]
  | .classic init test post =>
    init.toList.map (.stmt <| .simple ·) ++ test.toList.map .expr ++ post.toList.map (.stmt <| .simple ·)
  | .range _ _ iterable => [.expr iterable]

def GpuResult.constructs (r : GpuResult) : List Construct := r.decorators.map .decorator ++ [.type r.ty]

namespace Construct

/-- The constructs written directly inside, in the order in which their fields are declared. -/
@[simp] def children : Construct → List Construct
  | unit u =>
    u.imports.map import_ ++ u.types.map typeDef ++ u.components.map component ++ u.gpuStructs.map gpuStruct ++
      u.gpuBindings.map gpuBinding ++ u.gpuFunctions.map gpuFunction
  | import_ _ => []
  | typeDef d => d.fields.map field
  | field f => [type f.ty]
  | component c => c.params.map param ++ c.results.map type ++ [body c.body]
  | param p => [type p.ty]
  | type _ => []
  | body b => b.vars.map varDecl ++ b.stmts.map stmt ++ b.nodes.map node
  | block b => b.stmts.map stmt
  | stmt s => [s.inner]
  | varDecl d => d.ty.toList.map type ++ d.values.map expr
  | exprs targets _ => targets.map expr
  | assign targets _ values _ => targets.map expr ++ values.map expr
  | send channel value _ => [expr channel, expr value]
  | ret values _ => values.map expr
  | cond s => s.init.toList.map (stmt <| .simple ·) ++ [expr s.cond, block s.body] ++ s.otherwise.constructs
  | loop header inner _ => header.constructs ++ [block inner]
  | branch .. => []
  | node n => [n.inner]
  | element e => e.args.map elementArg ++ e.children.map node
  | elementArg a => [expr a.value]
  | text _ => []
  | nodeIf c => expr c.cond :: (c.body.map node ++ c.otherwise.map node)
  | nodeFor l => expr l.iterable :: l.children.map node
  | expr e => primary e.head :: e.tail.map (primary ·.operand)
  | primary p => [p.inner]
  | int _ => []
  | float _ => []
  | string _ => []
  | templateLiteral t => [template t]
  | template t => t.fragments.flatMap Fragment.constructs
  | composite ty entries _ => type ty :: entries.map (expr ·.value)
  | make ty args _ => type ty :: args.map expr
  | index target i _ => [primary target, expr i]
  | slice target low high _ => primary target :: (low.toList.map expr ++ high.toList.map expr)
  | select base _ _ => base.constructs
  | call base _ args _ => base.constructs ++ args.map expr
  | func params results inner _ => params.map param ++ results.map type ++ [block inner]
  | receive .. => []
  | unary _ operand _ => [primary operand]
  | decorator d => d.args.map expr
  | gpuStruct s => s.decorators.map decorator ++ s.fields.map gpuField
  | gpuField f => f.decorators.map decorator ++ [type f.ty]
  | gpuBinding b => b.decorators.map decorator ++ [type b.ty]
  | gpuFunction f =>
    f.decorators.map decorator ++ f.params.map gpuParam ++ f.result.toList.flatMap GpuResult.constructs ++
      [block f.body]
  | gpuParam p => p.decorators.map decorator ++ [type p.ty]

def kind : Construct → Kind
  | unit _ => .unit
  | import_ _ => .import_
  | typeDef _ => .typeDef
  | field _ => .field
  | component _ => .component
  | param _ => .param
  | type _ => .type
  | body _ => .body
  | block _ => .block
  | stmt _ => .stmt
  | varDecl _ => .varDecl
  | exprs .. => .assign
  | assign .. => .assign
  | send .. => .send
  | ret .. => .ret
  | cond _ => .cond
  | loop .. => .loop
  | branch .. => .branch
  | node _ => .node
  | element _ => .element
  | elementArg _ => .elementArg
  | text _ => .text
  | nodeIf _ => .nodeIf
  | nodeFor _ => .nodeFor
  | expr _ => .expr
  | primary _ => .primary
  | int _ => .literal
  | float _ => .literal
  | string _ => .literal
  | templateLiteral _ => .literal
  | template _ => .template
  | composite .. => .composite
  | make .. => .make
  | index .. => .index
  | slice .. => .index
  | select .. => .path
  | call .. => .path
  | func .. => .func
  | receive .. => .receive
  | unary .. => .unary
  | decorator _ => .decorator
  | gpuStruct _ => .gpuStruct
  | gpuField _ => .gpuField
  | gpuBinding _ => .gpuBinding
  | gpuFunction _ => .gpuFunction
  | gpuParam _ => .gpuParam

def tree : Construct → Tree
  | unit u => u.tree
  | import_ path => .leaf (.import_ path.value)
  | typeDef d => d.tree
  | field f => .mk (.field f.name.value f.ty.value) [typeTree f.ty]
  | component c => c.tree
  | param p => p.tree
  | type ty => typeTree ty
  | body b => b.tree
  | block b => b.tree
  | stmt s => s.tree
  | varDecl d => d.tree
  | exprs targets _ => .mk .exprs (Expr.trees targets)
  | assign targets op values _ => .mk (.assign op.value) (Expr.trees targets ++ Expr.trees values)
  | send channel value _ => .mk .send [channel.tree, value.tree]
  | ret values _ => .mk .ret (Expr.trees values)
  | cond s => s.tree
  | loop header inner _ => .mk .loop (header.trees ++ [inner.tree])
  | branch kind _ => .leaf (.branch kind)
  | node n => n.tree
  | element e => e.tree
  | elementArg a => a.argTree
  | text t => .leaf (.text t.value)
  | nodeIf c => c.tree
  | nodeFor l => l.tree
  | expr e => e.tree
  | primary p => p.tree
  | int t => .leaf (.int t.value)
  | float t => .leaf (.float t.value)
  | string t => .leaf (.string t.value)
  | templateLiteral t => .mk .templateLiteral [t.tree]
  | template t => t.tree
  | composite ty entries _ => .mk (.composite ty.value) (typeTree ty :: Entry.trees entries)
  | make ty args _ => .mk (.make ty.value) (typeTree ty :: Expr.trees args)
  | index target i _ => .mk .index [target.tree, i.tree]
  | slice target low high _ =>
    .mk .index (target.tree :: (low.toList.map Expr.tree ++ high.toList.map Expr.tree))
  | select base path _ => .mk (.select (base.qualified? path)) base.trees
  | call base path args _ => .mk (.call (base.qualified? path)) (base.trees ++ Expr.trees args)
  | func params results inner _ => .mk .func (params.map Param.tree ++ results.map typeTree ++ [inner.tree])
  | receive channel _ => .leaf (.receive channel.value)
  | unary op operand _ => .mk (.unary op) [operand.tree]
  | decorator d => d.tree
  | gpuStruct s => s.tree
  | gpuField f => f.tree
  | gpuBinding b => b.tree
  | gpuFunction f => f.tree
  | gpuParam p => p.paramTree

theorem kind_tree (c : Construct) : c.tree.part.kind = c.kind := by
  cases c with
  | stmt s =>
    cases s with
    | simple s => cases s <;> rfl
    | _ => rfl
  | primary p => cases p <;> rfl
  | node n => cases n <;> rfl
  | block b => cases b; rfl
  | varDecl d => cases d; rfl
  | cond s => cases s; rfl
  | element e => cases e; rfl
  | nodeIf c => cases c; rfl
  | nodeFor l => cases l; rfl
  | expr e => cases e; rfl
  | template t => cases t; rfl
  | _ => rfl

theorem stmt_children (s : Stmt) : s.tree.children = [s.inner.tree] := by
  cases s with
  | simple s => cases s <;> rfl
  | _ => rfl

theorem primary_children (p : Primary) : p.tree.children = [p.inner.tree] := by
  cases p with
  | slice target low high s => cases low <;> cases high <;> rfl
  | _ => rfl

theorem node_children (n : Node) : n.tree.children = [n.inner.tree] := by cases n <;> rfl

theorem base_trees (b : Base) : b.trees = b.constructs.map tree := by cases b <;> rfl

theorem else_trees (e : Else) : e.trees = e.constructs.map tree := by cases e <;> rfl

theorem header_trees (h : LoopHeader) : h.trees = h.constructs.map tree := by
  cases h with
  | classic init test post => cases init <;> cases test <;> cases post <;> rfl
  | _ => rfl

theorem fragment_trees (fs : List Fragment) : Fragment.trees fs = (fs.flatMap Fragment.constructs).map tree := by
  induction fs with
  | nil => rfl
  | cons f fs ih =>
    cases f with
    | text s => exact ih
    | interp e => exact congrArg (e.tree :: ·) ih

theorem expr_trees (es : List Expr) : Expr.trees es = (es.map expr).map tree := by
  rw [exprTrees_eq, List.map_map]
  rfl

/-- Just under the tree of a construct stand the trees of what is written directly inside it. -/
theorem tree_children (c : Construct) : c.tree.children = c.children.map tree := by
  cases c with
  | stmt s => exact stmt_children s
  | primary p => exact primary_children p
  | node n => exact node_children n
  | block b =>
    obtain ⟨stmts, s⟩ := b
    simp only [tree, Block.tree, Tree.children, children, stmtTrees_eq, List.map_map]
    rfl
  | varDecl d =>
    obtain ⟨names, ty, values, s⟩ := d
    simp only [tree, VarDecl.tree, Tree.children, children, List.map_append, expr_trees]
    cases ty <;> rfl
  | cond s =>
    obtain ⟨init, test, body, otherwise, s⟩ := s
    cases init with
    | none => exact congrArg ([test.tree, body.tree] ++ ·) (else_trees otherwise)
    | some init => exact congrArg ([init.tree, test.tree, body.tree] ++ ·) (else_trees otherwise)
  | loop header inner s =>
    simp only [tree, Tree.children, children, List.map_append, header_trees]
    rfl
  | element e =>
    obtain ⟨tag, args, nodes, s⟩ := e
    simp only [tree, Element.tree, Tree.children, children, List.map_append, nodeTrees_eq, List.map_map]
    rfl
  | nodeIf c =>
    obtain ⟨test, body, otherwise, s⟩ := c
    simp only [tree, NodeIf.tree, Tree.children, children, List.map_append, List.map_cons, nodeTrees_eq, List.map_map]
    rfl
  | nodeFor l =>
    obtain ⟨key, value, iterable, nodes, s⟩ := l
    simp only [tree, NodeFor.tree, Tree.children, children, List.map_cons, nodeTrees_eq, List.map_map]
    rfl
  | expr e =>
    obtain ⟨head, tail, s⟩ := e
    simp only [tree, Expr.tree, Tree.children, children, List.map_cons, linkTrees_eq, List.map_map]
    rfl
  | template t =>
    obtain ⟨fragments, s⟩ := t
    exact fragment_trees fragments
  | gpuFunction f =>
    simp only [tree, GpuFunction.tree, Tree.children, children, List.map_append, List.map_map]
    cases f.result with
    | none => rfl
    | some r =>
      simp only [GpuResult.trees, GpuResult.constructs, Option.toList, List.flatMap_cons, List.flatMap_nil,
        List.append_nil, List.map_append, List.map_map]
      rfl
  | unit u =>
    simp only [children, List.map_append, List.map_map]
    rfl
  | component c =>
    simp only [children, List.map_append, List.map_map]
    rfl
  | func params results inner s =>
    simp only [children, List.map_append, List.map_map]
    rfl
  | gpuStruct s =>
    simp only [children, List.map_append, List.map_map]
    rfl
  | _ =>
    simp [children, tree, Tree.children, Function.comp_def, TypeDef.tree, Body.tree, Param.tree, Decorator.tree,
      GpuField.tree, GpuField.paramTree, GpuBinding.tree, Entry.argTree, typeTree, Tree.leaf, base_trees, exprTrees_eq,
      entryTrees_eq]

theorem subtrees_tree (c : Construct) : c.tree.subtrees = c.tree :: c.children.flatMap (·.tree.subtrees) := by
  have children := c.tree_children
  cases tree : c.tree with
  | mk part below =>
    rw [tree] at children
    rw [Tree.subtrees, subtreesEach_eq, show below = _ from children, List.flatMap_map]

theorem sizeOf_child {c d : Construct} (member : d ∈ c.children) : sizeOf d.tree < sizeOf c.tree := by
  have inside : d.tree ∈ c.tree.children := c.tree_children ▸ List.mem_map_of_mem member
  cases tree : c.tree with
  | mk part below =>
    rw [tree] at inside
    have smaller := List.sizeOf_lt_of_mem (show d.tree ∈ below from inside)
    simp only [Tree.mk.sizeOf_spec]
    omega

def at? : Construct → List Nat → Option Construct
  | c, [] => some c
  | c, i :: address => c.children[i]?.bind fun d => d.at? address

/-- What is visited in a construct at an address, with addresses from the outside. -/
def under (address : List Nat) (inner : List (List Nat × Construct)) : List (List Nat × Construct) :=
  inner.map fun (a, c) => (address ++ a, c)

/-- The construct and all that stands in it, each with its address. -/
def visits (c : Construct) : List (List Nat × Construct) :=
  ([], c) :: (List.finRange c.children.length).flatMap fun i => under [i.val] (visits (c.children.get i))
termination_by sizeOf c.tree
decreasing_by exact sizeOf_child (List.get_mem c.children i)

theorem mem_under_singleton {i j : Nat} {a : List Nat} {c : Construct} {inner : List (List Nat × Construct)} :
    (i :: a, c) ∈ under [j] inner ↔ i = j ∧ (a, c) ∈ inner := by
  constructor
  · intro member
    obtain ⟨⟨b, d⟩, found, same⟩ := List.mem_map.mp member
    cases same
    exact ⟨rfl, found⟩
  · rintro ⟨rfl, found⟩
    exact List.mem_map.mpr ⟨(a, c), found, rfl⟩

theorem under_append (a : List Nat) (left right : List (List Nat × Construct)) :
    under a (left ++ right) = under a left ++ under a right :=
  List.map_append

theorem under_under (a b : List Nat) (inner : List (List Nat × Construct)) :
    under a (under b inner) = under (a ++ b) inner := by
  simp [under, Function.comp_def]

theorem visits_trees (c : Construct) : c.visits.map (·.2.tree) = c.tree.subtrees := by
  induction c using visits.induct with
  | case1 c ih =>
    have each (i : Fin c.children.length) :
        (under [i.val] (c.children.get i).visits).map (·.2.tree) = (c.children.get i).tree.subtrees := by
      rw [under, List.map_map, ← ih i]
      rfl
    have whole : c.children.flatMap (·.tree.subtrees) =
        (List.finRange c.children.length).flatMap fun i => (c.children.get i).tree.subtrees := by
      conv_lhs => rw [← List.map_get_finRange c.children, List.flatMap_map]
    rw [visits, subtrees_tree, List.map_cons, List.map_flatMap, whole]
    simp only [each]

/-- A construct is visited at just the addresses at which it stands. -/
theorem mem_visits {c d : Construct} {address : List Nat} : (address, d) ∈ c.visits ↔ c.at? address = some d := by
  induction address generalizing c with
  | nil =>
    rw [visits, at?]
    simp [under, eq_comm]
  | cons i address ih =>
    rw [visits, at?, List.mem_cons, List.mem_flatMap, Option.bind_eq_some_iff]
    constructor
    · rintro (here | ⟨j, -, inside⟩)
      · cases here
      · obtain ⟨rfl, found⟩ := mem_under_singleton.mp inside
        exact ⟨c.children.get j, List.getElem?_eq_getElem j.isLt, ih.mp found⟩
    · rintro ⟨child, stands, found⟩
      obtain ⟨bound, rfl⟩ := List.getElem?_eq_some_iff.mp stands
      exact .inr ⟨⟨i, bound⟩, List.mem_finRange _, mem_under_singleton.mpr ⟨rfl, ih.mpr found⟩⟩

theorem addresses_under_singleton (i : Nat) (inner : List (List Nat × Construct)) :
    (under [i] inner).map (·.1) = (inner.map (·.1)).map (i :: ·) := by
  rw [under, List.map_map, List.map_map]
  rfl

/-- Addresses only grow: what contains a construct comes before it, and of two children the first with all inside it. -/
theorem visits_sorted (c : Construct) : (c.visits.map (·.1)).Pairwise (· < ·) := by
  induction c using visits.induct with
  | case1 c ih =>
    rw [visits, List.map_cons, List.map_flatMap, List.pairwise_cons, List.pairwise_flatMap]
    simp only [addresses_under_singleton, List.mem_flatMap, List.mem_map]
    refine ⟨?_, ?_, ?_⟩
    · rintro _ ⟨i, -, a, -, rfl⟩
      exact List.nil_lt_cons _ _
    · intro i _
      rw [List.pairwise_map]
      exact (ih i).imp fun less => List.cons_lt_cons_iff.mpr (.inr ⟨rfl, less⟩)
    · apply (List.pairwise_lt_finRange _).imp
      rintro i j less _ ⟨a, -, rfl⟩ _ ⟨b, -, rfl⟩
      exact List.cons_lt_cons_iff.mpr (.inl less)

theorem flatMap_eq_of_mem {α β : Type} (f : α → List β) {x : α} {xs : List α} (member : x ∈ xs) :
    ∃ left right, xs.flatMap f = left ++ f x ++ right := by
  obtain ⟨before, after, rfl⟩ := List.append_of_mem member
  exact ⟨before.flatMap f, after.flatMap f, by simp⟩

/-- The visits of a construct are the part of the visits of the whole that stands at its address. -/
theorem visits_split {root c : Construct} {address : List Nat} (found : root.at? address = some c) :
    ∃ before after, root.visits = before ++ under address c.visits ++ after := by
  induction address generalizing root with
  | nil =>
    cases found
    exact ⟨[], [], by simp [under]⟩
  | cons i address ih =>
    obtain ⟨child, stands, below⟩ := Option.bind_eq_some_iff.mp found
    obtain ⟨before, after, split⟩ := ih below
    obtain ⟨bound, rfl⟩ := List.getElem?_eq_some_iff.mp stands
    have inside : under [i] (root.children.get ⟨i, bound⟩).visits =
        under [i] before ++ under (i :: address) c.visits ++ under [i] after := by
      rw [List.get_eq_getElem, split, under_append, under_append, under_under]
      rfl
    obtain ⟨left, right, parted⟩ := flatMap_eq_of_mem (fun j => under [j.val] (root.children.get j).visits)
      (List.mem_finRange ⟨i, bound⟩)
    rw [visits, parted, inside]
    exact ⟨([], root) :: (left ++ under [i] before), under [i] after ++ right, by simp⟩

end Construct

/-- The trees inside the tree of a unit are those of the constructs in the unit: each once, at its address, what
contains a construct before it and the children of one in their order, and so for the constructs of each kind. What is
visited from a construct alone is the construct and then what is visited from its children, one after the other, and it
is the part of the whole that stands at its address. -/
theorem unit_visits (u : SourceUnit) :
    u.tree.subtrees = (Construct.unit u).visits.map (·.2.tree) ∧
    (∀ kind, u.tree.ofKind kind =
      ((Construct.unit u).visits.filter (·.2.kind == kind)).map (·.2.tree)) ∧
    (∀ address c, (address, c) ∈ (Construct.unit u).visits ↔ (Construct.unit u).at? address = some c) ∧
    ((Construct.unit u).visits.map (·.1)).Pairwise (· < ·) ∧
    ∀ address c, (Construct.unit u).at? address = some c →
      c.tree.subtrees = c.visits.map (·.2.tree) ∧
      c.tree.subtrees = c.tree :: c.children.flatMap (·.tree.subtrees) ∧
      ∃ before after, (Construct.unit u).visits = before ++ Construct.under address c.visits ++ after := by
  have all : u.tree.subtrees = (Construct.unit u).visits.map (·.2.tree) := (Construct.unit u).visits_trees.symm
  refine ⟨all, ?_, fun _ _ => Construct.mem_visits, (Construct.unit u).visits_sorted, ?_⟩
  · intro kind
    rw [Tree.ofKind, all, List.filter_map]
    simp only [Function.comp_def, Construct.kind_tree]
  · intro address c found
    exact ⟨c.visits_trees.symm, c.subtrees_tree, Construct.visits_split found⟩

end ViewLang
