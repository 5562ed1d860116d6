import Mathlib.Logic.Relation
import ViewLang.Syntax.Tree

namespace ViewLang

inductive Item
  | body (b : Body)
  | expr (e : Expr)
  | operand (p : Primary)
  | template (t : Template)
  | block (b : Block)
  | stmt (s : Stmt)
  | simple (s : SimpleStmt)
  | var (d : VarDecl)
  | cond (s : IfStmt)
  | node (n : Node)
  | element (e : Element)
  | arg (a : Entry)
  | nodeIf (c : NodeIf)
  | nodeFor (l : NodeFor)

def Base.items : Base → List Item
  | .name _ => []
  | .operand p => [.operand p]

def Fragment.items : Fragment → List Item
  | .text _ => []
  | .interp e => [.expr e]

def Else.items : Else → List Item
  | .none => []
  | .block b => [.block b]
  | .chain s => [.cond s]

def Primary.items : Primary → List Item
  | .int _ => []
  | .float _ => []
  | .string _ => []
  | .template t => [.template t]
  | .composite _ entries _ => entries.map (.expr ·.value)
  | .make _ args _ => args.map .expr
  | .index target i _ => [.operand target, .expr i]
  | .slice target low high _ => .operand target :: (low.toList.map .expr ++ high.toList.map .expr)
  | .select base _ _ => base.items
  | .call base _ args _ => base.items ++ args.map .expr
  | .func _ _ body _ => [.block body]
  | .receive _ _ => []
  | .unary _ operand _ => [.operand operand]
  | .paren inner => [.expr inner]

def SimpleStmt.items : SimpleStmt → List Item
  | .exprs targets _ => targets.map .expr
  | .assign targets _ values _ => targets.map .expr ++ values.map .expr
  | .send channel value _ => [.expr channel, .expr value]

def LoopHeader.items : LoopHeader → List Item
  | .infinite => []
  | .cond e => [.expr e]
  | .classic init test post => init.toList.map .simple ++ test.toList.map .expr ++ post.toList.map .simple
  | .range _ _ iterable => [.expr iterable]

def Stmt.items : Stmt → List Item
  | .var d => [.var d]
  | .simple s => s.items
  | .ret values _ => values.map .expr
  | .cond s => [.cond s]
  | .loop header body _ => header.items ++ [.block body]
  | .branch _ _ => []

def Node.items : Node → List Item
  | .element e => [.element e]
  | .text _ => []
  | .template t => [.template t]
  | .cond c => [.nodeIf c]
  | .loop l => [.nodeFor l]

namespace Item

def children : Item → List Item
  | body b => b.vars.map var ++ b.stmts.map stmt ++ b.nodes.map node
  | expr e => operand e.head :: e.tail.map (operand ·.operand)
  | operand p => p.items
  | template t => t.fragments.flatMap Fragment.items
  | block b => b.stmts.map stmt
  | stmt s => s.items
  | simple s => s.items
  | var d => d.values.map expr
  | cond s => s.init.toList.map simple ++ [expr s.cond, block s.body] ++ s.otherwise.items
  | node n => n.items
  | element e => e.args.map arg ++ e.children.map node
  | arg a => [expr a.value]
  | nodeIf c => expr c.cond :: (c.body.map node ++ c.otherwise.map node)
  | nodeFor l => expr l.iterable :: l.children.map node

def Inside (whole part : Item) : Prop := Relation.ReflTransGen (fun outer inner => inner ∈ outer.children) whole part

end Item

def Param.parts (p : Param) : List Part := [.param p.name.value p.variadic p.ty.value, .type p.ty.value]

def Primary.parts : Primary → List Part
  | .int text => [.int text.value]
  | .float text => [.float text.value]
  | .string text => [.string text.value]
  | .template _ => [.templateLiteral]
  | .composite ty _ _ => [.composite ty.value, .type ty.value]
  | .make ty _ _ => [.make ty.value, .type ty.value]
  | .index _ _ _ => [.index]
  | .slice _ _ _ _ => [.index]
  | .select base path _ => [.select (base.qualified? path)]
  | .call base path _ _ => [.call (base.qualified? path)]
  | .func params results _ _ => .func :: (params.flatMap Param.parts ++ results.map (.type ·.value))
  | .receive channel _ => [.receive channel.value]
  | .unary op _ _ => [.unary op]
  | .paren _ => []

def SimpleStmt.parts : SimpleStmt → List Part
  | .exprs _ _ => [.stmt, .exprs]
  | .assign _ op _ _ => [.stmt, .assign op.value]
  | .send _ _ _ => [.stmt, .send]

def Stmt.parts : Stmt → List Part
  | .var _ => [.stmt]
  | .simple s => s.parts
  | .ret _ _ => [.stmt, .ret]
  | .cond _ => [.stmt]
  | .loop _ _ _ => [.stmt, .loop]
  | .branch kind _ => [.stmt, .branch kind]

def Node.parts : Node → List Part
  | .text t => [.text t.value]
  | _ => []

namespace Item

def parts : Item → List Part
  | body _ => [.body]
  | expr e => [.expr (e.tail.map (·.op.value))]
  | operand p => .primary :: p.parts
  | template t => [.template t.fragments.length (t.received.map (·.value))]
  | block _ => [.block]
  | stmt s => s.parts
  | simple s => s.parts
  | var d => .varDecl (d.names.map (·.value)) (d.ty.map (·.value)) :: (d.ty.map (.type ·.value)).toList
  | cond _ => [.cond]
  | node n => .node :: n.parts
  | element e => [.element e.tag.value]
  | arg a => [.elementArg (a.key.map (·.value))]
  | nodeIf _ => [.nodeIf]
  | nodeFor _ => [.nodeFor]

def tree : Item → Tree
  | body b => b.tree
  | expr e => e.tree
  | operand p => p.tree
  | template t => t.tree
  | block b => b.tree
  | stmt s => s.tree
  | simple s => s.tree
  | var d => d.tree
  | cond s => s.tree
  | node n => n.tree
  | element e => e.tree
  | arg a => a.argTree
  | nodeIf c => c.tree
  | nodeFor l => l.tree

end Item

def partsEach (ts : List Tree) : List Part := ts.flatMap Tree.parts

theorem subtreesEach_eq (ts : List Tree) : Tree.subtreesEach ts = ts.flatMap Tree.subtrees := by
  induction ts with
  | nil => rfl
  | cons t ts ih => rw [Tree.subtreesEach, ih, List.flatMap_cons]

@[simp] theorem parts_mk (p : Part) (ts : List Tree) : (Tree.mk p ts).parts = p :: partsEach ts := by
  rw [Tree.parts, Tree.subtrees, subtreesEach_eq, List.map_cons, List.map_flatMap]
  rfl

@[simp] theorem parts_leaf (p : Part) : (Tree.leaf p).parts = [p] := parts_mk p []

@[simp] theorem partsEach_nil : partsEach [] = [] := rfl

@[simp] theorem partsEach_cons (t : Tree) (ts : List Tree) : partsEach (t :: ts) = t.parts ++ partsEach ts :=
  List.flatMap_cons

@[simp] theorem partsEach_append (ts us : List Tree) : partsEach (ts ++ us) = partsEach ts ++ partsEach us :=
  List.flatMap_append

theorem partsEach_map {α : Type} (f : α → Tree) (as : List α) :
    partsEach (as.map f) = as.flatMap fun a => (f a).parts :=
  List.flatMap_map f Tree.parts as

theorem linkTrees_eq (ls : List Link) : Link.trees ls = ls.map (·.operand.tree) := by
  induction ls with
  | nil => rfl
  | cons l ls ih =>
    obtain ⟨op, operand⟩ := l
    rw [Link.trees, ih, List.map_cons]

theorem exprTrees_eq (es : List Expr) : Expr.trees es = es.map Expr.tree := by
  induction es with
  | nil => rfl
  | cons e es ih => rw [Expr.trees, ih, List.map_cons]

theorem entryTrees_eq (es : List Entry) : Entry.trees es = es.map (·.value.tree) := by
  induction es with
  | nil => rfl
  | cons e es ih =>
    obtain ⟨key, value⟩ := e
    rw [Entry.trees, ih, List.map_cons]

theorem stmtTrees_eq (ss : List Stmt) : Stmt.trees ss = ss.map Stmt.tree := by
  induction ss with
  | nil => rfl
  | cons s ss ih => rw [Stmt.trees, ih, List.map_cons]

theorem nodeTrees_eq (ns : List Node) : Node.trees ns = ns.map Node.tree := by
  induction ns with
  | nil => rfl
  | cons n ns ih => rw [Node.trees, ih, List.map_cons]

def partsOf (items : List Item) : List Part := items.flatMap (·.tree.parts)

@[simp] theorem partsOf_nil : partsOf [] = [] := rfl

@[simp] theorem partsOf_cons (item : Item) (items : List Item) :
    partsOf (item :: items) = item.tree.parts ++ partsOf items :=
  List.flatMap_cons

@[simp] theorem partsOf_append (left right : List Item) : partsOf (left ++ right) = partsOf left ++ partsOf right :=
  List.flatMap_append

theorem partsOf_map {α : Type} (f : α → Item) (as : List α) :
    partsOf (as.map f) = as.flatMap fun a => (f a).tree.parts :=
  List.flatMap_map f _ as

theorem fragmentTrees_parts (fs : List Fragment) :
    partsEach (Fragment.trees fs) = partsOf (fs.flatMap Fragment.items) := by
  induction fs with
  | nil => rfl
  | cons f fs ih =>
    cases f with
    | text s => rw [Fragment.trees, ih, List.flatMap_cons, Fragment.items, List.nil_append]
    | interp e =>
      rw [Fragment.trees, partsEach_cons, ih, List.flatMap_cons, Fragment.items, List.singleton_append, partsOf_cons]
      rfl

theorem baseTrees_parts (b : Base) : partsEach b.trees = partsOf b.items := by
  cases b with
  | name n => rfl
  | operand p =>
    rw [Base.trees, Base.items, partsEach_cons, partsOf_cons]
    rfl

theorem paramTrees_parts (ps : List Param) : partsEach (ps.map Param.tree) = ps.flatMap Param.parts := by
  rw [partsEach_map]
  refine congrArg (List.flatMap · ps) (funext fun p => ?_)
  rw [Param.tree, typeTree, parts_mk, partsEach_cons, parts_leaf]
  rfl

theorem typeTrees_parts (ts : List (Located TypeExpr)) : partsEach (ts.map typeTree) = ts.map (.type ·.value) := by
  induction ts with
  | nil => rfl
  | cons t ts ih => rw [List.map_cons, partsEach_cons, ih, typeTree, parts_leaf, List.map_cons, List.singleton_append]

theorem operand_parts (p : Primary) : p.tree.parts = .primary :: p.parts ++ partsOf p.items := by
  cases p with
  | slice target low high span =>
    cases low <;> cases high <;> simp [Primary.tree, Primary.parts, Primary.items, Item.tree]
  | func params results body span =>
    simp [Primary.tree, Primary.parts, Primary.items, Item.tree, paramTrees_parts, typeTrees_parts]
  | _ =>
    simp [Primary.tree, Primary.parts, Primary.items, Item.tree, typeTree, exprTrees_eq, entryTrees_eq,
      baseTrees_parts, partsEach_map, partsOf_map]

theorem simple_parts (s : SimpleStmt) : s.tree.parts = s.parts ++ partsOf s.items := by
  cases s <;> simp [SimpleStmt.tree, SimpleStmt.parts, SimpleStmt.items, Item.tree, exprTrees_eq, partsEach_map,
    partsOf_map]

theorem headerTrees_parts (h : LoopHeader) : partsEach h.trees = partsOf h.items := by
  cases h with
  | classic init test post =>
    cases init <;> cases test <;> cases post <;> simp [LoopHeader.trees, LoopHeader.items, Item.tree]
  | _ => simp [LoopHeader.trees, LoopHeader.items, Item.tree]

theorem elseTrees_parts (s : Else) : partsEach s.trees = partsOf s.items := by
  cases s <;> simp [Else.trees, Else.items, Item.tree]

theorem stmt_parts (s : Stmt) : s.tree.parts = s.parts ++ partsOf s.items := by
  cases s with
  | simple s => exact simple_parts s
  | _ =>
    simp [Stmt.tree, Stmt.parts, Stmt.items, Item.tree, exprTrees_eq, headerTrees_parts, partsEach_map, partsOf_map]

theorem node_parts (n : Node) : n.tree.parts = .node :: n.parts ++ partsOf n.items := by
  cases n <;> simp [Node.tree, Node.parts, Node.items, Item.tree]

/-- The parts of a piece are its own, then those of what stands inside it. -/
theorem Item.tree_parts (item : Item) : item.tree.parts = item.parts ++ partsOf item.children := by
  cases item with
  | body b => simp [tree, parts, children, Body.tree, partsEach_map, partsOf_map]
  | expr e =>
    obtain ⟨head, tail, span⟩ := e
    simp [tree, parts, children, Expr.tree, linkTrees_eq, partsEach_map, partsOf_map]
  | operand p => exact operand_parts p
  | template t =>
    obtain ⟨fs, span⟩ := t
    simp [tree, parts, children, Template.tree, fragmentTrees_parts]
  | block b =>
    obtain ⟨ss, span⟩ := b
    simp [tree, parts, children, Block.tree, stmtTrees_eq, partsEach_map, partsOf_map]
  | stmt s => exact stmt_parts s
  | simple s => exact simple_parts s
  | var d =>
    obtain ⟨names, ty, values, span⟩ := d
    cases ty <;> simp [tree, parts, children, VarDecl.tree, typeTree, exprTrees_eq, partsEach_map, partsOf_map]
  | cond s =>
    obtain ⟨init, test, body, otherwise, span⟩ := s
    cases init <;> simp [tree, parts, children, IfStmt.tree, elseTrees_parts]
  | node n => exact node_parts n
  | element e =>
    obtain ⟨tag, args, nodes, span⟩ := e
    simp [tree, parts, children, Element.tree, nodeTrees_eq, partsEach_map, partsOf_map]
  | arg a => simp [tree, parts, children, Entry.argTree]
  | nodeIf c =>
    obtain ⟨test, body, otherwise, span⟩ := c
    simp [tree, parts, children, NodeIf.tree, nodeTrees_eq, partsEach_map, partsOf_map]
  | nodeFor l =>
    obtain ⟨key, value, iterable, nodes, span⟩ := l
    simp [tree, parts, children, NodeFor.tree, nodeTrees_eq, partsEach_map, partsOf_map]

namespace Item

theorem parts_ne_nil (item : Item) : item.parts ≠ [] := by
  cases item with
  | stmt s =>
    cases s with
    | simple s => cases s <;> exact List.cons_ne_nil _ _
    | _ => exact List.cons_ne_nil _ _
  | simple s => cases s <;> exact List.cons_ne_nil _ _
  | _ => exact List.cons_ne_nil _ _

/-- What stands inside a piece has fewer parts than the piece. -/
theorem length_children {item child : Item} (member : child ∈ item.children) :
    child.tree.parts.length < item.tree.parts.length := by
  obtain ⟨before, behind, split⟩ := List.append_of_mem member
  have own := List.length_pos_iff.mpr item.parts_ne_nil
  rw [item.tree_parts, split, partsOf_append, partsOf_cons]
  simp only [List.length_append]
  omega

/-- The parts of a tree are those of the pieces inside it, each by itself. -/
theorem mem_tree_parts {part : Part} (item : Item) :
    part ∈ item.tree.parts ↔ ∃ inner, Inside item inner ∧ part ∈ inner.parts := by
  constructor
  · intro member
    rw [item.tree_parts] at member
    rcases List.mem_append.mp member with own | below
    · exact ⟨item, .refl, own⟩
    · obtain ⟨child, inside, deeper⟩ := List.mem_flatMap.mp below
      have := length_children inside
      obtain ⟨inner, within, own⟩ := (mem_tree_parts child).mp deeper
      exact ⟨inner, .head inside within, own⟩
  · rintro ⟨inner, within, own⟩
    induction within using Relation.ReflTransGen.head_induction_on with
    | refl =>
      rw [inner.tree_parts]
      exact List.mem_append_left _ own
    | head inside _ deeper =>
      rw [tree_parts]
      exact List.mem_append_right _ (List.mem_flatMap.mpr ⟨_, inside, deeper⟩)
termination_by item.tree.parts.length

/-- Only a template by itself has the part of a template. -/
theorem template_of_mem_parts {item : Item} {fragments : Nat} {received : List String}
    (member : .template fragments received ∈ item.parts) :
    ∃ t, item = .template t ∧ received = t.received.map (·.value) := by
  cases item with
  | template t =>
    cases List.mem_singleton.mp member
    exact ⟨t, rfl, rfl⟩
  | operand p => cases p <;> simp [parts, Primary.parts, Param.parts] at member
  | stmt s =>
    cases s with
    | simple s => cases s <;> simp [parts, Stmt.parts, SimpleStmt.parts] at member
    | _ => simp [parts, Stmt.parts] at member
  | simple s => cases s <;> simp [parts, SimpleStmt.parts] at member
  | node n => cases n <;> simp [parts, Node.parts] at member
  | _ => simp [parts] at member

end Item

/-- The template interpolates what was received from the channel: `{<-x}`. -/
def Template.Interpolates (t : Template) (x : String) : Prop :=
  ∃ channel received whole, .interp ⟨.receive channel received, [], whole⟩ ∈ t.fragments ∧ channel.value = x

theorem Template.mem_received {t : Template} {x : String} : x ∈ t.received.map (·.value) ↔ t.Interpolates x := by
  simp only [Template.received, List.mem_map, List.mem_filterMap, Interpolates]
  constructor
  · rintro ⟨channel, ⟨fragment, inside, found⟩, rfl⟩
    cases fragment with
    | text s => cases found
    | interp e =>
      obtain ⟨head, tail, whole⟩ := e
      cases tail with
      | cons l ls => cases found
      | nil =>
        cases head with
        | receive ch received =>
          cases found
          exact ⟨channel, received, whole, inside, rfl⟩
        | _ => cases found
  · rintro ⟨channel, received, whole, inside, rfl⟩
    exact ⟨channel, ⟨_, inside, rfl⟩, rfl⟩

/-- The channels collected from a body are those that some template inside it interpolates directly. -/
theorem Body.mem_received {b : Body} {x : String} :
    x ∈ b.received ↔ ∃ t, Item.Inside (.body b) (.template t) ∧ t.Interpolates x := by
  rw [Body.received, List.mem_flatMap]
  constructor
  · rintro ⟨part, member, heard⟩
    obtain ⟨item, within, own⟩ := (Item.mem_tree_parts (.body b)).mp member
    cases part with
    | template fragments received =>
      obtain ⟨t, rfl, rfl⟩ := Item.template_of_mem_parts own
      exact ⟨t, within, Template.mem_received.mp heard⟩
    | _ => cases heard
  · rintro ⟨t, within, heard⟩
    refine ⟨.template t.fragments.length (t.received.map (·.value)), ?_, Template.mem_received.mpr heard⟩
    exact (Item.mem_tree_parts (.body b)).mpr ⟨_, within, List.mem_singleton_self _⟩

end ViewLang
