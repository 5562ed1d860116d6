import ViewLang.Proofs.Syntax.Traversal

namespace ViewLang.Construct

/-- `P` holds of the construct and of all that stands in it. -/
def Throughout (P : Construct → Prop) (c : Construct) : Prop := ∀ address d, c.at? address = some d → P d

variable {P Q : Construct → Prop} {c : Construct}

theorem throughout_iff : c.Throughout P ↔ P c ∧ ∀ d ∈ c.children, d.Throughout P := by
  constructor
  · intro all
    refine ⟨all [] c rfl, ?_⟩
    intro d member address e found
    obtain ⟨i, bound, rfl⟩ := List.getElem_of_mem member
    apply all (i :: address) e
    rw [at?, List.getElem?_eq_getElem bound, Option.bind_some, found]
  · rintro ⟨here, below⟩ address d found
    cases address with
    | nil =>
      cases found
      exact here
    | cons i address =>
      obtain ⟨child, stands, found⟩ := Option.bind_eq_some_iff.mp found
      exact below child (List.mem_of_getElem? stands) address d found

theorem Throughout.mono (all : c.Throughout P) (weaker : ∀ d, P d → Q d) : c.Throughout Q :=
  fun address d found => weaker d (all address d found)

theorem Throughout.here (all : c.Throughout P) : P c := (throughout_iff.mp all).1

theorem Throughout.at {d : Construct} {address : List Nat} (all : c.Throughout P) (found : c.at? address = some d) :
    d.Throughout P := by
  induction address generalizing c with
  | nil =>
    cases found
    exact all
  | cons i address ih =>
    obtain ⟨child, stands, found⟩ := Option.bind_eq_some_iff.mp found
    exact ih ((throughout_iff.mp all).2 child (List.mem_of_getElem? stands)) found

theorem throughout_leaf (leaf : c.children = []) : c.Throughout P ↔ P c := by
  rw [throughout_iff, leaf]
  simp

@[simp] theorem throughout_type {ty : Located TypeExpr} : (type ty).Throughout P ↔ P (type ty) := throughout_leaf rfl

theorem throughout_param {p : Param} : (param p).Throughout P ↔ P (param p) ∧ P (type p.ty) := by
  rw [throughout_iff]
  simp

theorem throughout_field {f : Field} : (field f).Throughout P ↔ P (field f) ∧ P (type f.ty) := by
  rw [throughout_iff]
  simp

theorem throughout_typeDef {d : TypeDef} :
    (typeDef d).Throughout P ↔ P (typeDef d) ∧ ∀ f ∈ d.fields, (field f).Throughout P := by
  rw [throughout_iff]
  simp

theorem throughout_expr {e : Expr} : (expr e).Throughout P ↔
    P (expr e) ∧ (primary e.head).Throughout P ∧ ∀ l ∈ e.tail, (primary l.operand).Throughout P := by
  rw [throughout_iff]
  simp

theorem throughout_primary {p : Primary} : (primary p).Throughout P ↔ P (primary p) ∧ p.inner.Throughout P := by
  rw [throughout_iff]
  simp

theorem throughout_template {t : Template} : (template t).Throughout P ↔
    P (template t) ∧ ∀ f ∈ t.fragments, ∀ d ∈ f.constructs, d.Throughout P := by
  rw [throughout_iff]
  simp only [children, List.forall_mem_flatMap]

theorem throughout_templateLiteral {t : Template} :
    (templateLiteral t).Throughout P ↔ P (templateLiteral t) ∧ (template t).Throughout P := by
  rw [throughout_iff]
  simp

theorem throughout_composite {ty : Located TypeExpr} {entries : List Entry} {s : Span} :
    (composite ty entries s).Throughout P ↔
      P (composite ty entries s) ∧ P (type ty) ∧ ∀ e ∈ entries, (expr e.value).Throughout P := by
  rw [throughout_iff]
  simp

theorem throughout_make {ty : Located TypeExpr} {args : List Expr} {s : Span} :
    (make ty args s).Throughout P ↔ P (make ty args s) ∧ P (type ty) ∧ ∀ e ∈ args, (expr e).Throughout P := by
  rw [throughout_iff]
  simp

theorem throughout_index {target : Primary} {i : Expr} {s : Span} : (index target i s).Throughout P ↔
    P (index target i s) ∧ (primary target).Throughout P ∧ (expr i).Throughout P := by
  rw [throughout_iff]
  simp

theorem throughout_slice {target : Primary} {low high : Option Expr} {s : Span} :
    (slice target low high s).Throughout P ↔ P (slice target low high s) ∧ (primary target).Throughout P ∧
      (∀ e ∈ low, (expr e).Throughout P) ∧ ∀ e ∈ high, (expr e).Throughout P := by
  rw [throughout_iff]
  simp only [children, List.forall_mem_cons, List.forall_mem_append, List.forall_mem_map, Option.mem_toList,
    Option.mem_def]

theorem throughout_select {b : Base} {path : List Name} {s : Span} : (select b path s).Throughout P ↔
    P (select b path s) ∧ ∀ d ∈ b.constructs, d.Throughout P := throughout_iff

theorem throughout_call {b : Base} {path : List Name} {args : List Expr} {s : Span} :
    (call b path args s).Throughout P ↔ P (call b path args s) ∧ (∀ d ∈ b.constructs, d.Throughout P) ∧
      ∀ e ∈ args, (expr e).Throughout P := by
  rw [throughout_iff]
  simp only [children, List.forall_mem_append, List.forall_mem_map]

theorem throughout_func {params : List Param} {results : List (Located TypeExpr)} {body : Block} {s : Span} :
    (func params results body s).Throughout P ↔ P (func params results body s) ∧
      (∀ p ∈ params, (param p).Throughout P) ∧ (∀ t ∈ results, P (type t)) ∧ (block body).Throughout P := by
  rw [throughout_iff]
  simp only [children, List.forall_mem_append, List.forall_mem_map, List.forall_mem_singleton, throughout_type,
    and_assoc]

theorem throughout_unary {op : UnaryOp} {operand : Primary} {s : Span} : (unary op operand s).Throughout P ↔
    P (unary op operand s) ∧ (primary operand).Throughout P := by
  rw [throughout_iff]
  simp

theorem throughout_block {b : Block} :
    (block b).Throughout P ↔ P (block b) ∧ ∀ s ∈ b.stmts, (stmt s).Throughout P := by
  rw [throughout_iff]
  simp

theorem throughout_stmt {s : Stmt} : (stmt s).Throughout P ↔ P (stmt s) ∧ s.inner.Throughout P := by
  rw [throughout_iff]
  simp

theorem throughout_varDecl {d : VarDecl} : (varDecl d).Throughout P ↔
    P (varDecl d) ∧ (∀ t ∈ d.ty, P (type t)) ∧ ∀ e ∈ d.values, (expr e).Throughout P := by
  rw [throughout_iff]
  simp only [children, List.forall_mem_append, List.forall_mem_map, Option.mem_toList, Option.mem_def, throughout_type]

theorem throughout_exprs {targets : List Expr} {s : Span} : (exprs targets s).Throughout P ↔
    P (exprs targets s) ∧ ∀ e ∈ targets, (expr e).Throughout P := by
  rw [throughout_iff]
  simp

theorem throughout_assign {targets values : List Expr} {op : Located AssignOp} {s : Span} :
    (assign targets op values s).Throughout P ↔ P (assign targets op values s) ∧
      (∀ e ∈ targets, (expr e).Throughout P) ∧ ∀ e ∈ values, (expr e).Throughout P := by
  rw [throughout_iff]
  simp only [children, List.forall_mem_append, List.forall_mem_map]

theorem throughout_send {channel value : Expr} {s : Span} : (send channel value s).Throughout P ↔
    P (send channel value s) ∧ (expr channel).Throughout P ∧ (expr value).Throughout P := by
  rw [throughout_iff]
  simp

theorem throughout_ret {values : List Expr} {s : Span} :
    (ret values s).Throughout P ↔ P (ret values s) ∧ ∀ e ∈ values, (expr e).Throughout P := by
  rw [throughout_iff]
  simp

theorem throughout_cond {s : IfStmt} : (cond s).Throughout P ↔
    P (cond s) ∧ (∀ init ∈ s.init, (stmt (.simple init)).Throughout P) ∧ (expr s.cond).Throughout P ∧
      (block s.body).Throughout P ∧ ∀ d ∈ s.otherwise.constructs, d.Throughout P := by
  rw [throughout_iff]
  simp only [children, List.forall_mem_append, List.forall_mem_map, List.forall_mem_cons, Option.mem_toList,
    Option.mem_def, List.not_mem_nil, false_imp_iff, implies_true, and_true, and_assoc]

theorem throughout_loop {header : LoopHeader} {body : Block} {s : Span} : (loop header body s).Throughout P ↔
    P (loop header body s) ∧ (∀ d ∈ header.constructs, d.Throughout P) ∧ (block body).Throughout P := by
  rw [throughout_iff]
  simp only [children, List.forall_mem_append, List.forall_mem_singleton]

theorem throughout_node {n : Node} : (node n).Throughout P ↔ P (node n) ∧ n.inner.Throughout P := by
  rw [throughout_iff]
  simp

theorem throughout_elementArg {a : Entry} :
    (elementArg a).Throughout P ↔ P (elementArg a) ∧ (expr a.value).Throughout P := by
  rw [throughout_iff]
  simp

theorem throughout_element {e : Element} : (element e).Throughout P ↔
    P (element e) ∧ (∀ a ∈ e.args, (elementArg a).Throughout P) ∧ ∀ n ∈ e.children, (node n).Throughout P := by
  rw [throughout_iff]
  simp only [children, List.forall_mem_append, List.forall_mem_map]

theorem throughout_nodeIf {i : NodeIf} : (nodeIf i).Throughout P ↔
    P (nodeIf i) ∧ (expr i.cond).Throughout P ∧ (∀ n ∈ i.body, (node n).Throughout P) ∧
      ∀ n ∈ i.otherwise, (node n).Throughout P := by
  rw [throughout_iff]
  simp only [children, List.forall_mem_cons, List.forall_mem_append, List.forall_mem_map]

theorem throughout_nodeFor {l : NodeFor} : (nodeFor l).Throughout P ↔
    P (nodeFor l) ∧ (expr l.iterable).Throughout P ∧ ∀ n ∈ l.children, (node n).Throughout P := by
  rw [throughout_iff]
  simp only [children, List.forall_mem_cons, List.forall_mem_map]

theorem throughout_body {b : Body} : (body b).Throughout P ↔
    P (body b) ∧ (∀ d ∈ b.vars, (varDecl d).Throughout P) ∧ (∀ s ∈ b.stmts, (stmt s).Throughout P) ∧
      ∀ n ∈ b.nodes, (node n).Throughout P := by
  rw [throughout_iff]
  simp only [children, List.forall_mem_append, List.forall_mem_map, and_assoc]

theorem throughout_component {k : Component} : (component k).Throughout P ↔
    P (component k) ∧ (∀ p ∈ k.params, (param p).Throughout P) ∧ (∀ t ∈ k.results, P (type t)) ∧
      (body k.body).Throughout P := by
  rw [throughout_iff]
  simp only [children, List.forall_mem_append, List.forall_mem_map, List.forall_mem_singleton, throughout_type,
    and_assoc]

theorem throughout_decorator {d : Decorator} :
    (decorator d).Throughout P ↔ P (decorator d) ∧ ∀ e ∈ d.args, (expr e).Throughout P := by
  rw [throughout_iff]
  simp

theorem throughout_gpuField {f : GpuField} : (gpuField f).Throughout P ↔
    P (gpuField f) ∧ (∀ d ∈ f.decorators, (decorator d).Throughout P) ∧ P (type f.ty) := by
  rw [throughout_iff]
  simp only [children, List.forall_mem_append, List.forall_mem_map, List.forall_mem_singleton, throughout_type]

theorem throughout_gpuParam {p : GpuField} : (gpuParam p).Throughout P ↔
    P (gpuParam p) ∧ (∀ d ∈ p.decorators, (decorator d).Throughout P) ∧ P (type p.ty) := by
  rw [throughout_iff]
  simp only [children, List.forall_mem_append, List.forall_mem_map, List.forall_mem_singleton, throughout_type]

theorem throughout_gpuStruct {s : GpuStruct} : (gpuStruct s).Throughout P ↔
    P (gpuStruct s) ∧ (∀ d ∈ s.decorators, (decorator d).Throughout P) ∧
      ∀ f ∈ s.fields, (gpuField f).Throughout P := by
  rw [throughout_iff]
  simp only [children, List.forall_mem_append, List.forall_mem_map]

theorem throughout_gpuBinding {b : GpuBinding} : (gpuBinding b).Throughout P ↔
    P (gpuBinding b) ∧ (∀ d ∈ b.decorators, (decorator d).Throughout P) ∧ P (type b.ty) := by
  rw [throughout_iff]
  simp only [children, List.forall_mem_append, List.forall_mem_map, List.forall_mem_singleton, throughout_type]

theorem throughout_gpuFunction {f : GpuFunction} : (gpuFunction f).Throughout P ↔
    P (gpuFunction f) ∧ (∀ d ∈ f.decorators, (decorator d).Throughout P) ∧
      (∀ p ∈ f.params, (gpuParam p).Throughout P) ∧
      (∀ r ∈ f.result, (∀ d ∈ r.decorators, (decorator d).Throughout P) ∧ P (type r.ty)) ∧
      (block f.body).Throughout P := by
  rw [throughout_iff]
  simp only [children, GpuResult.constructs, List.forall_mem_append, List.forall_mem_map, List.forall_mem_flatMap,
    List.forall_mem_singleton, Option.mem_toList, Option.mem_def, throughout_type, and_assoc]

theorem throughout_unit {u : SourceUnit} : (unit u).Throughout P ↔
    P (unit u) ∧ (∀ n ∈ u.imports, P (import_ n)) ∧ (∀ d ∈ u.types, (typeDef d).Throughout P) ∧
      (∀ k ∈ u.components, (component k).Throughout P) ∧ (∀ s ∈ u.gpuStructs, (gpuStruct s).Throughout P) ∧
      (∀ b ∈ u.gpuBindings, (gpuBinding b).Throughout P) ∧ ∀ f ∈ u.gpuFunctions, (gpuFunction f).Throughout P := by
  rw [throughout_iff]
  simp only [children, List.forall_mem_append, List.forall_mem_map, throughout_leaf (c := import_ _) rfl, and_assoc]

end ViewLang.Construct
