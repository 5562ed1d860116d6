import Mathlib.Logic.Relation
import ViewLang.Syntax.Expr

namespace ViewLang

inductive Phrase
  | expr (e : Expr)
  | operator (op : BinaryOp)
  | operand (p : Primary)
  | block (b : Block)
  | stmt (s : Stmt)
  | simple (s : SimpleStmt)
  | cond (s : IfStmt)
  | header (h : LoopHeader)

def Link.phrases (l : Link) : List Phrase := [.operator l.op.value, .operand l.operand]

def Base.phrases : Base → List Phrase
  | .name _ => []
  | .operand p => [.operand p]

def Fragment.phrases : Fragment → List Phrase
  | .text _ => []
  | .interp e => [.expr e]

def Else.phrases : Else → List Phrase
  | .none => []
  | .block b => [.block b]
  | .chain s => [.cond s]

def Primary.phrases : Primary → List Phrase
  | .int _ => []
  | .float _ => []
  | .string _ => []
  | .template t => t.fragments.flatMap Fragment.phrases
  | .composite _ entries _ => entries.map (.expr ·.value)
  | .make _ args _ => args.map .expr
  | .index target i _ => [.operand target, .expr i]
  | .slice target low high _ => .operand target :: (low.toList ++ high.toList).map .expr
  | .select base _ _ => base.phrases
  | .call base _ args _ => base.phrases ++ args.map .expr
  | .func _ _ body _ => [.block body]
  | .receive _ _ => []
  | .unary _ operand _ => [.operand operand]
  | .paren inner => [.expr inner]

def Stmt.phrases : Stmt → List Phrase
  | .var d => d.values.map .expr
  | .simple s => [.simple s]
  | .ret values _ => values.map .expr
  | .cond s => [.cond s]
  | .loop header body _ => [.header header, .block body]
  | .branch _ _ => []

/-- What a statement by itself is about. A postfix operator has no values. -/
def SimpleStmt.phrases : SimpleStmt → List Phrase
  | .exprs targets _ => targets.map .expr
  | .assign targets op values _ => (targets ++ if op.value.isPostfix then [] else values).map .expr
  | .send channel value _ => [.expr channel, .expr value]

def LoopHeader.phrases : LoopHeader → List Phrase
  | .infinite => []
  | .cond e => [.expr e]
  | .classic init test post => init.toList.map .simple ++ (test.toList.map .expr ++ post.toList.map .simple)
  | .range _ _ iterable => [.expr iterable]

namespace Phrase

def children : Phrase → List Phrase
  | expr e => operand e.head :: e.tail.flatMap Link.phrases
  | operator _ => []
  | operand p => p.phrases
  | block b => b.stmts.map stmt
  | stmt s => s.phrases
  | simple s => s.phrases
  | cond s => s.init.toList.map simple ++ expr s.cond :: block s.body :: s.otherwise.phrases
  | header h => h.phrases

def Within (whole part : Phrase) : Prop := Relation.ReflTransGen (fun outer inner => inner ∈ outer.children) whole part

def Throughout (P : Phrase → Prop) (whole : Phrase) : Prop := ∀ part, Within whole part → P part

/-- What holds throughout a phrase holds of the phrase and throughout all that stands directly inside it. -/
theorem throughout_iff {P : Phrase → Prop} {whole : Phrase} :
    Throughout P whole ↔ P whole ∧ ∀ part ∈ whole.children, Throughout P part := by
  constructor
  · intro holds
    exact ⟨holds whole .refl, fun part child inner within => holds inner (.head child within)⟩
  · rintro ⟨here, below⟩ inner within
    rcases Relation.ReflTransGen.cases_head within with rfl | ⟨part, child, deeper⟩
    · exact here
    · exact below part child inner deeper

variable {P : Phrase → Prop}

theorem throughout_expr {e : Expr} : Throughout P (.expr e) ↔ P (.expr e) ∧ Throughout P (.operand e.head) ∧
    ∀ l ∈ e.tail, Throughout P (.operator l.op.value) ∧ Throughout P (.operand l.operand) := by
  rw [throughout_iff, children, List.forall_mem_cons, List.forall_mem_flatMap]
  simp only [Link.phrases, List.forall_mem_cons, List.not_mem_nil, false_imp_iff, implies_true, and_true]

theorem throughout_operator {op : BinaryOp} : Throughout P (.operator op) ↔ P (.operator op) := by
  rw [throughout_iff]
  simp [children]

theorem throughout_unary {op : UnaryOp} {operand : Primary} {s : Span} :
    Throughout P (.operand (.unary op operand s)) ↔
      P (.operand (.unary op operand s)) ∧ Throughout P (.operand operand) := by
  rw [throughout_iff, children, Primary.phrases, List.forall_mem_singleton]

theorem throughout_slice {target : Primary} {low high : Option Expr} {s : Span} :
    Throughout P (.operand (.slice target low high s)) ↔ P (.operand (.slice target low high s)) ∧
      Throughout P (.operand target) ∧ (∀ e ∈ low, Throughout P (.expr e)) ∧ ∀ e ∈ high, Throughout P (.expr e) := by
  rw [throughout_iff, children, Primary.phrases, List.forall_mem_cons, List.forall_mem_map, List.forall_mem_append]
  simp only [Option.mem_toList, Option.mem_def]

theorem throughout_block {b : Block} :
    Throughout P (.block b) ↔ P (.block b) ∧ ∀ s ∈ b.stmts, Throughout P (.stmt s) := by
  rw [throughout_iff, children, List.forall_mem_map]

theorem throughout_cond {s : IfStmt} : Throughout P (.cond s) ↔ P (.cond s) ∧
    (∀ init ∈ s.init, Throughout P (.simple init)) ∧ Throughout P (.expr s.cond) ∧ Throughout P (.block s.body) ∧
      ∀ part ∈ s.otherwise.phrases, Throughout P part := by
  rw [throughout_iff, children]
  simp only [List.forall_mem_append, List.forall_mem_map, List.forall_mem_cons, Option.mem_toList,
    Option.mem_def]

end Phrase
end ViewLang
