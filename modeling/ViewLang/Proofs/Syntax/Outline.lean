import Mathlib.Data.List.Chain
import ViewLang.Proofs.Syntax.Traversal
import ViewLang.Syntax.Outline

namespace ViewLang

structure Printer where
  out : String
  depth : Nat

namespace Printer

def start : Printer := ⟨"", 0⟩

def line (text : String) (p : Printer) : Printer := { p with out := p.out ++ OutlineLine.render ⟨p.depth, text⟩ }

def nested (act : Printer → Printer) (p : Printer) : Printer :=
  let q := act { p with depth := p.depth + 1 }
  { q with depth := q.depth - 1 }

/-- The printer behind the lines, at the depth at which it was. -/
def behind (p : Printer) (ls : List OutlineLine) : Printer :=
  { p with out := p.out ++ String.join (ls.map OutlineLine.render) }

theorem behind_nil (p : Printer) : p.behind [] = p := congrArg (Printer.mk · p.depth) String.append_empty

theorem behind_append (p : Printer) (ls ms : List OutlineLine) : p.behind (ls ++ ms) = (p.behind ls).behind ms := by
  simp [behind, String.append_assoc]

theorem line_eq (text : String) (p : Printer) : p.line text = p.behind [⟨p.depth, text⟩] := by
  simp [line, behind]

theorem nested_eq {act : Printer → Printer} {p : Printer} {ls : List OutlineLine}
    (prints : act { p with depth := p.depth + 1 } = behind { p with depth := p.depth + 1 } ls) :
    p.nested act = p.behind ls := by
  rw [nested, prints]
  rfl

end Printer

namespace Tree

mutual

/-- Print a tree: its line, if its part has one, and one deeper what is inside. -/
def print : Tree → Printer → Printer
  | mk part ts, p =>
    match part.line? with
    | some text => if part.isSummary then p.line text else (p.line text).nested (printEach ts)
    | none => printEach ts p

def printEach : List Tree → Printer → Printer
  | [], p => p
  | t :: ts, p => printEach ts (print t p)

end

mutual

theorem print_eq : (t : Tree) → (p : Printer) → t.print p = p.behind (t.outlineAt p.depth)
  | mk part ts, p => by
    rw [print, outlineAt]
    cases part.line? with
    | none => exact printEach_eq ts p
    | some text =>
      dsimp only
      rw [Printer.line_eq]
      split
      · rfl
      · rw [Printer.nested_eq (printEach_eq ts _), ← Printer.behind_append]
        rfl

theorem printEach_eq : (ts : List Tree) → (p : Printer) → printEach ts p = p.behind (outlineEach p.depth ts)
  | [], p => p.behind_nil.symm
  | t :: ts, p => by
    rw [printEach, print_eq t p, printEach_eq ts, outlineEach, Printer.behind_append]
    rfl

end

end Tree

/-- Printed from the start, a unit leaves its outline, and the depth is zero again. -/
theorem SourceUnit.print_start (u : SourceUnit) : u.tree.print .start = ⟨u.outline, 0⟩ := by
  rw [Tree.print_eq]
  simp [Printer.behind, Printer.start, SourceUnit.outline]

structure Steps (depth : Nat) (ls : List OutlineLine) : Prop where
  first : ∀ l ∈ ls.head?, l.depth = depth
  inside : ∀ l ∈ ls, depth ≤ l.depth
  chain : ls.IsChain fun l m => m.depth ≤ l.depth + 1

namespace Steps

variable {depth : Nat} {ls ms : List OutlineLine}

theorem nil : Steps depth [] := ⟨nofun, nofun, .nil⟩

theorem append (left : Steps depth ls) (right : Steps depth ms) : Steps depth (ls ++ ms) where
  first l member := by
    rw [List.head?_append, Option.mem_def, Option.or_eq_some_iff] at member
    rcases member with member | ⟨-, member⟩
    · exact left.first l member
    · exact right.first l member
  inside := List.forall_mem_append.mpr ⟨left.inside, right.inside⟩
  chain := by
    refine List.isChain_append.mpr ⟨left.chain, right.chain, fun l last m first => ?_⟩
    rw [right.first m first]
    exact Nat.le_succ_of_le (left.inside l (List.mem_of_getLast? last))

theorem cons (text : String) (deeper : Steps (depth + 1) ls) : Steps depth (⟨depth, text⟩ :: ls) where
  first l member := by
    cases member
    rfl
  inside := List.forall_mem_cons.mpr ⟨Nat.le_refl _, fun l member => Nat.le_of_succ_le (deeper.inside l member)⟩
  chain := by
    refine List.isChain_cons.mpr ⟨fun l first => ?_, deeper.chain⟩
    rw [deeper.first l first]

end Steps

namespace Tree

mutual

theorem steps_outlineAt (depth : Nat) : (t : Tree) → Steps depth (t.outlineAt depth)
  | mk part ts => by
    rw [outlineAt]
    split
    · split
      · exact .cons _ .nil
      · exact .cons _ (steps_outlineEach (depth + 1) ts)
    · exact steps_outlineEach depth ts

theorem steps_outlineEach (depth : Nat) : (ts : List Tree) → Steps depth (outlineEach depth ts)
  | [] => .nil
  | t :: ts => (steps_outlineAt depth t).append (steps_outlineEach depth ts)

end

theorem outlineEach_eq (depth : Nat) (ts : List Tree) : outlineEach depth ts = ts.flatMap (outlineAt depth) := by
  induction ts with
  | nil => rfl
  | cons t ts ih => rw [outlineEach, ih, List.flatMap_cons]

end Tree

namespace Construct

/-- The construct has a line of its own. An expression without operators shows itself as its operand, and a literal that
is a template as the template. -/
def hasLine : Construct → Bool
  | type _ => false
  | body _ => false
  | block _ => false
  | stmt _ => false
  | node _ => false
  | expr e => !e.tail.isEmpty
  | primary _ => false
  | templateLiteral _ => false
  | gpuParam _ => false
  | _ => true

def isWhole : Construct → Bool
  | decorator _ => true
  | gpuField _ => true
  | _ => false

def label (c : Construct) : String := c.tree.part.line?.getD ""

def around : Construct → List Nat → List Construct
  | _, [] => []
  | c, i :: address => c :: c.children[i]?.elim [] fun d => d.around address

def depthAt (c : Construct) (address : List Nat) : Nat := (c.around address).countP hasLine

/-- The constructs that are printed, with their addresses and in the order in which they are visited. -/
def printed (c : Construct) : List (List Nat × Construct) :=
  c.visits.filter fun x => x.2.hasLine && (c.around x.1).all (!·.isWhole)

theorem mem_printed {c d : Construct} {address : List Nat} : (address, d) ∈ c.printed ↔
    c.at? address = some d ∧ d.hasLine = true ∧ ∀ e ∈ c.around address, e.isWhole = false := by
  simp [printed, mem_visits]

/-- What the outline asks of the part of a construct is what kind of construct it is. -/
theorem part_shows (c : Construct) :
    c.tree.part.line?.isSome = c.hasLine ∧ c.tree.part.isSummary = c.isWhole := by
  cases c with
  | stmt s =>
    cases s with
    | simple s => cases s <;> exact ⟨rfl, rfl⟩
    | _ => exact ⟨rfl, rfl⟩
  | primary p => cases p <;> exact ⟨rfl, rfl⟩
  | node n => cases n <;> exact ⟨rfl, rfl⟩
  | block b =>
    cases b
    exact ⟨rfl, rfl⟩
  | varDecl d =>
    cases d
    exact ⟨rfl, rfl⟩
  | cond s =>
    cases s
    exact ⟨rfl, rfl⟩
  | element e =>
    cases e
    exact ⟨rfl, rfl⟩
  | nodeIf c =>
    cases c
    exact ⟨rfl, rfl⟩
  | nodeFor l =>
    cases l
    exact ⟨rfl, rfl⟩
  | template t =>
    cases t
    exact ⟨rfl, rfl⟩
  | expr e =>
    obtain ⟨head, tail, span⟩ := e
    cases tail <;> exact ⟨rfl, rfl⟩
  | elementArg a =>
    obtain ⟨key, value⟩ := a
    cases key <;> exact ⟨rfl, rfl⟩
  | select b path span => cases b <;> exact ⟨rfl, rfl⟩
  | call b path args span => cases b <;> exact ⟨rfl, rfl⟩
  | _ => exact ⟨rfl, rfl⟩

theorem line?_tree (c : Construct) : c.tree.part.line? = if c.hasLine then some c.label else none := by
  rw [← c.part_shows.1, label]
  cases c.tree.part.line? <;> rfl

theorem hasLine_of_isWhole {c : Construct} (whole : c.isWhole = true) : c.hasLine = true := by
  cases c with
  | decorator | gpuField => rfl
  | _ => cases whole

/-- The lines of a construct: its own, and those of what is inside, one deeper if it has one. -/
theorem outlineAt_tree (c : Construct) (depth : Nat) : c.tree.outlineAt depth =
    (if c.hasLine then [⟨depth, c.label⟩] else []) ++
      if c.isWhole then [] else c.children.flatMap fun d => d.tree.outlineAt (depth + [c].countP hasLine) := by
  have below := c.tree_children
  have line := c.line?_tree
  have whole := c.part_shows.2
  have outermost := @hasLine_of_isWhole c
  cases same : c.tree with
  | mk part ts =>
    rw [same] at below line whole
    rw [Tree.outlineAt, show part.line? = _ from line, show part.isSummary = _ from whole, Tree.outlineEach_eq,
      Tree.outlineEach_eq, show ts = _ from below, List.flatMap_map, List.flatMap_map]
    by_cases lined : c.hasLine = true
    · simp [lined]
    · have shown : ¬ c.isWhole = true := fun whole => lined (outermost whole)
      simp [lined, shown]

theorem around_under {c : Construct} (i : Fin c.children.length) (address : List Nat) :
    c.around ([i.val] ++ address) = c :: (c.children.get i).around address := by
  rw [List.singleton_append, around, List.getElem?_eq_getElem i.isLt]
  rfl

/-- Printed are the construct itself, if it has a line, and what is printed in its children, unless it is shown as a
whole. -/
theorem printed_eq (c : Construct) : c.printed =
    (if c.hasLine then [([], c)] else []) ++
      if c.isWhole then [] else (List.finRange c.children.length).flatMap fun i =>
        under [i.val] (c.children.get i).printed := by
  have each (i : Fin c.children.length) :
      (under [i.val] (c.children.get i).visits).filter (fun x => x.2.hasLine && (c.around x.1).all (!·.isWhole)) =
        if c.isWhole then [] else under [i.val] (c.children.get i).printed := by
    rw [under, List.filter_map]
    simp only [Function.comp_def, around_under, List.all_cons]
    by_cases whole : c.isWhole = true
    · simp [whole]
    · simp [whole, printed, under]
  rw [printed, visits, List.filter_cons, List.filter_flatMap]
  simp only [each]
  by_cases whole : c.isWhole = true
  · simp [whole, hasLine_of_isWhole whole, around]
  · by_cases lined : c.hasLine = true <;> simp [whole, lined, around]

/-- The lines of an outline are those of the printed constructs, each as deep as there are lines around it. -/
theorem outlineAt_printed (c : Construct) (depth : Nat) :
    c.tree.outlineAt depth = c.printed.map fun x => ⟨depth + c.depthAt x.1, x.2.label⟩ := by
  induction c using visits.induct generalizing depth with
  | case1 c ih =>
    have inner (i : Fin c.children.length) :
        (c.children.get i).tree.outlineAt (depth + [c].countP hasLine) =
          (under [i.val] (c.children.get i).printed).map fun x => ⟨depth + c.depthAt x.1, x.2.label⟩ := by
      rw [ih i, under, List.map_map]
      refine List.map_congr_left fun x _ => ?_
      simp only [Function.comp_def, depthAt, around_under]
      rw [show c :: (c.children.get i).around x.1 = [c] ++ (c.children.get i).around x.1 from rfl, List.countP_append,
        Nat.add_assoc]
    have children : c.children.flatMap (fun d => d.tree.outlineAt (depth + [c].countP hasLine)) =
        (List.finRange c.children.length).flatMap fun i =>
          (under [i.val] (c.children.get i).printed).map fun x => ⟨depth + c.depthAt x.1, x.2.label⟩ := by
      conv_lhs => rw [← List.map_get_finRange c.children, List.flatMap_map]
      simp only [inner]
    rw [outlineAt_tree, printed_eq, List.map_append, children]
    congr 1
    · split <;> rfl
    · split
      · rfl
      · rw [List.map_flatMap]

end Construct

/-- An outline is made of the lines of the printed constructs. -/
theorem SourceUnit.outline_eq (u : SourceUnit) : u.outline = String.join ((Construct.unit u).printed.map fun x =>
    OutlineLine.render ⟨(Construct.unit u).depthAt x.1, x.2.label⟩) := by
  have lines := (Construct.unit u).outlineAt_printed 0
  simp only [Nat.zero_add] at lines
  rw [SourceUnit.outline, show u.tree.outlineAt 0 = _ from lines, List.map_map]
  rfl

/-- Among printed constructs, each stands at most one deeper than the one before. -/
theorem SourceUnit.depths_chain (u : SourceUnit) : (Construct.unit u).printed.IsChain fun x y =>
    (Construct.unit u).depthAt y.1 ≤ (Construct.unit u).depthAt x.1 + 1 := by
  have steps := (u.tree.steps_outlineAt 0).chain
  rw [show u.tree.outlineAt 0 = _ from (Construct.unit u).outlineAt_printed 0, List.isChain_map] at steps
  simpa only [Nat.zero_add] using steps

end ViewLang
