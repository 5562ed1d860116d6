import ViewLang.Proofs.Go.MarkedLowering

namespace ViewLang.Go

mutual

theorem Piece.marks_scope (scope : List Mark) : (p : Piece) →
    (p.occurrences scope).map (·.mark) = (p.occurrences []).map (·.mark)
  | .text _ => rfl
  | .use _ => rfl
  | .bind _ => rfl
  | .scope inner => by
    rw [Piece.occurrences, Piece.occurrences, Marked.marks_scope scope inner]

/-- The names that are used do not depend on what is bound around them. -/
theorem Marked.marks_scope (scope : List Mark) : (ps : List Piece) →
    (Marked.occurrences scope ps).map (·.mark) = (Marked.occurrences [] ps).map (·.mark)
  | [] => rfl
  | p :: ps => by
    rw [Marked.occurrences, Marked.occurrences, List.map_append, List.map_append, Piece.marks_scope scope p,
      Marked.marks_scope _ ps, Marked.marks_scope (p.bound ++ []) ps]

end

namespace Marked

def refers (code : Marked) (name : String) : Bool := (occurrences [] code).any (·.mark == ⟨.generator, name⟩)

theorem refers_iff {code : Marked} {name : String} :
    refers code name = true ↔ ∃ o ∈ occurrences [] code, o.mark = ⟨.generator, name⟩ := by
  simp only [refers, List.any_eq_true, beq_iff_eq]

theorem refers_append (first second : Marked) (name : String) :
    refers (first ++ second) name = (refers first name || refers second name) := by
  have anywhere (scope : List Mark) : (occurrences scope second).any (·.mark == ⟨.generator, name⟩) =
      (occurrences [] second).any (·.mark == ⟨.generator, name⟩) := by
    have same := congrArg (List.any · (· == (⟨.generator, name⟩ : Mark))) (marks_scope scope second)
    rw [List.any_map, List.any_map] at same
    exact same
  rw [refers, occurrences_append, List.any_append, anywhere]
  rfl

theorem refers_scope (inner : Marked) (name : String) : refers [.scope inner] name = refers inner name := by
  simp only [refers, occurrences, Piece.occurrences, List.append_nil]

theorem refers_refer {name other : String} (ne : name ≠ other) : refers (refer name) other = false := by
  simp [refers, refer, occurrences, Piece.occurrences, ne]

theorem refers_binds (names : List String) (name : String) : refers (binds names) name = false := by
  rw [binds]
  induction names.filter (· ≠ "_") with
  | nil => rfl
  | cons bound names ih => exact (refers_append [.bind ⟨.user, bound⟩] _ name).trans ih

end Marked

namespace Piece

def isUse (mark : Mark) : Piece → Bool
  | .use m => m == mark
  | _ => false

def isText (text : String) : Piece → Bool
  | .text s => s == text
  | _ => false

end Piece

mutual

def Piece.calls (package function : String) : Piece → Bool
  | .text _ => false
  | .use _ => false
  | .bind _ => false
  | .scope inner => Marked.calls package function inner

def Marked.calls (package function : String) : List Piece → Bool
  | [] => false
  | p :: ps =>
    p.calls package function ||
      (p.isUse ⟨.generator, package⟩ && ps.head?.any (Piece.isText ("." ++ function ++ "("))) ||
      Marked.calls package function ps

end

namespace Marked

variable {package function : String}

theorem calls_front {first : Marked} (second : Marked) (called : calls package function first = true) :
    calls package function (first ++ second) = true := by
  induction first with
  | nil => cases called
  | cons p ps ih =>
    rw [calls, Bool.or_eq_true, Bool.or_eq_true] at called
    rw [List.cons_append, calls, Bool.or_eq_true, Bool.or_eq_true]
    rcases called with (inside | here) | behind
    · exact .inl (.inl inside)
    · refine .inl (.inr ?_)
      cases ps with
      | nil => simp at here
      | cons q qs => exact here
    · exact .inr (ih behind)

theorem calls_behind (first : Marked) {second : Marked} (called : calls package function second = true) :
    calls package function (first ++ second) = true := by
  induction first with
  | nil => exact called
  | cons p ps ih =>
    rw [List.cons_append, calls, ih, Bool.or_true]

end Marked

mutual

theorem Piece.referred_of_calls {package function : String} (scope : List Mark) : (p : Piece) →
    p.calls package function = true → ∃ o ∈ p.occurrences scope, o.mark = ⟨.generator, package⟩
  | .text _, called => by
    rw [Piece.calls] at called
    cases called
  | .use _, called => by
    rw [Piece.calls] at called
    cases called
  | .bind _, called => by
    rw [Piece.calls] at called
    cases called
  | .scope inner, called => by
    rw [Piece.calls] at called
    rw [Piece.occurrences]
    exact Marked.referred_of_calls scope inner called

theorem Marked.referred_of_calls {package function : String} (scope : List Mark) : (ps : List Piece) →
    Marked.calls package function ps = true → ∃ o ∈ Marked.occurrences scope ps, o.mark = ⟨.generator, package⟩
  | [], called => by
    rw [Marked.calls] at called
    cases called
  | p :: ps, called => by
    rw [Marked.calls, Bool.or_eq_true, Bool.or_eq_true, Bool.and_eq_true] at called
    rw [Marked.occurrences]
    rcases called with (inside | ⟨here, _⟩) | behind
    · obtain ⟨o, member, mark⟩ := Piece.referred_of_calls scope p inside
      exact ⟨o, List.mem_append_left _ member, mark⟩
    · cases p with
      | use m =>
        have same : m = ⟨.generator, package⟩ := eq_of_beq here
        exact ⟨⟨m, scope⟩, List.mem_append_left _ (List.mem_singleton.mpr rfl), same⟩
      | _ => cases here
    · obtain ⟨o, member, mark⟩ := Marked.referred_of_calls (p.bound ++ scope) ps behind
      exact ⟨o, List.mem_append_right _ member, mark⟩

end

def Formatted (code : Marked) : Prop :=
  Marked.refers code "fmt" = true → Marked.calls "fmt" "Sprintf" code = true ∨ Marked.calls "fmt" "Sprint" code = true

theorem Formatted.of_unused {code : Marked} (unused : Marked.refers code "fmt" = false) : Formatted code := by
  intro referred
  rw [unused] at referred
  cases referred

theorem Formatted.append {first second : Marked} (left : Formatted first) (right : Formatted second) :
    Formatted (first ++ second) := by
  intro referred
  rw [Marked.refers_append, Bool.or_eq_true] at referred
  rcases referred with front | behind
  · exact (left front).imp (Marked.calls_front second) (Marked.calls_front second)
  · exact (right behind).imp (Marked.calls_behind first) (Marked.calls_behind first)

theorem Formatted.scope {inner : Marked} (formatted : Formatted inner) : Formatted [.scope inner] := by
  have calls (function : String) :
      Marked.calls "fmt" function [.scope inner] = Marked.calls "fmt" function inner := by
    simp [Marked.calls, Piece.calls, Piece.isUse]
  rw [Formatted, Marked.refers_scope, calls, calls]
  exact formatted

theorem Formatted.sprintf : Formatted (Marked.refer "fmt" ++ Marked.lit ".Sprintf(") := fun _ => .inl (by decide)

theorem Formatted.sprint : Formatted (Marked.lit "(" ++ Marked.refer "fmt" ++ Marked.lit ".Sprint(") :=
  fun _ => .inr (by decide)

end ViewLang.Go
