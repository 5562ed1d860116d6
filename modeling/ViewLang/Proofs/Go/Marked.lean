namespace ViewLang.Go

inductive Author
  | user
  | generator
deriving Repr, DecidableEq

namespace Author

def other : Author → Author
  | user => generator
  | generator => user

theorem ne_other_iff {a b : Author} : a ≠ b.other ↔ a = b := by cases a <;> cases b <;> decide

end Author

structure Mark where
  author : Author
  name : String
deriving Repr, DecidableEq

inductive Piece
  | text (s : String)
  /-- A name that refers to its innermost binder, or to the package, an import or the language. -/
  | use (mark : Mark)
  /-- A name is bound from here to the end of the scope around it. The name itself stands elsewhere in the text. -/
  | bind (mark : Mark)
  | scope (inner : List Piece)

abbrev Marked := List Piece

/-- A name that is used, and the binders in scope there, the innermost first. -/
structure Occurrence where
  mark : Mark
  scope : List Mark
deriving Repr, DecidableEq

mutual

def Piece.render : Piece → String
  | .text s => s
  | .use m => m.name
  | .bind _ => ""
  | .scope inner => Marked.render inner

def Marked.render : List Piece → String
  | [] => ""
  | p :: ps => p.render ++ Marked.render ps

end

def Piece.bound : Piece → List Mark
  | .bind m => [m]
  | _ => []

mutual

/-- The names that are used in a piece, given the binders around it. -/
def Piece.occurrences (scope : List Mark) : Piece → List Occurrence
  | .text _ => []
  | .use m => [⟨m, scope⟩]
  | .bind _ => []
  | .scope inner => Marked.occurrences scope inner

def Marked.occurrences (scope : List Mark) : List Piece → List Occurrence
  | [] => []
  | p :: ps => p.occurrences scope ++ Marked.occurrences (p.bound ++ scope) ps

end

mutual

def Piece.binders : Piece → List Mark
  | .text _ => []
  | .use _ => []
  | .bind m => [m]
  | .scope inner => Marked.binders inner

def Marked.binders : List Piece → List Mark
  | [] => []
  | p :: ps => p.binders ++ Marked.binders ps

end

namespace Occurrence

def binder? (o : Occurrence) (counted : List Mark) : Option Mark := counted.find? (·.name == o.mark.name)

def Kept (o : Occurrence) : Prop := o.binder? o.scope = o.binder? (o.scope.filter (·.author == o.mark.author))

instance (o : Occurrence) : Decidable o.Kept := inferInstanceAs (Decidable (_ = _))

end Occurrence

def Hygienic (code : Marked) : Prop := ∀ o ∈ Marked.occurrences [] code, o.Kept

instance (code : Marked) : Decidable (Hygienic code) :=
  inferInstanceAs (Decidable (∀ o ∈ Marked.occurrences [] code, o.Kept))

namespace Marked

theorem render_append (first second : Marked) : render (first ++ second) = render first ++ render second := by
  induction first with
  | nil => rw [List.nil_append, render, String.empty_append]
  | cons p ps ih => rw [List.cons_append, render, render, ih, String.append_assoc]

theorem occurrences_append (first second : Marked) (scope : List Mark) :
    occurrences scope (first ++ second) =
      occurrences scope first ++ occurrences ((first.flatMap Piece.bound).reverse ++ scope) second := by
  induction first generalizing scope with
  | nil => rfl
  | cons p ps ih =>
    have single : p.bound.reverse = p.bound := by cases p <;> rfl
    rw [List.cons_append, occurrences, occurrences, ih, List.flatMap_cons, List.reverse_append, single,
      List.append_assoc, List.append_assoc]

theorem binders_append (first second : Marked) : binders (first ++ second) = binders first ++ binders second := by
  induction first with
  | nil => rfl
  | cons p ps ih => rw [List.cons_append, binders, binders, ih, List.append_assoc]

end Marked

theorem Piece.bound_subset (p : Piece) : p.bound ⊆ p.binders := by
  intro m member
  cases p with
  | bind _ => exact member
  | text _ => cases member
  | use _ => cases member
  | scope _ => cases member

mutual

theorem Piece.scope_of_mem (scope : List Mark) : (p : Piece) → ∀ o ∈ p.occurrences scope,
    ∃ inner, o.scope = inner ++ scope ∧ inner ⊆ p.binders
  | .text _, o, member => by
    rw [Piece.occurrences] at member
    cases member
  | .bind _, o, member => by
    rw [Piece.occurrences] at member
    cases member
  | .use _, o, member => by
    rw [Piece.occurrences, List.mem_singleton] at member
    rw [member]
    exact ⟨[], rfl, List.nil_subset _⟩
  | .scope inner, o, member => by
    rw [Piece.occurrences] at member
    rw [Piece.binders]
    exact Marked.scope_of_mem scope inner o member

/-- The binders that a name sees are some of the code, and behind them those around the code. -/
theorem Marked.scope_of_mem (scope : List Mark) : (ps : List Piece) → ∀ o ∈ Marked.occurrences scope ps,
    ∃ inner, o.scope = inner ++ scope ∧ inner ⊆ Marked.binders ps
  | [], o, member => by
    rw [Marked.occurrences] at member
    cases member
  | p :: ps, o, member => by
    rw [Marked.binders]
    rw [Marked.occurrences, List.mem_append] at member
    rcases member with first | later
    · obtain ⟨inner, split, known⟩ := Piece.scope_of_mem scope p o first
      exact ⟨inner, split, fun m inside => List.mem_append_left _ (known inside)⟩
    · obtain ⟨inner, split, known⟩ := Marked.scope_of_mem (p.bound ++ scope) ps o later
      refine ⟨inner ++ p.bound, by rw [split, List.append_assoc], fun m inside => ?_⟩
      rcases List.mem_append.mp inside with inside | own
      · exact List.mem_append_right _ (known inside)
      · exact List.mem_append_left _ (p.bound_subset own)

end

theorem Marked.mem_binders {code : Marked} {o : Occurrence} (member : o ∈ Marked.occurrences [] code) {m : Mark}
    (inside : m ∈ o.scope) : m ∈ Marked.binders code := by
  obtain ⟨inner, split, known⟩ := Marked.scope_of_mem [] code o member
  rw [split, List.append_nil] at inside
  exact known inside

/-- A name keeps its meaning when the innermost binder of that name, if there is one, is its author's. -/
theorem Occurrence.kept_iff {o : Occurrence} :
    o.Kept ↔ ∀ m, o.binder? o.scope = some m → m.author = o.mark.author := by
  rw [Occurrence.Kept, Occurrence.binder?, Occurrence.binder?, List.find?_filter]
  constructor
  · intro same m found
    rw [found] at same
    have both := List.find?_some same.symm
    exact (by simpa using both : m.author = o.mark.author ∧ m.name = o.mark.name).1
  · intro own
    obtain ⟨mark, scope⟩ := o
    dsimp only at own ⊢
    induction scope with
    | nil => rfl
    | cons m ms ih =>
      rw [List.find?_cons, List.find?_cons]
      rw [List.find?_cons] at own
      cases named : m.name == mark.name with
      | true =>
        rw [named] at own
        simp [own m rfl]
      | false =>
        rw [named] at own
        simp [ih own]

theorem Occurrence.mem_of_binder? {o : Occurrence} {scope : List Mark} {m : Mark} (found : o.binder? scope = some m) :
    m ∈ scope := List.mem_of_find?_eq_some found

/-- A name is captured only by an innermost binder of the other author. -/
theorem Occurrence.kept_iff_not_other {o : Occurrence} :
    o.Kept ↔ o.binder? o.scope ≠ some ⟨o.mark.author.other, o.mark.name⟩ := by
  rw [Occurrence.kept_iff]
  constructor
  · intro own found
    exact Author.ne_other_iff.mpr (own _ found) rfl
  · intro free m found
    have named : m.name = o.mark.name := by simpa [binder?] using List.find?_some found
    refine Author.ne_other_iff.mp fun other => free ?_
    rw [found, ← other, ← named]

end ViewLang.Go
