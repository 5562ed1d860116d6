import Mathlib.Data.List.Forall2
import Mathlib.Data.List.Nodup

namespace ViewLang

variable {α β γ ε ε' : Type}

theorem bind_ok_iff {x : Except ε α} {f : α → Except ε β} {b : β} :
    x >>= f = .ok b ↔ ∃ a, x = .ok a ∧ f a = .ok b := by
  cases x with
  | error e => simp [Bind.bind, Except.bind]
  | ok a => simp [Bind.bind, Except.bind]

theorem bind_error_iff {x : Except ε α} {f : α → Except ε β} {e : ε} :
    x >>= f = .error e ↔ x = .error e ∨ ∃ a, x = .ok a ∧ f a = .error e := by
  cases x with
  | error e' => simp [Bind.bind, Except.bind]
  | ok a => simp [Bind.bind, Except.bind]

theorem mapError_error_iff {x : Except ε α} {f : ε → ε'} {e : ε'} :
    x.mapError f = .error e ↔ ∃ e', x = .error e' ∧ f e' = e := by
  cases x <;> simp [Except.mapError]

theorem mapError_ok_iff {x : Except ε α} {f : ε → ε'} {a : α} : x.mapError f = .ok a ↔ x = .ok a := by
  cases x <;> simp [Except.mapError]

theorem toOption_some_iff {x : Except ε α} {a : α} : x.toOption = some a ↔ x = .ok a := by
  cases x <;> simp [Except.toOption]

theorem mapM_ok_forall₂ {f : α → Except ε β} {xs : List α} {ys : List β} :
    xs.mapM f = .ok ys ↔ List.Forall₂ (fun x y => f x = .ok y) xs ys := by
  induction xs generalizing ys with
  | nil => simp [Pure.pure, Except.pure, eq_comm]
  | cons x xs ih =>
    rw [List.mapM_cons, List.forall₂_cons_left_iff]
    simp only [bind_ok_iff, ih, Pure.pure, Except.pure, Except.ok.injEq]
    constructor
    · rintro ⟨y, first, rest, others, rfl⟩
      exact ⟨y, rest, first, others, rfl⟩
    · rintro ⟨y, rest, first, others, rfl⟩
      exact ⟨y, first, rest, others, rfl⟩

theorem mapM_some_forall₂ {f : α → Option β} {xs : List α} {ys : List β} :
    xs.mapM f = some ys ↔ List.Forall₂ (fun x y => f x = some y) xs ys := by
  induction xs generalizing ys with
  | nil => simp [eq_comm]
  | cons x xs ih =>
    rw [List.mapM_cons, List.forall₂_cons_left_iff]
    simp only [Option.bind_eq_bind, Option.bind_eq_some_iff, ih, Option.pure_def, Option.some.injEq]
    constructor
    · rintro ⟨y, first, rest, others, rfl⟩
      exact ⟨y, rest, first, others, rfl⟩
    · rintro ⟨y, rest, first, others, rfl⟩
      exact ⟨y, first, rest, others, rfl⟩

theorem forall₂_mem_left {R : α → β → Prop} {xs : List α} {ys : List β} (related : List.Forall₂ R xs ys) {x : α}
    (member : x ∈ xs) : ∃ y ∈ ys, R x y := by
  induction related with
  | nil => cases member
  | cons first _ ih =>
    rcases List.mem_cons.mp member with rfl | member
    · exact ⟨_, List.mem_cons_self, first⟩
    · obtain ⟨y, inside, found⟩ := ih member
      exact ⟨y, List.mem_cons_of_mem _ inside, found⟩

theorem forall₂_mem_right {R : α → β → Prop} {xs : List α} {ys : List β} (related : List.Forall₂ R xs ys) {y : β}
    (member : y ∈ ys) : ∃ x ∈ xs, R x y :=
  forall₂_mem_left (R := fun y x => R x y) related.flip member

theorem exists_forall₂ {R : α → β → Prop} {xs : List α} (each : ∀ x ∈ xs, ∃ y, R x y) :
    ∃ ys, List.Forall₂ R xs ys := by
  induction xs with
  | nil => exact ⟨[], .nil⟩
  | cons x xs ih =>
    obtain ⟨y, first⟩ := each x List.mem_cons_self
    obtain ⟨ys, rest⟩ := ih fun x' member => each x' (List.mem_cons_of_mem x member)
    exact ⟨y :: ys, .cons first rest⟩

/-- What is related to the results of `f` is related to what `f` is applied to. -/
theorem forall₂_unmap {R : α → γ → Prop} {S : α → β → Prop} {f : β → γ} {xs : List α} {zs : List γ}
    (related : List.Forall₂ R xs zs) (unmap : ∀ x z, R x z → ∃ y, S x y ∧ f y = z) :
    ∃ ys, List.Forall₂ S xs ys ∧ ys.map f = zs := by
  induction related with
  | nil => exact ⟨[], .nil, rfl⟩
  | cons first _ ih =>
    obtain ⟨y, taken, rfl⟩ := unmap _ _ first
    obtain ⟨ys, rest, rfl⟩ := ih
    exact ⟨y :: ys, .cons taken rest, rfl⟩

/-- Two lists related to one list are related to each other. -/
theorem forall₂_join {R : α → β → Prop} {S : α → γ → Prop} {T : β → γ → Prop} {xs : List α} {ys : List β} {zs : List γ}
    (left : List.Forall₂ R xs ys) (right : List.Forall₂ S xs zs)
    (join : ∀ x ∈ xs, ∀ y z, R x y → S x z → T y z) : List.Forall₂ T ys zs := by
  induction left generalizing zs with
  | nil =>
    cases right
    exact .nil
  | cons first _ ih =>
    cases right with
    | cons second others =>
      refine .cons (join _ List.mem_cons_self _ _ first second) (ih others ?_)
      exact fun x member => join x (List.mem_cons_of_mem _ member)

/-- Among elements with different keys, the one with a key is found. -/
theorem find?_key {key : α → String} {xs : List α} (distinct : (xs.map key).Nodup) {x : α} (member : x ∈ xs) :
    xs.find? (key · == key x) = some x := by
  induction xs with
  | nil => cases member
  | cons y ys ih =>
    rw [List.map_cons, List.nodup_cons] at distinct
    rcases List.mem_cons.mp member with rfl | member
    · exact List.find?_cons_of_pos (BEq.refl _)
    · have different : (key y == key x) = false := by
        rw [beq_eq_false_iff_ne]
        intro same
        exact distinct.1 (same ▸ List.mem_map_of_mem member)
      rw [List.find?_cons, different]
      exact ih distinct.2 member

theorem mem_of_lookup {entries : List (String × α)} {x : String} {a : α} (found : entries.lookup x = some a) :
    (x, a) ∈ entries := by
  obtain ⟨before, behind, split, _⟩ := List.lookup_eq_some_iff.mp found
  rw [split]
  exact List.mem_append_right _ List.mem_cons_self

theorem lookup_of_mem {entries : List (String × α)} {x : String} {a : α} (distinct : (entries.map Prod.fst).Nodup)
    (member : (x, a) ∈ entries) : entries.lookup x = some a := by
  obtain ⟨found, shown⟩ : ∃ found, entries.lookup x = some found :=
    Option.isSome_iff_exists.mp (List.lookup_isSome_iff.mpr ⟨_, member, BEq.refl _⟩)
  have same := List.inj_on_of_nodup_map distinct (mem_of_lookup shown) member rfl
  rw [shown, (Prod.mk.inj same).2]

def Succeeds (x : Except ε α) : Prop := ∃ a, x = .ok a

@[simp] theorem succeeds_ok (a : α) : Succeeds (Except.ok a : Except ε α) := ⟨a, rfl⟩

@[simp] theorem not_succeeds_error (e : ε) : ¬ Succeeds (Except.error e : Except ε α) := nofun

/-- If the first result does not decide whether the rest succeeds, both have to. -/
theorem succeeds_bind {x : Except ε α} {f : α → Except ε β} {P : Prop} (next : ∀ a, Succeeds (f a) ↔ P) :
    Succeeds (x >>= f) ↔ Succeeds x ∧ P := by
  cases x with
  | error e => exact iff_of_false (not_succeeds_error e) fun both => not_succeeds_error e both.1
  | ok a => exact (next a).trans (and_iff_right (succeeds_ok a)).symm

theorem succeeds_bind_total {x : Except ε α} {f : α → Except ε β} (total : ∀ a, Succeeds (f a)) :
    Succeeds (x >>= f) ↔ Succeeds x := by
  rw [succeeds_bind fun a => iff_true_intro (total a), and_true]

theorem succeeds_bind_ok {x : Except ε α} {f : α → β} : Succeeds (x >>= fun a => .ok (f a)) ↔ Succeeds x :=
  succeeds_bind_total fun a => succeeds_ok (f a)

theorem not_succeeds_bind {x : Except ε α} {f : α → Except ε β} (fails : ∀ a, ¬ Succeeds (f a)) :
    ¬ Succeeds (x >>= f) := by
  rw [succeeds_bind fun a => iff_false_intro (fails a)]
  exact And.right

theorem succeeds_mapM {f : α → Except ε β} {xs : List α} : Succeeds (xs.mapM f) ↔ ∀ x ∈ xs, Succeeds (f x) := by
  constructor
  · rintro ⟨ys, result⟩ x member
    obtain ⟨y, -, found⟩ := forall₂_mem_left (mapM_ok_forall₂.mp result) member
    exact ⟨y, found⟩
  · intro each
    obtain ⟨ys, related⟩ := exists_forall₂ each
    exact ⟨ys, mapM_ok_forall₂.mpr related⟩

theorem succeeds_mapM_option {f : α → Except ε β} {o : Option α} :
    Succeeds (o.mapM f) ↔ ∀ x ∈ o, Succeeds (f x) := by
  cases o with
  | none => exact iff_of_true ⟨none, rfl⟩ nofun
  | some x =>
    refine succeeds_bind_ok.trans ?_
    simp

end ViewLang
