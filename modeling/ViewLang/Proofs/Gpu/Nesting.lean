import Mathlib.Data.Nat.Find
import ViewLang.Proofs.Gpu.Placement

namespace ViewLang.Gpu

inductive Part
  /-- Nothing else; `none` is a member without a place in memory. -/
  | plain (extent : Option Extent)
  | made (name : String) (extent : Extent → Option Extent)

def Part.extent? (known : String → Option Extent) : Part → Option Extent
  | plain e => e
  | made name f => known name >>= f

theorem Part.extent?_mono {known more : String → Option Extent} {p : Part} {e : Extent}
    (grows : ∀ name e, known name = some e → more name = some e) (found : p.extent? known = some e) :
    p.extent? more = some e := by
  cases p with
  | plain _ => exact found
  | made name f =>
    simp only [Part.extent?, Option.bind_eq_bind, Option.bind_eq_some_iff] at found ⊢
    obtain ⟨inner, placed, result⟩ := found
    exact ⟨inner, grows name inner placed, result⟩

/-- The structs of a program. -/
structure Rules (M : Type) where
  members? : String → Option (List M)
  part : M → Part

namespace Rules

variable {M : Type} {r : Rules M} {name : String} {s t : Shape}

def shapeWithin (r : Rules M) : Nat → String → Option Shape
  | 0, _ => none
  | n + 1, name => do
    let ms ← r.members? name
    let es ← ms.mapM fun m => (r.part m).extent? fun inner => (r.shapeWithin n inner).map Shape.extent
    some (.ofMembers es)

def extentWithin (r : Rules M) (n : Nat) (name : String) : Option Extent := (r.shapeWithin n name).map Shape.extent

def HasShape (r : Rules M) (name : String) (s : Shape) : Prop := ∃ n, r.shapeWithin n name = some s

def HasExtent (r : Rules M) (m : M) (e : Extent) : Prop := ∃ n, (r.part m).extent? (r.extentWithin n) = some e

theorem shapeWithin_succ {n : Nat} :
    r.shapeWithin (n + 1) name = some s ↔ ∃ ms es, r.members? name = some ms ∧
      List.Forall₂ (fun m e => (r.part m).extent? (r.extentWithin n) = some e) ms es ∧ s = .ofMembers es := by
  simp only [shapeWithin, Option.bind_eq_bind, Option.bind_eq_some_iff, mapM_some_forall₂, Option.some.injEq]
  constructor
  · rintro ⟨ms, declared, es, extents, rfl⟩
    exact ⟨ms, es, declared, extents, rfl⟩
  · rintro ⟨ms, es, declared, extents, rfl⟩
    exact ⟨ms, declared, es, extents, rfl⟩

theorem extentWithin_eq_some {n : Nat} {e : Extent} :
    r.extentWithin n name = some e ↔ ∃ s, r.shapeWithin n name = some s ∧ s.extent = e := by
  rw [extentWithin, Option.map_eq_some_iff]

theorem shapeWithin_mono {n m : Nat} (le : n ≤ m) (found : r.shapeWithin n name = some s) :
    r.shapeWithin m name = some s := by
  induction n generalizing m name s with
  | zero => cases found
  | succ n ih =>
    obtain ⟨m, rfl⟩ : ∃ k, m = k + 1 := ⟨m - 1, by omega⟩
    rw [shapeWithin_succ] at found ⊢
    obtain ⟨ms, es, declared, extents, shape⟩ := found
    refine ⟨ms, es, declared, extents.imp fun member e placed => Part.extent?_mono ?_ placed, shape⟩
    intro inner e
    simp only [extentWithin_eq_some]
    rintro ⟨u, within, extent⟩
    exact ⟨u, ih (by omega) within, extent⟩

theorem extentWithin_mono {n m : Nat} (le : n ≤ m) :
    ∀ name e, r.extentWithin n name = some e → r.extentWithin m name = some e := by
  intro name e
  simp only [extentWithin_eq_some]
  rintro ⟨u, within, extent⟩
  exact ⟨u, shapeWithin_mono le within, extent⟩

theorem HasShape.unique (left : r.HasShape name s) (right : r.HasShape name t) : s = t := by
  obtain ⟨n, first⟩ := left
  obtain ⟨m, second⟩ := right
  have common := shapeWithin_mono (Nat.le_max_left n m) first
  rw [shapeWithin_mono (Nat.le_max_right n m) second] at common
  exact (Option.some.inj common).symm

theorem HasExtent.within {ms : List M} {es : List Extent} (extents : List.Forall₂ r.HasExtent ms es) :
    ∃ n, List.Forall₂ (fun m e => (r.part m).extent? (r.extentWithin n) = some e) ms es := by
  induction extents with
  | nil => exact ⟨0, .nil⟩
  | cons first _ ih =>
    obtain ⟨n, first⟩ := first
    obtain ⟨k, rest⟩ := ih
    refine ⟨max n k, .cons (Part.extent?_mono (extentWithin_mono (Nat.le_max_left n k)) first) ?_⟩
    exact rest.imp fun _ _ found => Part.extent?_mono (extentWithin_mono (Nat.le_max_right n k)) found

/-- The shape of a struct is the one that its members' extents give. -/
theorem hasShape_iff : r.HasShape name s ↔
    ∃ ms es, r.members? name = some ms ∧ List.Forall₂ r.HasExtent ms es ∧ s = .ofMembers es := by
  constructor
  · rintro ⟨n, found⟩
    cases n with
    | zero => cases found
    | succ n =>
      obtain ⟨ms, es, declared, extents, shape⟩ := shapeWithin_succ.mp found
      exact ⟨ms, es, declared, extents.imp fun _ _ placed => ⟨n, placed⟩, shape⟩
  · rintro ⟨ms, es, declared, extents, shape⟩
    obtain ⟨n, found⟩ := HasExtent.within extents
    exact ⟨n + 1, shapeWithin_succ.mpr ⟨ms, es, declared, found, shape⟩⟩

/-- What a member takes up follows from the shapes of the structs. -/
theorem hasExtent_of_known {known : String → Option Extent} {m : M} {e : Extent}
    (sound : ∀ inner f k, r.part m = .made inner f → known inner = some k → ∃ s, r.HasShape inner s ∧ s.extent = k)
    (found : (r.part m).extent? known = some e) : r.HasExtent m e := by
  cases shape : r.part m with
  | plain extent =>
    rw [shape] at found
    exact ⟨0, by rw [shape]; exact found⟩
  | made inner f =>
    rw [shape] at found
    simp only [Part.extent?, Option.bind_eq_bind, Option.bind_eq_some_iff] at found
    obtain ⟨k, placed, result⟩ := found
    obtain ⟨s, ⟨n, within⟩, extent⟩ := sound inner f k shape placed
    refine ⟨n, ?_⟩
    simp only [shape, Part.extent?, Option.bind_eq_bind, Option.bind_eq_some_iff]
    exact ⟨k, extentWithin_eq_some.mpr ⟨s, within, extent⟩, result⟩

theorem HasExtent.known {known : String → Option Extent} {m : M} {e : Extent} (extent : r.HasExtent m e)
    (complete : ∀ inner s, r.HasShape inner s → known inner = some s.extent) : (r.part m).extent? known = some e := by
  obtain ⟨n, found⟩ := extent
  refine Part.extent?_mono ?_ found
  intro inner k within
  obtain ⟨s, shape, rfl⟩ := extentWithin_eq_some.mp within
  exact complete inner s ⟨n, shape⟩

/-- No struct stands inside itself: what it is made of has a smaller rank. -/
def Acyclic (r : Rules M) : Prop :=
  ∃ rank : String → Nat, ∀ name ms, r.members? name = some ms →
    ∀ m ∈ ms, ∀ inner f, r.part m = .made inner f → rank inner < rank name

open Classical in
noncomputable def depth (r : Rules M) (name : String) : Nat :=
  if found : ∃ n, (r.shapeWithin n name).isSome then Nat.find found else 0

theorem depth_le {n : Nat} (found : r.shapeWithin n name = some s) : r.depth name ≤ n := by
  have within : (r.shapeWithin n name).isSome := by rw [found]; rfl
  rw [depth, dif_pos ⟨n, within⟩]
  exact Nat.find_le within

theorem HasShape.at_depth (shape : r.HasShape name s) : r.shapeWithin (r.depth name) name = some s := by
  obtain ⟨n, found⟩ := shape
  have within : ∃ n, (r.shapeWithin n name).isSome := ⟨n, by rw [found]; rfl⟩
  obtain ⟨t, least⟩ := Option.isSome_iff_exists.mp (Nat.find_spec within)
  rw [depth, dif_pos within, least]
  exact congrArg some (HasShape.unique ⟨_, least⟩ ⟨n, found⟩)

theorem acyclic_of_shapes (shapes : ∀ name ms, r.members? name = some ms → ∃ s, r.HasShape name s) : r.Acyclic := by
  refine ⟨r.depth, ?_⟩
  intro name ms declared m member inner f made
  obtain ⟨s, shape⟩ := shapes name ms declared
  have found := shape.at_depth
  cases deep : r.depth name with
  | zero =>
    rw [deep] at found
    cases found
  | succ k =>
    rw [deep, shapeWithin_succ] at found
    obtain ⟨same, es, declared', extents, _⟩ := found
    cases declared.symm.trans declared'
    obtain ⟨e, _, placed⟩ := forall₂_mem_left extents member
    simp only [made, Part.extent?, Option.bind_eq_bind, Option.bind_eq_some_iff] at placed
    obtain ⟨k, within, _⟩ := placed
    obtain ⟨u, inside, _⟩ := extentWithin_eq_some.mp within
    exact Nat.lt_succ_of_le (depth_le inside)

end Rules
end ViewLang.Gpu
