import Mathlib.Data.List.Forall2
import ViewLang.Gpu.Layout
import ViewLang.Proofs.Success

namespace ViewLang.Gpu

def ceil (value align : Nat) : Nat := if align = 0 then value else (value + align - 1) / align * align

theorem le_ceil (value align : Nat) : value ≤ ceil value align := by
  unfold ceil
  split
  · exact Nat.le_refl value
  · have split := Nat.div_add_mod (value + align - 1) align
    have rest := Nat.mod_lt (value + align - 1) (Nat.pos_of_ne_zero ‹_›)
    rw [Nat.mul_comm] at split
    omega

theorem dvd_ceil (value : Nat) {align : Nat} (positive : 0 < align) : align ∣ ceil value align := by
  rw [ceil, if_neg (by omega)]
  exact Nat.dvd_mul_left _ _

theorem ceil_lt (value : Nat) {align : Nat} (positive : 0 < align) : ceil value align < value + align := by
  have bound := Nat.div_mul_le_self (value + align - 1) align
  rw [ceil, if_neg (by omega)]
  omega

/-- Of the multiples of `align`, only one lies less than `align` behind `value`. -/
theorem ceil_eq_iff {value align start : Nat} (positive : 0 < align) :
    ceil value align = start ↔ align ∣ start ∧ value ≤ start ∧ start < value + align := by
  have aligned := dvd_ceil value positive
  have above := le_ceil value align
  have below := ceil_lt value positive
  constructor
  · rintro rfl
    exact ⟨aligned, above, below⟩
  · rintro ⟨multiple, low, high⟩
    obtain ⟨i, first⟩ := aligned
    obtain ⟨j, second⟩ := multiple
    rw [first] at above below ⊢
    rw [second] at low high ⊢
    have left : align * i < align * (j + 1) := by rw [Nat.mul_add]; omega
    have right : align * j < align * (i + 1) := by rw [Nat.mul_add]; omega
    have upper := Nat.lt_of_mul_lt_mul_left left
    have lower := Nat.lt_of_mul_lt_mul_left right
    have same : i = j := by omega
    rw [same]

theorem ceil_of_dvd {value align : Nat} (positive : 0 < align) (multiple : align ∣ value) :
    ceil value align = value :=
  (ceil_eq_iff positive).mpr ⟨multiple, Nat.le_refl value, by omega⟩

structure Extent where
  size : Nat
  align : Nat
deriving Repr, DecidableEq

structure Shape where
  offsets : List Nat
  size : Nat
  align : Nat
deriving Repr, DecidableEq

namespace Shape

def extent (s : Shape) : Extent := ⟨s.size, s.align⟩

def offsetsFrom (stop : Nat) : List Extent → List Nat
  | [] => []
  | e :: es => ceil stop e.align :: offsetsFrom (ceil stop e.align + e.size) es

def stopFrom (stop : Nat) : List Extent → Nat
  | [] => stop
  | e :: es => stopFrom (ceil stop e.align + e.size) es

def maxAlign : List Extent → Nat
  | [] => 1
  | e :: es => max e.align (maxAlign es)

def ofMembers (es : List Extent) : Shape :=
  ⟨offsetsFrom 0 es, ceil (stopFrom 0 es) (maxAlign es), maxAlign es⟩

theorem maxAlign_pos (es : List Extent) : 0 < maxAlign es := by
  induction es with
  | nil => exact Nat.one_pos
  | cons e es ih => exact Nat.lt_of_lt_of_le ih (Nat.le_max_right _ _)

theorem offsetsFrom_append (stop : Nat) (left right : List Extent) :
    offsetsFrom stop (left ++ right) = offsetsFrom stop left ++ offsetsFrom (stopFrom stop left) right := by
  induction left generalizing stop with
  | nil => rfl
  | cons e es ih =>
    simp only [List.cons_append, offsetsFrom, stopFrom]
    rw [ih]

theorem stopFrom_append (stop : Nat) (left right : List Extent) :
    stopFrom stop (left ++ right) = stopFrom (stopFrom stop left) right := by
  induction left generalizing stop with
  | nil => rfl
  | cons e es ih =>
    simp only [List.cons_append, stopFrom]
    rw [ih]

theorem maxAlign_append (left right : List Extent) :
    maxAlign (left ++ right) = max (maxAlign left) (maxAlign right) := by
  induction left with
  | nil =>
    have positive := maxAlign_pos right
    simp only [List.nil_append, maxAlign]
    omega
  | cons e es ih =>
    simp only [List.cons_append, maxAlign]
    rw [ih, Nat.max_assoc]

end Shape

def Slot.extent (s : Slot) : Extent := ⟨s.size, s.align⟩

def PlacedField.slot (p : PlacedField) : Slot := ⟨p.name, p.size, p.align⟩

def StructLayout.shape (l : StructLayout) : Shape := ⟨l.fields.map (·.offset), l.size, l.align⟩

def StructLayout.extent (l : StructLayout) : Extent := l.shape.extent

theorem fitting_ok {op : Overflow} {n m : Nat} (result : fitting op n = .ok m) : m = n := by
  unfold fitting at result
  split at result
  · exact (Except.ok.inj result).symm
  · cases result

theorem roundUp_ok {value align n : Nat} (result : roundUp value align = .ok n) : n = ceil value align := by
  unfold roundUp at result
  unfold ceil
  split at result
  · rw [if_pos ‹_›]
    exact (Except.ok.inj result).symm
  · rw [if_neg ‹_›]
    exact fitting_ok result

namespace StructLayout

theorem place_ok {offset stop : Nat} {slots : List Slot} {fields : List PlacedField}
    (result : place offset slots = .ok (fields, stop)) :
    fields.map (·.offset) = Shape.offsetsFrom offset (slots.map Slot.extent) ∧
      fields.map PlacedField.slot = slots ∧ stop = Shape.stopFrom offset (slots.map Slot.extent) := by
  induction slots generalizing offset fields with
  | nil =>
    cases result
    exact ⟨rfl, rfl, rfl⟩
  | cons s ss ih =>
    simp only [place, bind_ok_iff] at result
    obtain ⟨start, rounded, finish, added, ⟨rest, last⟩, others, final⟩ := result
    cases final
    have first := roundUp_ok rounded
    have next := fitting_ok added
    subst first next
    obtain ⟨offsets, names, stops⟩ := ih others
    exact ⟨congrArg _ offsets, congrArg _ names, stops⟩

theorem maxAlign_eq (slots : List Slot) : maxAlign slots = Shape.maxAlign (slots.map Slot.extent) := by
  have general (n : Nat) (positive : 0 < n) :
      slots.foldl (fun n s => max n s.align) n = max n (Shape.maxAlign (slots.map Slot.extent)) := by
    induction slots generalizing n with
    | nil =>
      simp only [List.foldl_nil, List.map_nil, Shape.maxAlign]
      omega
    | cons s ss ih =>
      rw [List.foldl_cons, ih (max n s.align) (by omega), Nat.max_assoc]
      rfl
  have positive := Shape.maxAlign_pos (slots.map Slot.extent)
  rw [maxAlign, general 1 Nat.one_pos]
  omega

/-- A computed layout is the shape of its slots, in their order. -/
theorem compute_ok {slots : List Slot} {l : StructLayout} (result : compute slots = .ok l) :
    l.shape = Shape.ofMembers (slots.map Slot.extent) ∧ l.fields.map PlacedField.slot = slots := by
  simp only [compute, bind_ok_iff] at result
  obtain ⟨⟨fields, stop⟩, placed, size, rounded, final⟩ := result
  cases final
  obtain ⟨offsets, names, stops⟩ := place_ok placed
  have last := roundUp_ok rounded
  subst last stops
  rw [maxAlign_eq]
  refine ⟨?_, names⟩
  simp only [shape, offsets, Shape.ofMembers]

theorem compute_shape {slots : List Slot} {l : StructLayout} (result : compute slots = .ok l) :
    l.shape = .ofMembers (l.fields.map fun p => p.slot.extent) := by
  obtain ⟨shaped, named⟩ := compute_ok result
  rw [shaped, ← named, List.map_map]
  rfl

end StructLayout
end ViewLang.Gpu
