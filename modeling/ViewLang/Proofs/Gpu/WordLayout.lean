import ViewLang.Proofs.Gpu.Placement

namespace ViewLang.Gpu

theorem fitting_of_lt {op : Overflow} {n : Nat} (fits : n < UInt32.size) : fitting op n = .ok n := if_pos fits

theorem fitting_error_iff {op o : Overflow} {n : Nat} : fitting op n = .error o ↔ o = op ∧ UInt32.size ≤ n := by
  unfold fitting
  by_cases fits : n < UInt32.size
  · have small : ¬ UInt32.size ≤ n := Nat.not_le_of_lt fits
    simp [fits, small]
  · simp [fits, Nat.le_of_not_lt fits, eq_comm]

theorem lt_of_fitting {op : Overflow} {n m : Nat} (result : fitting op n = .ok m) : n < UInt32.size := by
  by_contra large
  rw [fitting_error_iff.mpr ⟨rfl, Nat.le_of_not_lt large⟩] at result
  cases result

/-- A word is rounded up, or refused, by whether the multiple that it is rounded to is a word. -/
theorem roundUp_word {value : Nat} (word : value < UInt32.size) (align : Nat) :
    roundUp value align = fitting .multiply (ceil value align) := by
  unfold roundUp ceil
  split
  · rw [fitting_of_lt word]
  · rfl

theorem roundUp_error_iff {value align : Nat} (word : value < UInt32.size) :
    (∃ o, roundUp value align = .error o) ↔ UInt32.size ≤ ceil value align := by
  rw [roundUp_word word]
  constructor
  · rintro ⟨o, refused⟩
    exact (fitting_error_iff.mp refused).2
  · intro large
    exact ⟨.multiply, fitting_error_iff.mpr ⟨rfl, large⟩⟩

namespace Shape

theorem le_stopFrom (stop : Nat) (es : List Extent) : stop ≤ stopFrom stop es := by
  induction es generalizing stop with
  | nil => exact Nat.le_refl stop
  | cons e es ih =>
    have start := le_ceil stop e.align
    have later := ih (ceil stop e.align + e.size)
    rw [stopFrom]
    omega

theorem offset_le_stopFrom {stop offset : Nat} {es : List Extent} (member : offset ∈ offsetsFrom stop es) :
    offset ≤ stopFrom stop es := by
  induction es generalizing stop with
  | nil => cases member
  | cons e es ih =>
    rcases List.mem_cons.mp member with rfl | later
    · have behind := le_stopFrom (ceil stop e.align + e.size) es
      rw [stopFrom]
      omega
    · exact ih later

theorem stopFrom_le_size (es : List Extent) : stopFrom 0 es ≤ (ofMembers es).size := le_ceil _ _

theorem maxAlign_lt {es : List Extent} {bound : Nat} (one : 1 < bound) (words : ∀ e ∈ es, e.align < bound) :
    maxAlign es < bound := by
  induction es with
  | nil => exact one
  | cons e es ih =>
    have first := words e List.mem_cons_self
    have others := ih fun e member => words e (List.mem_cons_of_mem _ member)
    rw [maxAlign]
    omega

end Shape

namespace StructLayout

/-- Fields are refused only when their exact end is no word. -/
theorem place_error {offset : Nat} {slots : List Slot} {o : Overflow} (word : offset < UInt32.size)
    (refused : place offset slots = .error o) : UInt32.size ≤ Shape.stopFrom offset (slots.map Slot.extent) := by
  induction slots generalizing offset with
  | nil => cases refused
  | cons s ss ih =>
    have behind := Shape.le_stopFrom (ceil offset s.align + s.size) (ss.map Slot.extent)
    rw [List.map_cons, Shape.stopFrom]
    simp only [place, bind_error_iff] at refused
    rcases refused with rounding | ⟨start, rounded, adding | ⟨stop, added, rest⟩⟩
    · have large := (roundUp_error_iff word).mp ⟨o, rounding⟩
      exact Nat.le_trans (Nat.le_trans large (Nat.le_add_right _ _)) behind
    · rw [roundUp_ok rounded] at adding
      exact Nat.le_trans (fitting_error_iff.mp adding).2 behind
    · -- The end of this field is a word, and the fields behind it start there.
      rw [roundUp_ok rounded] at added
      have small := lt_of_fitting added
      rw [fitting_ok added] at rest
      rcases rest with rest | ⟨last, -, final⟩
      · exact ih small rest
      · cases final

theorem compute_error {slots : List Slot} {o : Overflow} (refused : compute slots = .error o) :
    UInt32.size ≤ (Shape.ofMembers (slots.map Slot.extent)).size := by
  have grows := Shape.stopFrom_le_size (slots.map Slot.extent)
  simp only [compute, bind_error_iff] at refused
  rcases refused with placing | ⟨⟨fields, stop⟩, placed, rounding⟩
  · exact Nat.le_trans (place_error (by decide) placing) grows
  · obtain ⟨-, -, rfl⟩ := place_ok placed
    rcases rounding with rounding | ⟨size, -, final⟩
    · by_cases word : Shape.stopFrom 0 (slots.map Slot.extent) < UInt32.size
      · rw [maxAlign_eq] at rounding
        exact (roundUp_error_iff word).mp ⟨o, rounding⟩
      · exact Nat.le_trans (Nat.le_of_not_lt word) grows
    · cases final

theorem compute_size_lt {slots : List Slot} {l : StructLayout} (result : compute slots = .ok l) :
    l.size < UInt32.size := by
  simp only [compute, bind_ok_iff] at result
  obtain ⟨⟨fields, stop⟩, -, size, rounded, final⟩ := result
  cases final
  have positive : maxAlign slots ≠ 0 := by
    rw [maxAlign_eq]
    exact Nat.ne_of_gt (Shape.maxAlign_pos _)
  rw [roundUp, if_neg positive] at rounded
  rw [fitting_ok rounded]
  exact lt_of_fitting rounded

theorem compute_error_iff {slots : List Slot} :
    (∃ o, compute slots = .error o) ↔ UInt32.size ≤ (Shape.ofMembers (slots.map Slot.extent)).size := by
  constructor
  · rintro ⟨o, refused⟩
    exact compute_error refused
  · intro large
    cases result : compute slots with
    | error o => exact ⟨o, rfl⟩
    | ok l =>
      have small : l.shape.size < UInt32.size := compute_size_lt result
      rw [(compute_ok result).1] at small
      exact absurd large (Nat.not_le_of_lt small)

theorem compute_succeeds {slots : List Slot}
    (small : (Shape.ofMembers (slots.map Slot.extent)).size < UInt32.size) : ∃ l, compute slots = .ok l := by
  cases result : compute slots with
  | ok l => exact ⟨l, rfl⟩
  | error o => exact absurd (compute_error result) (Nat.not_le_of_lt small)

/-- Every field starts before the end of the struct. -/
theorem compute_offset_lt {slots : List Slot} {l : StructLayout} (result : compute slots = .ok l) :
    ∀ p ∈ l.fields, p.offset < UInt32.size := by
  intro p member
  have small : l.shape.size < UInt32.size := compute_size_lt result
  have offset : p.offset ∈ l.shape.offsets := List.mem_map_of_mem member
  rw [(compute_ok result).1] at offset small
  have inside := Nat.le_trans (Shape.offset_le_stopFrom offset) (Shape.stopFrom_le_size _)
  exact Nat.lt_of_le_of_lt inside small

theorem compute_align_lt {slots : List Slot} {l : StructLayout} (words : ∀ s ∈ slots, s.align < UInt32.size)
    (result : compute slots = .ok l) : l.align < UInt32.size := by
  have align : l.align = Shape.maxAlign (slots.map Slot.extent) := congrArg Shape.align (compute_ok result).1
  rw [align]
  apply Shape.maxAlign_lt (by decide)
  intro e member
  obtain ⟨s, slot, rfl⟩ := List.mem_map.mp member
  exact words s slot

end StructLayout

def Slot.ofWords (field : String × UInt32 × UInt32) : Slot := ⟨field.1, field.2.1.toNat, field.2.2.toNat⟩

/-- Of fields with words for sizes and alignments, the layout is refused exactly when the exact size of the struct is
no word. Otherwise the fields stand in their order at the exact offsets, size and alignment are exact, and all of them
are words. A word is refused to be rounded up exactly when the multiple is no word. -/
theorem layout_refused_iff (fields : List (String × UInt32 × UInt32)) :
    ((∃ o, StructLayout.compute (fields.map Slot.ofWords) = .error o) ↔
      UInt32.size ≤ (Shape.ofMembers (fields.map fun f => (Slot.ofWords f).extent)).size) ∧
    ((Shape.ofMembers (fields.map fun f => (Slot.ofWords f).extent)).size < UInt32.size →
      ∃ l, StructLayout.compute (fields.map Slot.ofWords) = .ok l) ∧
    (∀ l, StructLayout.compute (fields.map Slot.ofWords) = .ok l →
      l.shape = Shape.ofMembers (fields.map fun f => (Slot.ofWords f).extent) ∧
      l.fields.map PlacedField.slot = fields.map Slot.ofWords ∧
      (∀ p ∈ l.fields, p.offset < UInt32.size) ∧ l.size < UInt32.size ∧ l.align < UInt32.size) ∧
    ∀ value align : UInt32,
      ((∃ o, roundUp value.toNat align.toNat = .error o) ↔ UInt32.size ≤ ceil value.toNat align.toNat) ∧
      ∀ n, roundUp value.toNat align.toNat = .ok n → n = ceil value.toNat align.toNat ∧ n < UInt32.size := by
  have extents : (fields.map Slot.ofWords).map Slot.extent = fields.map fun f => (Slot.ofWords f).extent :=
    List.map_map
  rw [← extents]
  refine ⟨StructLayout.compute_error_iff, StructLayout.compute_succeeds, ?_, ?_⟩
  · intro l result
    have words : ∀ s ∈ fields.map Slot.ofWords, s.align < UInt32.size := by
      intro s member
      obtain ⟨f, -, rfl⟩ := List.mem_map.mp member
      exact f.2.2.toNat_lt
    obtain ⟨shaped, slots⟩ := StructLayout.compute_ok result
    have offsets := StructLayout.compute_offset_lt result
    have size := StructLayout.compute_size_lt result
    exact ⟨shaped, slots, offsets, size, StructLayout.compute_align_lt words result⟩
  · intro value align
    refine ⟨roundUp_error_iff value.toNat_lt, ?_⟩
    intro n result
    rw [roundUp_word value.toNat_lt] at result
    rw [fitting_ok result]
    exact ⟨rfl, lt_of_fitting result⟩

-- Two fields that together just leave the words, and four bytes less.
example : (StructLayout.compute [⟨"a", 4294967292, 4⟩, ⟨"b", 4, 4⟩]).isOk = false ∧
    (StructLayout.compute [⟨"a", 4294967288, 4⟩, ⟨"b", 4, 4⟩]).isOk = true := by decide

end ViewLang.Gpu
