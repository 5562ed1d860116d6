import Mathlib.Order.Bounds.Basic
import ViewLang.Proofs.Gpu.Containment

namespace ViewLang.Gpu

theorem ceil_isLeast (value : Nat) {align : Nat} (positive : 0 < align) :
    IsLeast {start | align ∣ start ∧ value ≤ start} (ceil value align) := by
  refine ⟨⟨dvd_ceil value positive, le_ceil value align⟩, ?_⟩
  rintro start ⟨multiple, above⟩
  by_contra less
  rw [Nat.not_le] at less
  have below := ceil_lt value positive
  have same : ceil value align = start := (ceil_eq_iff positive).mpr ⟨multiple, above, by omega⟩
  omega

theorem dvd_of_powers {a b : Nat} (left : a.isPowerOfTwo) (right : b.isPowerOfTwo) (le : a ≤ b) : a ∣ b := by
  obtain ⟨i, rfl⟩ := left
  obtain ⟨j, rfl⟩ := right
  exact Nat.pow_dvd_pow 2 ((Nat.pow_le_pow_iff_right (by decide)).mp le)

/-- The largest of powers of two is a power of two that all of them divide. -/
theorem maxAlign_powers {es : List Extent} (powers : ∀ e ∈ es, e.align.isPowerOfTwo) :
    (Shape.maxAlign es).isPowerOfTwo ∧ ∀ e ∈ es, e.align ∣ Shape.maxAlign es := by
  have largest : (Shape.maxAlign es).isPowerOfTwo ∧ ∀ e ∈ es, e.align ≤ Shape.maxAlign es := by
    induction es with
    | nil => exact ⟨⟨0, rfl⟩, by simp⟩
    | cons e es ih =>
      obtain ⟨power, above⟩ := ih fun other member => powers other (List.mem_cons_of_mem _ member)
      refine ⟨?_, List.forall_mem_cons.mpr ⟨Nat.le_max_left _ _, fun other member => ?_⟩⟩
      · rcases Nat.le_total e.align (Shape.maxAlign es) with le | le
        · rwa [Shape.maxAlign, Nat.max_eq_right le]
        · rw [Shape.maxAlign, Nat.max_eq_left le]
          exact powers e List.mem_cons_self
      · exact Nat.le_trans (above other member) (Nat.le_max_right _ _)
  exact ⟨largest.1, fun e member => dvd_of_powers (powers e member) largest.1 (largest.2 e member)⟩

theorem valueType_aligns : ∀ t ∈ ValueType.table, t.align = 4 ∨ t.align = 8 ∨ t.align = 16 := by decide

theorem valueType_power {name : String} {t : ValueType} (known : ValueType.ofName? name = some t) :
    t.align.isPowerOfTwo := by
  rcases valueType_aligns t (List.mem_of_find?_eq_some known) with same | same | same
  · exact ⟨2, same⟩
  · exact ⟨3, same⟩
  · exact ⟨4, same⟩

theorem FieldSlot.power {table : LayoutTable} {f : GpuField} {slot : Slot} (field : FieldSlot table f slot)
    (powers : ∀ name l, table.lookup name = some l → l.align.isPowerOfTwo) : slot.align.isPowerOfTwo := by
  cases field with
  | value _ known => exact valueType_power known
  | nested _ _ placed => exact powers _ _ placed

theorem slot_powers {table : LayoutTable} {fields : List GpuField} {slots : List Slot}
    (each : List.Forall₂ (FieldSlot table) fields slots)
    (powers : ∀ name l, table.lookup name = some l → l.align.isPowerOfTwo) :
    ∀ e ∈ slots.map Slot.extent, e.align.isPowerOfTwo := by
  intro e member
  obtain ⟨slot, inside, rfl⟩ := List.mem_map.mp member
  obtain ⟨f, _, field⟩ := forall₂_mem_right each inside
  exact field.power powers

theorem Built.align_power {decls : List (String × GpuStruct)} {table : LayoutTable} (built : Built decls table) :
    ∀ name l, table.lookup name = some l → l.align.isPowerOfTwo := by
  refine built.forall_placed ?_
  intro before name decl slots l _ earlier _ _ fields computed
  have same : l.align = Shape.maxAlign (slots.map Slot.extent) :=
    congrArg Shape.align (StructLayout.compute_ok computed).1
  rw [same]
  exact (maxAlign_powers (slot_powers fields earlier)).1

theorem FieldSlot.of_value {table : LayoutTable} {f : GpuField} {slot : Slot} {type : String} {t : ValueType}
    (field : FieldSlot table f slot) (typed : f.ty.value = .named type) (known : ValueType.ofName? type = some t) :
    slot.size = t.size ∧ slot.align = t.align := by
  cases field with
  | value named found =>
    cases typed.symm.trans named
    cases known.symm.trans found
    exact ⟨rfl, rfl⟩
  | nested named unknown _ =>
    cases typed.symm.trans named
    rw [known] at unknown
    cases unknown

theorem FieldSlot.of_nested {table : LayoutTable} {f : GpuField} {slot : Slot} {type : String} {l : StructLayout}
    (field : FieldSlot table f slot) (typed : f.ty.value = .named type) (unknown : ValueType.ofName? type = none)
    (found : table.lookup type = some l) : slot.size = l.size ∧ slot.align = l.align := by
  cases field with
  | value named known =>
    cases typed.symm.trans named
    rw [unknown] at known
    cases known
  | nested named _ placed =>
    cases typed.symm.trans named
    cases found.symm.trans placed
    exact ⟨rfl, rfl⟩

def PlacedField.stop (p : PlacedField) : Nat := p.offset + p.size

def lastStop (fields : List PlacedField) : Nat := (fields.getLast?.map PlacedField.stop).getD 0

def Placed : Nat → List PlacedField → Prop
  | _, [] => True
  | stop, p :: rest => p.offset = ceil stop p.align ∧ Placed p.stop rest

def placedStop : Nat → List PlacedField → Nat
  | stop, [] => stop
  | _, p :: rest => placedStop p.stop rest

theorem placed_of_offsets {stop : Nat} {fields : List PlacedField}
    (offsets : fields.map (·.offset) = Shape.offsetsFrom stop (fields.map fun p => p.slot.extent)) :
    Placed stop fields ∧ placedStop stop fields = Shape.stopFrom stop (fields.map fun p => p.slot.extent) := by
  induction fields generalizing stop with
  | nil => exact ⟨trivial, rfl⟩
  | cons p rest ih =>
    simp only [List.map_cons, Shape.offsetsFrom, List.cons.injEq] at offsets
    obtain ⟨start, others⟩ := offsets
    have start : p.offset = ceil stop p.align := start
    have next : ceil stop p.slot.extent.align + p.slot.extent.size = p.stop := by
      rw [PlacedField.stop, start]
      rfl
    rw [next] at others
    obtain ⟨placed, stops⟩ := ih others
    refine ⟨⟨start, placed⟩, ?_⟩
    rw [List.map_cons, Shape.stopFrom, next]
    exact stops

theorem Placed.le_stop {stop : Nat} {fields : List PlacedField} (placed : Placed stop fields) :
    stop ≤ placedStop stop fields := by
  induction fields generalizing stop with
  | nil => exact Nat.le_refl stop
  | cons p rest ih =>
    have start := le_ceil stop p.align
    have later := ih placed.2
    rw [PlacedField.stop, placed.1] at later
    rw [placedStop, PlacedField.stop, placed.1]
    omega

/-- Behind some of its fields, a struct goes on from where the last of them ends. -/
theorem Placed.behind {stop : Nat} {before : List PlacedField} {p : PlacedField} {after : List PlacedField}
    (placed : Placed stop (before ++ p :: after)) :
    p.offset = ceil ((before.getLast?.map PlacedField.stop).getD stop) p.align := by
  induction before generalizing stop with
  | nil => exact placed.1
  | cons q before ih =>
    have rest := ih placed.2
    rw [List.getLast?_cons]
    cases last : before.getLast? with
    | none => simpa [last] using rest
    | some other => simpa [last] using rest

structure LaidOut (table : LayoutTable) (s : GpuStruct) (l : StructLayout) : Prop where
  fields : List.Forall₂ (fun f p => FieldSlot table f p.slot) s.fields l.fields
  placed : Placed 0 l.fields
  power : l.align.isPowerOfTwo
  aligned : ∀ p ∈ l.fields, p.align ∣ l.align
  size : l.size = ceil (placedStop 0 l.fields) l.align

namespace LayoutTable

section

variable {structs : List GpuStruct} {table : LayoutTable}

theorem laidOut (distinct : (structs.map (·.name.value)).Nodup) (result : build structs = .ok table)
    {s : GpuStruct} (member : s ∈ structs) {l : StructLayout} (found : table.lookup s.name.value = some l) :
    LaidOut table s l := by
  obtain ⟨built, -⟩ := build_ok distinct result
  obtain ⟨decl, slots, declared, fields, computed⟩ := built.entry found
  have same : decl = s := by
    rw [(lookup_declared distinct).mpr ⟨member, rfl⟩] at declared
    exact (Option.some.inj declared).symm
  subst same
  have shaped := StructLayout.compute_shape computed
  obtain ⟨-, names⟩ := StructLayout.compute_ok computed
  obtain ⟨placed, stops⟩ := placed_of_offsets (congrArg Shape.offsets shaped)
  have align : l.align = Shape.maxAlign (l.fields.map fun p => p.slot.extent) := congrArg Shape.align shaped
  have extents : slots.map Slot.extent = l.fields.map fun p => p.slot.extent := by
    rw [← names, List.map_map]
    rfl
  obtain ⟨power, divides⟩ := maxAlign_powers (slot_powers fields built.align_power)
  rw [extents, ← align] at power divides
  refine ⟨?_, placed, power, fun p inside => ?_, ?_⟩
  · rw [← names, List.forall₂_map_right_iff] at fields
    exact fields
  · exact divides p.slot.extent (List.mem_map_of_mem inside)
  · rw [stops, align]
    exact congrArg Shape.size shaped

end

end LayoutTable

structure PlacedValue where
  offset : Nat
  type : ValueType
deriving Repr, DecidableEq

def PlacedValue.stop (v : PlacedValue) : Nat := v.offset + v.type.size

/-- The values that placed fields hold when their struct starts at `base`. In the place of a nested struct stand the
values that it holds. -/
inductive Flattens (structs : List GpuStruct) (table : LayoutTable) :
    List GpuField → List PlacedField → Nat → List PlacedValue → Prop
  | nil {base : Nat} : Flattens structs table [] [] base []
  | value {f : GpuField} {p : PlacedField} {fs : List GpuField} {ps : List PlacedField} {base : Nat} {type : String}
    {t : ValueType} {vs : List PlacedValue} (typed : f.ty.value = .named type) (known : ValueType.ofName? type = some t)
    (rest : Flattens structs table fs ps base vs) :
    Flattens structs table (f :: fs) (p :: ps) base (⟨base + p.offset, t⟩ :: vs)
  | nested {f : GpuField} {p : PlacedField} {fs : List GpuField} {ps : List PlacedField} {base : Nat} {s : GpuStruct}
    {l : StructLayout} {inner vs : List PlacedValue} (typed : f.ty.value = .named s.name.value)
    (unknown : ValueType.ofName? s.name.value = none) (declared : s ∈ structs)
    (found : table.lookup s.name.value = some l)
    (inside : Flattens structs table s.fields l.fields (base + p.offset) inner)
    (rest : Flattens structs table fs ps base vs) :
    Flattens structs table (f :: fs) (p :: ps) base (inner ++ vs)

structure Ordered (start stop : Nat) (vs : List PlacedValue) : Prop where
  aligned : ∀ v ∈ vs, v.type.align ∣ v.offset
  within : ∀ v ∈ vs, start ≤ v.offset ∧ v.stop ≤ stop
  apart : vs.Pairwise fun v w => v.stop ≤ w.offset

theorem Ordered.mono {start stop start' stop' : Nat} {vs : List PlacedValue} (ordered : Ordered start stop vs)
    (low : start' ≤ start) (high : stop ≤ stop') : Ordered start' stop' vs := by
  refine ⟨ordered.aligned, fun v member => ?_, ordered.apart⟩
  have within := ordered.within v member
  omega

theorem Ordered.append {start middle stop : Nat} {left right : List PlacedValue} (first : Ordered start middle left)
    (second : Ordered middle stop right) (low : start ≤ middle) (high : middle ≤ stop) :
    Ordered start stop (left ++ right) := by
  have before := first.mono (Nat.le_refl start) high
  have behind := second.mono low (Nat.le_refl stop)
  refine ⟨?_, ?_, List.pairwise_append.mpr ⟨first.apart, second.apart, fun v inLeft w inRight => ?_⟩⟩
  · exact List.forall_mem_append.mpr ⟨before.aligned, behind.aligned⟩
  · exact List.forall_mem_append.mpr ⟨before.within, behind.within⟩
  · exact Nat.le_trans (first.within v inLeft).2 (second.within w inRight).1

theorem ordered_single {v : PlacedValue} (aligned : v.type.align ∣ v.offset) : Ordered v.offset v.stop [v] := by
  refine ⟨by simpa using aligned, ?_, List.pairwise_singleton _ v⟩
  intro w member
  rw [List.mem_singleton.mp member]
  exact ⟨Nat.le_refl _, Nat.le_refl _⟩

section

variable {structs : List GpuStruct} {table : LayoutTable}

/-- The values of fields lie where the fields do, if the struct starts where the fields' alignments want it to. -/
theorem Flattens.ordered (distinct : (structs.map (·.name.value)).Nodup)
    (result : LayoutTable.build structs = .ok table) {fs : List GpuField} {ps : List PlacedField} {base : Nat}
    {vs : List PlacedValue} (flat : Flattens structs table fs ps base vs) :
    ∀ {stop : Nat}, List.Forall₂ (fun f p => FieldSlot table f p.slot) fs ps → Placed stop ps →
      (∀ p ∈ ps, 0 < p.align ∧ p.align ∣ base) → Ordered (base + stop) (base + placedStop stop ps) vs := by
  induction flat with
  | nil =>
    intro stop _ _ _
    exact ⟨by simp, by simp, .nil⟩
  | @value f p fs ps base type t vs typed known _ ih =>
    intro stop slots placed aligned
    obtain ⟨slot, slots⟩ := List.forall₂_cons.mp slots
    obtain ⟨start, placed⟩ := placed
    rw [List.forall_mem_cons] at aligned
    obtain ⟨⟨positive, divides⟩, aligned⟩ := aligned
    have extent : p.size = t.size ∧ p.align = t.align := slot.of_value typed known
    have multiple : t.align ∣ base + p.offset := by
      rw [← extent.2, start]
      exact Nat.dvd_add divides (dvd_ceil stop positive)
    have first : Ordered (base + p.offset) (base + p.stop) [⟨base + p.offset, t⟩] := by
      have single := ordered_single (v := ⟨base + p.offset, t⟩) multiple
      rwa [PlacedValue.stop, ← extent.1, Nat.add_assoc] at single
    have low := le_ceil stop p.align
    have high := Placed.le_stop placed
    have width : p.offset ≤ p.stop := Nat.le_add_right _ _
    exact (first.mono (by omega) (Nat.le_refl _)).append (ih slots placed aligned) (by omega) (by
      rw [placedStop]
      omega)
  | @nested f p fs ps base s l inner vs typed unknown declared found _ _ ihInner ih =>
    intro stop slots placed aligned
    obtain ⟨slot, slots⟩ := List.forall₂_cons.mp slots
    obtain ⟨start, placed⟩ := placed
    rw [List.forall_mem_cons] at aligned
    obtain ⟨⟨positive, divides⟩, aligned⟩ := aligned
    have laid := LayoutTable.laidOut distinct result declared found
    have extent : p.size = l.size ∧ p.align = l.align := slot.of_nested typed unknown found
    have multiple : l.align ∣ base + p.offset := by
      rw [← extent.2, start]
      exact Nat.dvd_add divides (dvd_ceil stop positive)
    have lower : ∀ q ∈ l.fields, 0 < q.align ∧ q.align ∣ base + p.offset := by
      intro q member
      have divides := laid.aligned q member
      have large : 0 < l.align := by rw [← extent.2]; exact positive
      exact ⟨Nat.pos_of_dvd_of_pos divides large, Nat.dvd_trans divides multiple⟩
    have first := ihInner laid.fields laid.placed lower
    have fits : placedStop 0 l.fields ≤ p.size := by
      rw [extent.1, laid.size]
      exact le_ceil _ _
    have low := le_ceil stop p.align
    have high := Placed.le_stop placed
    have width : p.stop = p.offset + p.size := rfl
    have before : Ordered (base + stop) (base + p.stop) inner := first.mono (by omega) (by omega)
    exact before.append (ih slots placed aligned) (by omega) (by
      rw [placedStop]
      omega)

/-- Fields whose nested structs can be flattened can be flattened. -/
theorem exists_flattens {before : LayoutTable} {fs : List GpuField} {ps : List PlacedField}
    (slots : List.Forall₂ (fun f p => FieldSlot before f p.slot) fs ps)
    (inner : ∀ name l, before.lookup name = some l → ∃ s ∈ structs, s.name.value = name ∧
      table.lookup name = some l ∧ ∀ base, ∃ vs, Flattens structs table s.fields l.fields base vs) (base : Nat) :
    ∃ vs, Flattens structs table fs ps base vs := by
  induction slots with
  | nil => exact ⟨[], .nil⟩
  | @cons f p fs ps slot _ ih =>
    obtain ⟨vs, rest⟩ := ih
    generalize p.slot = found at slot
    cases slot with
    | value named known => exact ⟨_, .value named known rest⟩
    | nested named unknown placed =>
      obtain ⟨s, declared, rfl, found, flat⟩ := inner _ _ placed
      obtain ⟨values, inside⟩ := flat (base + p.offset)
      exact ⟨_, .nested named unknown declared found inside rest⟩

theorem structs_flatten (distinct : (structs.map (·.name.value)).Nodup)
    (result : LayoutTable.build structs = .ok table) :
    ∀ name l, table.lookup name = some l → ∃ s ∈ structs, s.name.value = name ∧ table.lookup name = some l ∧
      ∀ base, ∃ vs, Flattens structs table s.fields l.fields base vs := by
  obtain ⟨built, -⟩ := LayoutTable.build_ok distinct result
  refine built.forall_placed ?_
  intro before name decl slots l _ earlier found declared fields computed
  obtain ⟨member, named⟩ := (LayoutTable.lookup_declared distinct).mp declared
  obtain ⟨-, names⟩ := StructLayout.compute_ok computed
  rw [← names, List.forall₂_map_right_iff] at fields
  exact ⟨decl, member, named, found, exists_flattens fields earlier⟩

/-- The direct fields of a struct have the extents of their types, each starts at the least multiple of its alignment
that is not below the end of the one before, and the size of the struct is a multiple of its alignment. Wherever the
struct starts at a multiple of its alignment, its values stand at multiples of their own alignments, in the order of the
fields, none over another, and within the struct. -/
theorem flat_values_ordered (distinct : (structs.map (·.name.value)).Nodup)
    (result : LayoutTable.build structs = .ok table) {s : GpuStruct} (member : s ∈ structs) :
    ∃ l, table.lookup s.name.value = some l ∧ List.Forall₂ (fun f p => FieldSlot table f p.slot) s.fields l.fields ∧
      (∀ before p after, l.fields = before ++ p :: after →
        IsLeast {start | p.align ∣ start ∧ lastStop before ≤ start} p.offset) ∧
      l.align ∣ l.size ∧
      ∀ base, l.align ∣ base → (∃ vs, Flattens structs table s.fields l.fields base vs) ∧
        ∀ vs, Flattens structs table s.fields l.fields base vs →
          (∀ v ∈ vs, v.type.align ∣ v.offset ∧ base ≤ v.offset ∧ v.stop ≤ base + l.size) ∧
          vs.Pairwise fun v w => v.stop ≤ w.offset := by
  obtain ⟨l, found⟩ := (LayoutTable.build_ok distinct result).2 s member
  have laid := LayoutTable.laidOut distinct result member found
  have positive : 0 < l.align := Nat.pos_of_isPowerOfTwo laid.power
  have inner (p : PlacedField) (inside : p ∈ l.fields) : 0 < p.align :=
    Nat.pos_of_dvd_of_pos (laid.aligned p inside) positive
  refine ⟨l, found, laid.fields, ?_, ?_, fun base divides => ⟨?_, fun vs flat => ?_⟩⟩
  · intro before p after split
    have placed := laid.placed
    rw [split] at placed
    rw [placed.behind]
    exact ceil_isLeast _ (inner p (by rw [split]; simp))
  · rw [laid.size]
    exact dvd_ceil _ positive
  · obtain ⟨s', declared, named, -, flat⟩ := structs_flatten distinct result _ l found
    have same : s' = s := List.inj_on_of_nodup_map distinct declared member named
    rw [← same]
    exact flat base
  · have ordered := flat.ordered distinct result laid.fields laid.placed fun p inside =>
      ⟨inner p inside, Nat.dvd_trans (laid.aligned p inside) divides⟩
    have fits : placedStop 0 l.fields ≤ l.size := by
      rw [laid.size]
      exact le_ceil _ _
    have whole : Ordered base (base + l.size) vs := ordered.mono (by omega) (by omega)
    exact ⟨fun v inside => ⟨whole.aligned v inside, whole.within v inside⟩, whole.apart⟩

end

def diamondTable : LayoutTable :=
  [("Point", ⟨[⟨"at", 0, 8, 8⟩], 8, 8⟩),
    ("Left", ⟨[⟨"base", 0, 8, 8⟩, ⟨"weight", 8, 4, 4⟩], 16, 8⟩),
    ("Right", ⟨[⟨"tint", 0, 12, 16⟩, ⟨"base", 16, 8, 8⟩], 32, 16⟩),
    ("Pair", ⟨[⟨"first", 0, 16, 8⟩, ⟨"second", 16, 32, 16⟩], 48, 16⟩)]

open LayoutTable in
/-- A pair at byte 32: the values of its left half, the point before the weight, then those of its right half. -/
theorem flat_values_ordered_diamond :
    (diamondStructs.map (·.name.value)).Nodup ∧ build diamondStructs = .ok diamondTable ∧
      ∃ s ∈ diamondStructs, ∃ l, diamondTable.lookup s.name.value = some l ∧ l.size = 48 ∧ l.align ∣ 32 ∧
        ∃ vs, Flattens diamondStructs diamondTable s.fields l.fields 32 vs ∧
          vs.map (fun v => (v.type.name, v.offset)) = [("vec2", 32), ("f32", 40), ("vec3", 48), ("vec2", 64)] ∧
          (∀ v ∈ vs, v.type.align ∣ v.offset ∧ 32 ≤ v.offset ∧ v.stop ≤ 32 + l.size) ∧
          vs.Pairwise fun v w => v.stop ≤ w.offset := by
  have distinct : (diamondStructs.map (·.name.value)).Nodup := by decide
  have built : build diamondStructs = .ok diamondTable := rfl
  have pair : diamondStructs[0] ∈ diamondStructs := List.getElem_mem _
  have left : diamondStructs[1] ∈ diamondStructs := List.getElem_mem _
  have right : diamondStructs[2] ∈ diamondStructs := List.getElem_mem _
  have point : diamondStructs[3] ∈ diamondStructs := List.getElem_mem _
  obtain ⟨l, found, -, -, -, values⟩ := flat_values_ordered distinct built pair
  cases found
  obtain ⟨-, sound⟩ := values 32 (by decide)
  obtain ⟨vs, flat, listed⟩ : ∃ vs, Flattens diamondStructs diamondTable diamondStructs[0].fields
      [⟨"first", 0, 16, 8⟩, ⟨"second", 16, 32, 16⟩] 32 vs ∧ vs.map (fun v => (v.type.name, v.offset)) =
        [("vec2", 32), ("f32", 40), ("vec3", 48), ("vec2", 64)] :=
    ⟨_, .nested rfl rfl left rfl (.nested rfl rfl point rfl (.value rfl rfl .nil) (.value rfl rfl .nil))
      (.nested rfl rfl right rfl (.value rfl rfl (.nested rfl rfl point rfl (.value rfl rfl .nil) .nil)) .nil), rfl⟩
  exact ⟨distinct, built, _, pair, _, rfl, rfl, by decide, vs, flat, listed, sound vs flat⟩

end ViewLang.Gpu
