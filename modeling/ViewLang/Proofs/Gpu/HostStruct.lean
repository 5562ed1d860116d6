import ViewLang.Gpu.Host
import ViewLang.Proofs.Gpu.BuiltTable

namespace ViewLang.Gpu.Host

structure Held (table : LayoutTable) (f : GpuField) (placed : PlacedField) (h : HostField) : Prop where
  name : h.name = exported f.name.value
  type : hostType f = .ok h.type
  offset : h.offset = placed.offset
  slot : FieldSlot table f placed.slot

theorem hostType_ok {table : LayoutTable} {f : GpuField} {s : Slot} (slot : FieldSlot table f s) :
    ∃ type, hostType f = .ok type := by
  unfold hostType
  have named : ∃ name, f.ty.value = .named name := by
    cases slot with
    | value named _ => exact ⟨_, named⟩
    | nested named _ _ => exact ⟨_, named⟩
  obtain ⟨name, named⟩ := named
  simp only [named, TypeExpr.baseName?]
  split
  · exact ⟨_, rfl⟩
  · exact ⟨_, rfl⟩

theorem hostType_cases {table : LayoutTable} {f : GpuField} {s : Slot} {type : HostType} (slot : FieldSlot table f s)
    (typed : hostType f = .ok type) :
    (∃ name t, f.ty.value = .named name ∧ ValueType.ofName? name = some t ∧ type = .value t ∧
      s.extent = ⟨t.size, t.align⟩) ∨
    ∃ name l, f.ty.value = .named name ∧ ValueType.ofName? name = none ∧ table.lookup name = some l ∧
      type = .nested name ∧ s.extent = l.extent := by
  cases slot with
  | value named known =>
    simp only [hostType, named, TypeExpr.baseName?, known, Except.ok.injEq] at typed
    exact .inl ⟨_, _, named, known, typed.symm, rfl⟩
  | nested named unknown found =>
    simp only [hostType, named, TypeExpr.baseName?, unknown, Except.ok.injEq] at typed
    exact .inr ⟨_, _, named, unknown, found, typed.symm, rfl⟩

theorem hostField_held {table : LayoutTable} {f : GpuField} {placed : PlacedField}
    (slot : FieldSlot table f placed.slot) : ∃ h, hostField f placed = .ok h ∧ Held table f placed h := by
  obtain ⟨type, typed⟩ := hostType_ok slot
  refine ⟨⟨exported f.name.value, type, placed.offset⟩, ?_, rfl, typed, rfl, slot⟩
  rw [hostField, typed]
  rfl

inductive Fields (table : LayoutTable) : List GpuField → List PlacedField → List HostField → Prop
  | nil : Fields table [] [] []
  | cons {f : GpuField} {placed : PlacedField} {h : HostField} {fs : List GpuField} {ps : List PlacedField}
    {hs : List HostField} (first : Held table f placed h) (rest : Fields table fs ps hs) :
    Fields table (f :: fs) (placed :: ps) (h :: hs)

theorem Fields.length {table : LayoutTable} {fs : List GpuField} {ps : List PlacedField} {hs : List HostField}
    (fields : Fields table fs ps hs) : fs.length = ps.length := by
  induction fields with
  | nil => rfl
  | cons _ _ ih => rw [List.length_cons, List.length_cons, ih]

theorem Fields.mem_placed {table : LayoutTable} {fs : List GpuField} {ps : List PlacedField} {hs : List HostField}
    (fields : Fields table fs ps hs) {placed : PlacedField} (member : placed ∈ ps) :
    ∃ f h, Held table f placed h := by
  induction fields with
  | nil => cases member
  | cons first _ ih =>
    rcases List.mem_cons.mp member with rfl | member
    · exact ⟨_, _, first⟩
    · exact ih member

theorem Fields.ne_nil {table : LayoutTable} {fs : List GpuField} {ps : List PlacedField} {hs : List HostField}
    (fields : Fields table fs ps hs) (inhabited : fs ≠ []) : ps ≠ [] ∧ hs ≠ [] := by
  cases fields with
  | nil => exact absurd rfl inhabited
  | cons _ _ => exact ⟨List.cons_ne_nil _ _, List.cons_ne_nil _ _⟩

theorem fields_held {table : LayoutTable} {fs : List GpuField} {ps : List PlacedField}
    (slots : List.Forall₂ (fun f p => FieldSlot table f (PlacedField.slot p)) fs ps) :
    ∃ hs, (fs.zip ps).mapM (fun (f, placed) => hostField f placed) = .ok hs ∧ Fields table fs ps hs := by
  induction slots with
  | nil => exact ⟨[], rfl, .nil⟩
  | cons slot _ ih =>
    obtain ⟨h, first, held⟩ := hostField_held slot
    obtain ⟨hs, rest, fields⟩ := ih
    refine ⟨h :: hs, ?_, .cons held fields⟩
    simp only [List.zip_cons_cons, List.mapM_cons, first, rest]
    rfl

theorem hostFields_held {table : LayoutTable} {s : GpuStruct} {slots : List Slot} {l : StructLayout}
    (fields : List.Forall₂ (FieldSlot table) s.fields slots) (computed : StructLayout.compute slots = .ok l) :
    ∃ hs, hostFields s l = .ok hs ∧ Fields table s.fields l.fields hs := by
  rw [← (StructLayout.compute_ok computed).2, List.forall₂_map_right_iff] at fields
  exact fields_held fields

section

variable {structs : List GpuStruct} {table : LayoutTable} {hs : List HostStruct}

/-- Every struct that has a layout has a host struct. -/
theorem hostStructs_ok (distinct : (structs.map (·.name.value)).Nodup) (built : LayoutTable.build structs = .ok table) :
    ∃ hs, structs.mapM (hostStruct table) = .ok hs := by
  obtain ⟨complete, placed⟩ := LayoutTable.build_ok distinct built
  have each (s : GpuStruct) (member : s ∈ structs) : ∃ h, hostStruct table s = .ok h := by
    obtain ⟨l, found⟩ := placed s member
    obtain ⟨decl, slots, known, fields, computed⟩ := complete.entry found
    cases ((LayoutTable.lookup_declared distinct).mpr ⟨member, rfl⟩).symm.trans known
    obtain ⟨hfs, written, _⟩ := hostFields_held fields computed
    refine ⟨⟨s.name.value, l, hfs⟩, ?_⟩
    simp only [hostStruct, found, written]
    rfl
  obtain ⟨hs, written⟩ := exists_forall₂ each
  exact ⟨hs, mapM_ok_forall₂.mpr written⟩

theorem hostStruct_ok {s : GpuStruct} {h : HostStruct} (result : hostStruct table s = .ok h) :
    h.name = s.name.value ∧ table.lookup h.name = some h.layout ∧ hostFields s h.layout = .ok h.fields := by
  unfold hostStruct at result
  split at result
  · cases result
  · rw [bind_ok_iff] at result
    obtain ⟨fields, written, final⟩ := result
    cases final
    exact ⟨rfl, ‹_›, written⟩

theorem hostStructs_names (result : structs.mapM (hostStruct table) = .ok hs) :
    hs.map (·.name) = structs.map (·.name.value) := by
  rw [mapM_ok_forall₂] at result
  have same : List.Forall₂ (· = ·) (structs.map (·.name.value)) (hs.map (·.name)) := by
    rw [List.forall₂_map_left_iff, List.forall₂_map_right_iff]
    exact result.imp fun _ _ written => (hostStruct_ok written).1.symm
  rw [List.forall₂_eq_eq_eq] at same
  exact same.symm

/-- A host struct has the layout of the struct that it stands for, and a field for each of its fields. -/
theorem hostStruct_held (distinct : (structs.map (·.name.value)).Nodup) (built : LayoutTable.build structs = .ok table)
    {s : GpuStruct} {h : HostStruct} (declared : s ∈ structs) (written : hostStruct table s = .ok h) :
    h.name = s.name.value ∧ table.lookup s.name.value = some h.layout ∧
      ∃ slots, StructLayout.compute slots = .ok h.layout ∧ Fields table s.fields h.layout.fields h.fields := by
  obtain ⟨complete, _⟩ := LayoutTable.build_ok distinct built
  obtain ⟨named, found, filled⟩ := hostStruct_ok written
  rw [named] at found
  obtain ⟨decl, slots, known, fields, computed⟩ := complete.entry found
  cases ((LayoutTable.lookup_declared distinct).mpr ⟨declared, rfl⟩).symm.trans known
  obtain ⟨hfs, same, held⟩ := hostFields_held fields computed
  cases filled.symm.trans same
  exact ⟨named, found, slots, computed, held⟩

/-- What passes from the structs inside a struct to the struct itself holds of all host structs. -/
theorem forall_hostStruct {P : String → StructLayout → Prop} (distinct : (structs.map (·.name.value)).Nodup)
    (built : LayoutTable.build structs = .ok table) (result : structs.mapM (hostStruct table) = .ok hs)
    (step : ∀ {before : LayoutTable} {s : GpuStruct} {slots : List Slot} {h : HostStruct},
      before <+: table → (∀ other k, before.lookup other = some k → P other k) → s ∈ structs → h ∈ hs →
      h.name = s.name.value → table.lookup h.name = some h.layout → StructLayout.compute slots = .ok h.layout →
      List.Forall₂ (FieldSlot before) s.fields slots → Fields before s.fields h.layout.fields h.fields →
      P h.name h.layout) :
    ∀ name l, table.lookup name = some l → P name l := by
  obtain ⟨complete, placed⟩ := LayoutTable.build_ok distinct built
  refine complete.forall_placed ?_
  intro before name s slots l grows earlier found known fields computed
  obtain ⟨member, rfl⟩ := (LayoutTable.lookup_declared distinct).mp known
  obtain ⟨h, inside, written⟩ := forall₂_mem_left (mapM_ok_forall₂.mp result) member
  obtain ⟨named, laid, filled⟩ := hostStruct_ok written
  cases (named ▸ laid).symm.trans found
  obtain ⟨hfs, same, held⟩ := hostFields_held fields computed
  cases filled.symm.trans same
  exact named ▸ step grows earlier member inside named laid computed fields held

end

end ViewLang.Gpu.Host
