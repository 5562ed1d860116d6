import ViewLang.Proofs.Gpu.HostFile
import ViewLang.Proofs.Gpu.Nesting

namespace ViewLang.Gpu.Host

/-- What a type takes up in Go. An array is aligned as its elements are. -/
def GoType.part : GoType → Part
  | scalar _ => .plain (some ⟨4, 4⟩)
  | byte => .plain (some ⟨1, 1⟩)
  | array n elem =>
    match elem.part with
    | .plain e => .plain (e.map fun e => ⟨n * e.size, e.align⟩)
    | .made name f => .made name fun e => (f e).map fun e => ⟨n * e.size, e.align⟩
  | named name => .made name some

/-- Go's layout of the structs that a file declares. -/
def goRules (file : List GoDecl) : Rules GoField where
  members? name := (structsOf file).lookup name
  part f := f.2.part

/-- Rows at offsets are fields at the places of a layout, with padding between them. -/
inductive Interleaved : List GoField → List Nat → List GpuField → List PlacedField → Prop
  | nil : Interleaved [] [] [] []
  | padding (n start : Nat) {rows : List GoField} {offsets : List Nat} {fs : List GpuField} {ps : List PlacedField}
    (rest : Interleaved rows offsets fs ps) : Interleaved (("_", .array n .byte) :: rows) (start :: offsets) fs ps
  | field {f : GpuField} (placed : PlacedField) {type : String} {rows : List GoField} {offsets : List Nat}
    {fs : List GpuField} {ps : List PlacedField} (typed : f.ty.value = .named type)
    (rest : Interleaved rows offsets fs ps) :
    Interleaved ((exported f.name.value, .ofName type) :: rows) (placed.offset :: offsets) (f :: fs) (placed :: ps)

/-- In Go, in the only shape it can have, a struct of the file has its fields at the offsets of a layout and ends where
the layout does, and its constant is the size. -/
structure KeepsLayout (file : List GoDecl) (s : GpuStruct) (l : StructLayout) : Prop where
  size : (constantsOf file).lookup (s.name.value ++ "Size") = some l.size
  shape : ∃ rows shape, (structsOf file).lookup s.name.value = some rows ∧ (goRules file).HasShape s.name.value shape ∧
    (∀ other, (goRules file).HasShape s.name.value other → other = shape) ∧
    Interleaved rows shape.offsets s.fields l.fields ∧ shape.size = l.size

/-- The compared constant is the size of the type, so that there is no panic. -/
def SizeCheck.Passes (file : List GoDecl) (c : SizeCheck) : Prop :=
  ∃ shape, (goRules file).HasShape c.type shape ∧ (constantsOf file).lookup c.constant = some shape.size

structure Words (e : Extent) : Prop where
  size : 4 ∣ e.size
  align : 4 ∣ e.align
  positive : 0 < e.align

theorem valueType_words : ∀ t ∈ ValueType.table, 4 ∣ t.size ∧ 4 ∣ t.align ∧ 0 < t.align := by
  decide

theorem valueType_components : ∀ t ∈ ValueType.table, 4 * t.components = t.size := by
  decide

theorem valueType_part :
    ∀ t ∈ ValueType.table, ∀ known, (GoType.ofValueType t).part.extent? known = some ⟨t.size, 4⟩ := by
  intro t member known
  have size := valueType_components t member
  rw [Nat.mul_comm] at size
  by_cases scalar : t.isScalar = true
  · have one : t.components = 1 := beq_iff_eq.mp scalar
    rw [one] at size
    simp only [GoType.ofValueType, scalar, if_true, GoType.part, Part.extent?, ← size]
  · simp only [GoType.ofValueType, scalar, Bool.false_eq_true, if_false, GoType.part, Part.extent?, Option.map_some,
      size]

theorem maxAlign_words {es : List Extent} (words : ∀ e ∈ es, Words e) (inhabited : es ≠ []) :
    4 ∣ Shape.maxAlign es := by
  induction es with
  | nil => exact absurd rfl inhabited
  | cons e es ih =>
    have first := (words e List.mem_cons_self).align
    have positive := (words e List.mem_cons_self).positive
    cases es with
    | nil =>
      simp only [Shape.maxAlign]
      rw [Nat.max_eq_left positive]
      exact first
    | cons e' es' =>
      have rest := ih (fun other member => words other (List.mem_cons_of_mem _ member)) (List.cons_ne_nil _ _)
      rw [Shape.maxAlign]
      rcases Nat.le_total e.align (Shape.maxAlign (e' :: es')) with le | le
      · rw [Nat.max_eq_right le]
        exact rest
      · rw [Nat.max_eq_left le]
        exact first

theorem Words.ofMembers {es : List Extent} (words : ∀ e ∈ es, Words e) (inhabited : es ≠ []) :
    Words (Shape.ofMembers es).extent := by
  have align := maxAlign_words words inhabited
  have positive := Shape.maxAlign_pos es
  exact ⟨Nat.dvd_trans align (dvd_ceil _ positive), align, positive⟩

section

variable {hs : List HostStruct}

theorem gap_extents (file : List GoDecl) {stop start : Nat} (le : stop ≤ start) :
    ∃ es, List.Forall₂ (goRules file).HasExtent ((gap stop start).map Row.goField) es ∧
      Shape.stopFrom stop es = start ∧ Shape.maxAlign es = 1 ∧
      ∀ {rows : List GoField} {offsets : List Nat} {fs : List GpuField} {ps : List PlacedField},
        Interleaved rows offsets fs ps →
          Interleaved ((gap stop start).map Row.goField ++ rows) (Shape.offsetsFrom stop es ++ offsets) fs ps := by
  unfold gap
  by_cases less : stop < start
  · rw [if_pos less]
    have extent : (goRules file).HasExtent (Row.padding (start - stop)).goField ⟨(start - stop) * 1, 1⟩ := ⟨0, rfl⟩
    have same : ceil stop 1 = stop := ceil_of_dvd Nat.one_pos (Nat.one_dvd stop)
    refine ⟨[⟨(start - stop) * 1, 1⟩], .cons extent .nil, ?_, rfl, fun rest => .padding _ _ rest⟩
    simp only [Shape.stopFrom, same]
    omega
  · rw [if_neg less]
    have same : stop = start := by omega
    exact ⟨[], .nil, same, rfl, fun rest => rest⟩

def Typed (file : List GoDecl) (h : HostField) (placed : PlacedField) : Prop :=
  Words placed.slot.extent ∧ (goRules file).HasExtent (Row.field h.name h.type).goField ⟨placed.size, 4⟩

def Sized (file : List GoDecl) (name : String) (l : StructLayout) : Prop :=
  Words l.extent ∧ ∃ shape, (goRules file).HasShape name shape ∧ shape.extent = ⟨l.size, 4⟩

variable {structs : List GpuStruct} {table : LayoutTable} {file : List GoDecl}

theorem Held.goField {f : GpuField} {placed : PlacedField} {h : HostField} (held : Held table f placed h) :
    ∃ type, f.ty.value = .named type ∧ (Row.field h.name h.type).goField = (exported f.name.value, .ofName type) := by
  have typed (name : String) (same : h.type.goType = .ofName name) :
      (Row.field h.name h.type).goField = (exported f.name.value, .ofName name) := Prod.ext held.name same
  obtain ⟨name, t, named, known, type, _⟩ | ⟨name, l, named, unknown, _, type, _⟩ := hostType_cases held.slot held.type
  · refine ⟨name, named, typed name ?_⟩
    rw [type, GoType.ofName, known]
    rfl
  · refine ⟨name, named, typed name ?_⟩
    rw [type, GoType.ofName, unknown]
    rfl

theorem Held.typed {f : GpuField} {placed : PlacedField} {h : HostField} (held : Held table f placed h)
    (sized : ∀ name l, table.lookup name = some l → Sized file name l) : Typed file h placed := by
  have size (e : Extent) (same : placed.slot.extent = e) : placed.size = e.size := congrArg Extent.size same
  obtain ⟨_, t, _, known, type, extent⟩ | ⟨name, l, _, _, found, type, extent⟩ := hostType_cases held.slot held.type
  · have member : t ∈ ValueType.table := List.mem_of_find?_eq_some known
    obtain ⟨bytes, align, positive⟩ := valueType_words t member
    rw [Typed, size _ extent, extent]
    refine ⟨⟨bytes, align, positive⟩, 0, ?_⟩
    change h.type.goType.part.extent? _ = _
    rw [type]
    exact valueType_part t member _
  · obtain ⟨words, shape, ⟨n, within⟩, taken⟩ := sized name l found
    rw [Typed, size _ extent, extent]
    refine ⟨words, n, ?_⟩
    change h.type.goType.part.extent? _ = _
    rw [type, HostType.goType, GoType.part, Part.extent?, Option.bind_eq_bind, Option.bind_eq_some_iff]
    exact ⟨_, Rules.extentWithin_eq_some.mpr ⟨shape, within, taken⟩, rfl⟩

/-- From a word boundary on, rows stand where the fields were placed, and end with the struct. -/
theorem Fields.extents {size align stop : Nat} {fs : List GpuField} {ps : List PlacedField} {fields : List HostField}
    (held : Fields table fs ps fields) (sized : ∀ name l, table.lookup name = some l → Sized file name l)
    (start : 4 ∣ stop) (offsets : ps.map (·.offset) = Shape.offsetsFrom stop (ps.map fun p => p.slot.extent))
    (finish : size = ceil (Shape.stopFrom stop (ps.map fun p => p.slot.extent)) align) :
    ∃ es, List.Forall₂ (goRules file).HasExtent ((rowsFrom size stop (fields.zip ps)).map Row.goField) es ∧
      Shape.stopFrom stop es = size ∧ Shape.maxAlign es = (if fields.isEmpty then 1 else 4) ∧
      Interleaved ((rowsFrom size stop (fields.zip ps)).map Row.goField) (Shape.offsetsFrom stop es) fs ps := by
  induction held generalizing stop with
  | nil =>
    have le : stop ≤ size := by
      rw [finish]
      exact le_ceil _ _
    obtain ⟨es, extents, stops, aligned, padded⟩ := gap_extents file le
    have none := padded .nil
    rw [List.append_nil, List.append_nil] at none
    exact ⟨es, extents, stops, aligned, none⟩
  | @cons f p h fs ps fields first rest ih =>
    obtain ⟨words, extent⟩ := first.typed sized
    obtain ⟨type, named, row⟩ := first.goField
    simp only [List.map_cons, Shape.offsetsFrom, List.cons.injEq] at offsets
    obtain ⟨here, others⟩ := offsets
    have multiple : 4 ∣ p.offset := by
      rw [here]
      exact Nat.dvd_trans words.align (dvd_ceil _ words.positive)
    have le : stop ≤ p.offset := by
      rw [here]
      exact le_ceil _ _
    rw [← here] at others
    simp only [List.map_cons, Shape.stopFrom, ← here] at finish
    obtain ⟨before, gaps, stops, aligned, padded⟩ := gap_extents file le
    obtain ⟨after, extents, final, behind, back⟩ := ih ((Nat.dvd_add_right multiple).mpr words.size) others finish
    -- Go rounds to words where the shader may round further: the padding has done the rest.
    have unmoved : ceil p.offset 4 = p.offset := ceil_of_dvd (by decide) multiple
    have rows : (rowsFrom size stop ((h :: fields).zip (p :: ps))).map Row.goField =
        (gap stop p.offset).map Row.goField ++ (Row.field h.name h.type).goField ::
          (rowsFrom size (p.offset + p.size) (fields.zip ps)).map Row.goField := List.map_append
    rw [rows]
    refine ⟨before ++ ⟨p.size, 4⟩ :: after, List.rel_append gaps (.cons extent extents), ?_, ?_, ?_⟩
    · simp only [Shape.stopFrom_append, stops, Shape.stopFrom, unmoved]
      exact final
    · rw [Shape.maxAlign_append, aligned, Shape.maxAlign, behind]
      split <;> rfl
    · rw [Shape.offsetsFrom_append, stops, Shape.offsetsFrom, unmoved, row]
      exact padded (.field p named back)

/-- Go gives a host struct the shape of its layout, when it does so for the structs inside it. -/
theorem hostStruct_shape {s : GpuStruct} {slots : List Slot} {h : HostStruct} (distinct : (hs.map (·.name)).Nodup)
    (member : h ∈ hs) (inhabited : s.fields ≠ []) (computed : StructLayout.compute slots = .ok h.layout)
    (held : Fields table s.fields h.layout.fields h.fields)
    (sized : ∀ name l, table.lookup name = some l → Sized (goFile hs) name l) :
    Words h.layout.extent ∧ ∃ shape, (goRules (goFile hs)).HasShape h.name shape ∧
      shape.extent = ⟨h.layout.size, 4⟩ ∧ Interleaved h.goFields shape.offsets s.fields h.layout.fields := by
  have shaped := StructLayout.compute_shape computed
  have filled := held.ne_nil inhabited
  have words : Words h.layout.extent := by
    rw [StructLayout.extent, shaped]
    refine Words.ofMembers ?_ (by simpa using filled.1)
    intro e inside
    obtain ⟨p, placed, rfl⟩ := List.mem_map.mp inside
    obtain ⟨f, h, placing⟩ := held.mem_placed placed
    exact (placing.typed sized).1
  refine ⟨words, ?_⟩
  obtain ⟨es, extents, stops, aligned, interleaved⟩ := held.extents sized (Nat.dvd_zero 4)
    (congrArg Shape.offsets shaped) (congrArg Shape.size shaped)
  have four : Shape.maxAlign es = 4 := by
    rw [aligned, if_neg (by simpa using filled.2)]
  refine ⟨.ofMembers es, Rules.hasShape_iff.mpr ⟨_, es, fields_goFile distinct member, extents, rfl⟩, ?_, interleaved⟩
  have unmoved : ceil h.layout.size 4 = h.layout.size := ceil_of_dvd (by decide) words.size
  simp only [Shape.ofMembers, Shape.extent, stops, four]
  exact congrArg (Extent.mk · 4) unmoved

theorem structs_sized (distinct : (structs.map (·.name.value)).Nodup) (inhabited : ∀ s ∈ structs, s.fields ≠ [])
    (built : LayoutTable.build structs = .ok table) (result : structs.mapM (hostStruct table) = .ok hs) :
    ∀ name l, table.lookup name = some l → Sized (goFile hs) name l := by
  have names : (hs.map (·.name)).Nodup := hostStructs_names result ▸ distinct
  refine forall_hostStruct distinct built result ?_
  intro before s slots h grows earlier member inside named found computed fields held
  obtain ⟨words, shape, has, extent, _⟩ :=
    hostStruct_shape names inside (inhabited s member) computed held earlier
  exact ⟨words, shape, has, extent⟩

theorem structs_keepLayout (distinct : (structs.map (·.name.value)).Nodup) (inhabited : ∀ s ∈ structs, s.fields ≠ [])
    (built : LayoutTable.build structs = .ok table) (result : structs.mapM (hostStruct table) = .ok hs) {s : GpuStruct}
    (declared : s ∈ structs) : ∃ l, table.lookup s.name.value = some l ∧ KeepsLayout (goFile hs) s l := by
  have names : (hs.map (·.name)).Nodup := hostStructs_names result ▸ distinct
  obtain ⟨h, member, written⟩ := forall₂_mem_left (mapM_ok_forall₂.mp result) declared
  obtain ⟨named, found, slots, computed, held⟩ := hostStruct_held distinct built declared written
  obtain ⟨_, shape, has, extent, interleaved⟩ :=
    hostStruct_shape names member (inhabited s declared) computed held (structs_sized distinct inhabited built result)
  have size := size_goFile names member
  have fields := fields_goFile names member
  rw [named] at has size fields
  exact ⟨h.layout, found, size, _, shape, fields, has, fun other has' => has'.unique has, interleaved,
    congrArg Extent.size extent⟩

theorem KeepsLayout.passes {s : GpuStruct} {l : StructLayout} {c : SizeCheck} (keeps : KeepsLayout file s l)
    (type : c.type = s.name.value) (constant : c.constant = s.name.value ++ "Size") : c.Passes file := by
  obtain ⟨_, shape, _, has, _, _, size⟩ := keeps.shape
  refine ⟨shape, type ▸ has, ?_⟩
  rw [constant, size]
  exact keeps.size

end

/-- Where every struct has a field, the declarations in a host file keep the layout of the table: in each struct all
fields stand at their offsets, and the size checks, one for each struct, pass. -/
theorem host_rows_keep_layout {structs : List GpuStruct} {table : LayoutTable}
    (distinct : (structs.map (·.name.value)).Nodup) (inhabited : ∀ s ∈ structs, s.fields ≠ [])
    (built : LayoutTable.build structs = .ok table) :
    ∃ hs, structs.mapM (hostStruct table) = .ok hs ∧ Emits structs table (goFile hs) ∧
      (∀ s ∈ structs, ∃ l, table.lookup s.name.value = some l ∧ KeepsLayout (goFile hs) s l) ∧
      (sizeChecksOf (goFile hs)).map (·.type) = structs.map (·.name.value) ∧
      ∀ c ∈ sizeChecksOf (goFile hs), c.Passes (goFile hs) := by
  obtain ⟨hs, result⟩ := hostStructs_ok distinct built
  have emits := goFile_emitted distinct built result
  have keeps (s : GpuStruct) (declared : s ∈ structs) := structs_keepLayout distinct inhabited built result declared
  refine ⟨hs, result, emits, keeps, ?_, ?_⟩
  · rw [sizeChecksOf_goFile, List.map_map]
    exact hostStructs_names result
  · intro c member
    rw [sizeChecksOf_goFile] at member
    obtain ⟨h, inside, rfl⟩ := List.mem_map.mp member
    obtain ⟨s, declared, written⟩ := forall₂_mem_right (mapM_ok_forall₂.mp result) inside
    have named := (hostStruct_ok written).1
    obtain ⟨l, _, kept⟩ := keeps s declared
    exact kept.passes named (congrArg (· ++ "Size") named)

/-- A struct inside another, with gaps before the vector and before the inner struct. -/
def sceneStructs : List GpuStruct :=
  let name (s : String) : Name := ⟨s, Span.none⟩
  let field (s type : String) : GpuField := ⟨[], name s, ⟨.named type, Span.none⟩⟩
  [⟨[], name "Scene", [field "count" "i32", field "sun" "Sun"], Span.none⟩,
    ⟨[], name "Sun", [field "power" "f32", field "tint" "vec3"], Span.none⟩]

def sceneTable : LayoutTable :=
  [("Sun", ⟨[⟨"power", 0, 4, 4⟩, ⟨"tint", 16, 12, 16⟩], 32, 16⟩),
    ("Scene", ⟨[⟨"count", 0, 4, 4⟩, ⟨"sun", 16, 32, 16⟩], 48, 16⟩)]

theorem host_rows_keep_layout_scene :
    (sceneStructs.map (·.name.value)).Nodup ∧ (∀ s ∈ sceneStructs, s.fields ≠ []) ∧
      LayoutTable.build sceneStructs = .ok sceneTable ∧
      ∃ hs, sceneStructs.mapM (hostStruct sceneTable) = .ok hs ∧ Emits sceneStructs sceneTable (goFile hs) ∧
        (∀ s ∈ sceneStructs, ∃ l, sceneTable.lookup s.name.value = some l ∧ KeepsLayout (goFile hs) s l) ∧
        (sizeChecksOf (goFile hs)).map (·.type) = ["Scene", "Sun"] ∧
        ∀ c ∈ sizeChecksOf (goFile hs), c.Passes (goFile hs) := by
  have distinct : (sceneStructs.map (·.name.value)).Nodup := by decide
  have inhabited : ∀ s ∈ sceneStructs, s.fields ≠ [] := by decide
  have built : LayoutTable.build sceneStructs = .ok sceneTable := rfl
  exact ⟨distinct, inhabited, built, host_rows_keep_layout distinct inhabited built⟩

end ViewLang.Gpu.Host
