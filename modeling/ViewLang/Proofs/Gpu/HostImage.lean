import ViewLang.Proofs.Gpu.Buffer
import ViewLang.Proofs.Gpu.HostLayout

namespace ViewLang.Gpu.Host

open Buffer

/-- A number of a scalar type. A float is given by its bits. -/
inductive Number
  | float (bits : UInt32)
  | sint (value : Int32)
  | uint (value : UInt32)
deriving Repr, DecidableEq

namespace Number

def kind : Number → Scalar
  | float _ => .float
  | sint _ => .sint
  | uint _ => .uint

def bits : Number → UInt32
  | float bits => bits
  | sint value => value.toUInt32
  | uint value => value

end Number

/-- The values of host fields. What a struct holds under names other than those of its fields does not matter. -/
inductive Value
  | number (n : Number)
  | array (elems : List Number)
  | record (type : String) (field : String → Value)

namespace Value

def numbers : Value → List Number
  | number n => [n]
  | array elems => elems
  | record .. => []

def select (v : Value) : List String → Option Value
  | [] => some v
  | name :: path =>
    match v with
    | record _ field => (field name).select path
    | _ => none
termination_by structural path => path

end Value

/-- The values of a type. Padding can hold anything. -/
inductive HasType (file : List GoDecl) : GoType → Value → Prop
  | scalar (n : Number) : HasType file (.scalar n.kind) (.number n)
  | array {kind : Scalar} {elems : List Number} (same : ∀ n ∈ elems, n.kind = kind) :
    HasType file (.array elems.length (.scalar kind)) (.array elems)
  | padding (n : Nat) (v : Value) : HasType file (.array n .byte) v
  | record {name : String} {rows : List GoField} {field : String → Value}
    (declared : (structsOf file).lookup name = some rows) (fields : ∀ f ∈ rows, HasType file f.2 (field f.1)) :
    HasType file (.named name) (.record name field)

/-- What the names in a `Bytes` method stand for: the fields of the receiver and, in a loop, the index and the
element. -/
structure Scope where
  field : String → Value
  loop : Option (Nat × Number)

namespace Scope

def operand (s : Scope) : Operand → Option Number
  | .field name =>
    match s.field name with
    | .number n => some n
    | _ => none
  | .element => s.loop.map (·.2)

/-- The word of a number. Where the types do not match there is none. -/
def word (s : Scope) (w : Word) : Option UInt32 :=
  match w with
  | .bits o => s.operand o >>= fun
    | .float bits => some bits
    | _ => none
  | .converted o => s.operand o >>= fun
    | .sint value => some value.toUInt32
    | _ => none
  | .plain o => s.operand o >>= fun
    | .uint value => some value
    | _ => none

def index (s : Scope) : Index → Option Nat
  | .fixed n => some n
  | .scaled => s.loop.map fun (i, _) => i * 4
  | .shifted n => s.loop.map fun (i, _) => n + i * 4

end Scope

/-- Four bytes from the index on, lowest byte first. There is no result where they would leave the buffer. -/
def Put.run (p : Put) (s : Scope) (buf : List UInt8) : Option (List UInt8) := do
  let start ← s.index p.index
  let word ← s.word p.word
  splice buf start (wordBytes word)

def Put.runFrom (p : Put) (field : String → Value) : Nat → List Number → List UInt8 → Option (List UInt8)
  | _, [], buf => some buf
  | i, n :: ns, buf => do
    let buf ← p.run ⟨field, some (i, n)⟩ buf
    p.runFrom field (i + 1) ns buf

def Step.run (field : String → Value) (image : String → Option (List UInt8)) (buf : List UInt8) :
    Step → Option (List UInt8)
  | put p => p.run ⟨field, none⟩ buf
  | each name p =>
    match field name with
    | .array elems => p.runFrom field 0 elems buf
    | _ => none
  | copy start name => do
    let block ← image name
    splice buf start block

/-- The result of `Bytes`: the steps of the method, one after another, on a zeroed buffer. -/
def Value.image (file : List GoDecl) : Value → Option (List UInt8)
  | record type field => do
    let (constant, body) ← (methodsOf file).lookup type
    let size ← (constantsOf file).lookup constant
    body.foldlM (Step.run field fun name => (field name).image file) (List.replicate size 0)
  | _ => none

section

variable (structs : List GpuStruct) (table : LayoutTable)

/-- The built-in fields of a struct at any depth: the selectors, the offset from the start of the struct, the type. -/
inductive Leaf : String → List String → Nat → ValueType → Prop
  | value {s : GpuStruct} {l : StructLayout} {f : GpuField} {placed : PlacedField} {name type : String} {t : ValueType}
    (declared : s ∈ structs) (named : s.name.value = name) (found : table.lookup name = some l)
    (member : (f, placed) ∈ s.fields.zip l.fields) (typed : f.ty.value = .named type)
    (known : ValueType.ofName? type = some t) : Leaf name [exported f.name.value] placed.offset t
  | nested {s : GpuStruct} {l : StructLayout} {f : GpuField} {placed : PlacedField} {name type : String}
    {path : List String} {offset : Nat} {t : ValueType}
    (declared : s ∈ structs) (named : s.name.value = name) (found : table.lookup name = some l)
    (member : (f, placed) ∈ s.fields.zip l.fields) (typed : f.ty.value = .named type)
    (unknown : ValueType.ofName? type = none) (inner : Leaf type path offset t) :
    Leaf name (exported f.name.value :: path) (placed.offset + offset) t

def FieldLeaf (f : GpuField) (path : List String) (offset : Nat) (t : ValueType) : Prop :=
  (∃ type, f.ty.value = .named type ∧ ValueType.ofName? type = some t ∧ path = [] ∧ offset = 0) ∨
    ∃ type, f.ty.value = .named type ∧ ValueType.ofName? type = none ∧ Leaf structs table type path offset t

end

def Covered (leaves : List String → Nat → ValueType → Prop) (k : Nat) : Prop :=
  ∃ path offset t i, leaves path offset t ∧ i < t.components ∧ offset + 4 * i ≤ k ∧ k < offset + 4 * i + 4

structure Shows (leaves : List String → Nat → ValueType → Prop) (v : Value) (bytes : List UInt8) : Prop where
  words : ∀ path offset t, leaves path offset t → ∃ leaf, v.select path = some leaf ∧
    leaf.numbers.length = t.components ∧
    ∀ i n, leaf.numbers[i]? = some n → n.kind = t.scalar ∧ HoldsWord bytes (offset + 4 * i) n.bits
  zero : ∀ k < bytes.length, ¬ Covered leaves k → bytes[k]? = some 0

theorem Scope.word_of {s : Scope} {o : Operand} {n : Number} (found : s.operand o = some n) :
    s.word (.of n.kind o) = some n.bits := by
  cases n <;> simp only [Number.kind, Word.of, Scope.word, found, Option.bind_eq_bind, Option.bind_some, Number.bits]

theorem Scope.index_elements (field : String → Value) (start i : Nat) (n : Number) :
    (Scope.mk field (some (i, n))).index (.elements start) = some (start + i * 4) := by
  unfold Index.elements
  split
  · rename_i zero
    rw [zero, Nat.zero_add]
    rfl
  · rfl

/-- The loop over an array writes its elements as one block. -/
theorem runFrom_ok {kind : Scalar} {start i : Nat} {ns : List Number} {buf : List UInt8} (field : String → Value)
    (same : ∀ n ∈ ns, n.kind = kind) (fits : start + i * 4 + 4 * ns.length ≤ buf.length) :
    Put.runFrom ⟨.elements start, .of kind .element⟩ field i ns buf =
      splice buf (start + i * 4) (ns.flatMap fun n => wordBytes n.bits) := by
  induction ns generalizing i buf with
  | nil =>
    have room : start + i * 4 ≤ buf.length := by simpa using fits
    simp only [Put.runFrom, splice, List.flatMap_nil, List.length_nil, Nat.add_zero, if_pos room, List.append_nil,
      List.take_append_drop]
  | cons n ns ih =>
    have front : (wordBytes n.bits).length = 4 := rfl
    have rest := length_flatMap_wordBytes Number.bits ns
    rw [List.length_cons] at fits
    have whole : start + i * 4 + (wordBytes n.bits ++ ns.flatMap fun n => wordBytes n.bits).length ≤ buf.length := by
      rw [List.length_append, rest, front]
      omega
    have word : (Scope.mk field (some (i, n))).word (.of kind .element) = some n.bits :=
      same n List.mem_cons_self ▸ Scope.word_of rfl
    rw [List.flatMap_cons, ← splice_append whole, Put.runFrom, Put.run, Scope.index_elements, word]
    simp only [Option.bind_eq_bind, Option.bind_some]
    have room : start + i * 4 + (wordBytes n.bits).length ≤ buf.length := by omega
    obtain ⟨between, written, length, _⟩ := splice_ok room
    have next : start + (i + 1) * 4 = start + i * 4 + (wordBytes n.bits).length := by omega
    rw [written, Option.bind_some, Option.bind_some, ← next]
    exact ih (fun other member => same other (List.mem_cons_of_mem _ member)) (by omega)

section

variable {file : List GoDecl} {v : Value}

theorem HasType.of_scalar {kind : Scalar} (typed : HasType file (.scalar kind) v) :
    ∃ n, v = .number n ∧ n.kind = kind := by
  cases typed with
  | scalar n => exact ⟨n, rfl, rfl⟩

theorem HasType.of_array {n : Nat} {kind : Scalar} (typed : HasType file (.array n (.scalar kind)) v) :
    ∃ elems, v = .array elems ∧ elems.length = n ∧ ∀ n ∈ elems, n.kind = kind := by
  cases typed with
  | array same => exact ⟨_, rfl, rfl, same⟩

theorem HasType.of_named {name : String} (typed : HasType file (.named name) v) :
    ∃ rows field, (structsOf file).lookup name = some rows ∧ v = .record name field ∧
      ∀ f ∈ rows, HasType file f.2 (field f.1) := by
  cases typed with
  | record declared fields => exact ⟨_, _, declared, rfl, fields⟩

end

/-- The step of a value with as many components as its type. -/
theorem step_value {file : List GoDecl} {h : HostField} {t : ValueType} {field : String → Value}
    (typed : HasType file (GoType.ofValueType t) (field h.name)) (type : h.type = .value t) :
    (field h.name).numbers.length = t.components ∧ (∀ n ∈ (field h.name).numbers, n.kind = t.scalar) ∧
      ∀ image buf, h.offset + 4 * t.components ≤ buf.length → h.step.run field image buf =
        splice buf h.offset ((field h.name).numbers.flatMap fun n => wordBytes n.bits) := by
  rw [GoType.ofValueType] at typed
  by_cases scalar : t.isScalar = true
  · rw [if_pos scalar] at typed
    obtain ⟨n, value, kind⟩ := typed.of_scalar
    have one : t.components = 1 := beq_iff_eq.mp scalar
    have operand : (Scope.mk field none).operand (.field h.name) = some n := by
      simp only [Scope.operand, value]
    rw [value]
    refine ⟨one.symm, fun other member => List.mem_singleton.mp member ▸ kind, fun image buf fits => ?_⟩
    simp only [HostField.step, type, scalar, if_true, Step.run, Put.run, Scope.index, ← kind, Scope.word_of operand]
    rfl
  · rw [if_neg scalar] at typed
    obtain ⟨elems, value, length, same⟩ := typed.of_array
    rw [value]
    refine ⟨length, same, fun image buf fits => ?_⟩
    simp only [HostField.step, type, scalar, Bool.false_eq_true, if_false, Step.run, value]
    have room : h.offset + 0 * 4 + 4 * elems.length ≤ buf.length := by omega
    have whole := runFrom_ok field same room
    rw [Nat.zero_mul, Nat.add_zero] at whole
    exact whole

section

variable {structs : List GpuStruct} {table before : LayoutTable} {file : List GoDecl} {hs : List HostStruct}

def Imaged (structs : List GpuStruct) (table : LayoutTable) (file : List GoDecl) (name : String) (l : StructLayout) :
    Prop :=
  ∀ v, HasType file (.named name) v →
    ∃ bytes, v.image file = some bytes ∧ bytes.length = l.size ∧ Shows (Leaf structs table name) v bytes

/-- The step of a field puts a block into the bytes of the field. -/
theorem Held.block {f : GpuField} {placed : PlacedField} {h : HostField} {field : String → Value}
    (held : Held before f placed h) (earlier : ∀ name l, before.lookup name = some l → Imaged structs table file name l)
    (typed : HasType file h.type.goType (field h.name)) :
    ∃ block, block.length = placed.size ∧ Shows (FieldLeaf structs table f) (field h.name) block ∧
      ∀ buf, placed.offset + block.length ≤ buf.length →
        h.step.run field (fun name => (field name).image file) buf = splice buf placed.offset block := by
  have size (e : Extent) (same : placed.slot.extent = e) : placed.size = e.size := congrArg Extent.size same
  rw [← held.offset]
  obtain ⟨type, t, named, known, isValue, extent⟩ | ⟨type, l, named, unknown, found, isNested, extent⟩ :=
    hostType_cases held.slot held.type
  · have words : 4 * t.components = t.size := valueType_components t (List.mem_of_find?_eq_some known)
    rw [isValue] at typed
    obtain ⟨count, kinds, writes⟩ := step_value typed isValue
    have length := length_flatMap_wordBytes Number.bits (field h.name).numbers
    rw [count] at length
    refine ⟨_, length.trans (words.trans (size _ extent).symm), ⟨?_, ?_⟩, fun buf fits => writes _ buf (length ▸ fits)⟩
    · rintro path offset t' (⟨_, same, known', rfl, rfl⟩ | ⟨_, same, unknown, _⟩)
      · cases named.symm.trans same
        cases known.symm.trans known'
        refine ⟨_, rfl, count, fun i n element => ⟨kinds n (List.mem_of_getElem? element), ?_⟩⟩
        rw [Nat.zero_add]
        exact holdsWord_flatMap Number.bits element
      · cases named.symm.trans same
        cases known.symm.trans unknown
    · -- The components fill the field: there is no byte left that belongs to none.
      intro k less bare
      rw [length] at less
      refine absurd ⟨[], 0, t, k / 4, .inl ⟨type, named, known, rfl, rfl⟩, ?_⟩ bare
      omega
  · rw [isNested] at typed
    obtain ⟨bytes, image, length, shows⟩ := earlier type l found _ typed
    refine ⟨bytes, length.trans (size _ extent).symm, ⟨?_, ?_⟩, fun buf fits => ?_⟩
    · rintro path offset t (⟨_, same, known, _⟩ | ⟨_, same, _, leaf⟩)
      · cases named.symm.trans same
        cases unknown.symm.trans known
      · cases named.symm.trans same
        exact shows.words path offset t leaf
    · intro k less bare
      refine shows.zero k less ?_
      rintro ⟨path, offset, t, i, leaf, inside⟩
      exact bare ⟨path, offset, t, i, .inr ⟨type, named, unknown, leaf⟩, inside⟩
    · simp only [HostField.step, isNested, Step.run, image]
      rfl

structure Filled (structs : List GpuStruct) (table : LayoutTable) (field : String → Value) (f : GpuField × PlacedField)
    (p : Piece) : Prop where
  start : p.start = f.2.offset
  length : p.block.length = f.2.size
  shows : Shows (FieldLeaf structs table f.1) (field (exported f.1.name.value)) p.block

def Puts (file : List GoDecl) (field : String → Value) (h : HostField) (p : Piece) : Prop :=
  ∀ buf, p.stop ≤ buf.length → h.step.run field (fun name => (field name).image file) buf = p.put buf

theorem Fields.pieces {fs : List GpuField} {ps : List PlacedField} {fields : List HostField} {field : String → Value}
    (held : Fields before fs ps fields)
    (earlier : ∀ name l, before.lookup name = some l → Imaged structs table file name l)
    (typed : ∀ f ∈ fields, HasType file f.type.goType (field f.name)) :
    ∃ pieces, List.Forall₂ (Filled structs table field) (fs.zip ps) pieces ∧
      List.Forall₂ (Puts file field) fields pieces := by
  induction held with
  | nil => exact ⟨[], .nil, .nil⟩
  | @cons f placed h _ _ _ first _ ih =>
    obtain ⟨pieces, filled, puts⟩ := ih fun f member => typed f (List.mem_cons_of_mem _ member)
    obtain ⟨block, length, shows, writes⟩ := first.block earlier (typed h List.mem_cons_self)
    rw [first.name] at shows
    exact ⟨⟨placed.offset, block⟩ :: pieces, .cons ⟨rfl, length, shows⟩ filled, .cons writes puts⟩

/-- Fields that are placed one behind another have pieces one behind another. -/
theorem ascending_of_filled {fs : List GpuField} {ps : List PlacedField} {field : String → Value} {pieces : List Piece}
    {stop finish : Nat} (filled : List.Forall₂ (Filled structs table field) (fs.zip ps) pieces)
    (same : fs.length = ps.length)
    (offsets : ps.map (·.offset) = Shape.offsetsFrom stop (ps.map fun p => p.slot.extent))
    (le : Shape.stopFrom stop (ps.map fun p => p.slot.extent) ≤ finish) : Ascending finish stop pieces := by
  induction fs generalizing ps pieces stop with
  | nil =>
    cases List.length_eq_zero_iff.mp same.symm
    cases filled
    exact le
  | cons f fs ih =>
    cases ps with
    | nil => cases same
    | cons placed ps =>
      rw [List.zip_cons_cons] at filled
      cases filled with
      | @cons _ p _ _ first rest =>
        simp only [List.map_cons, Shape.offsetsFrom, List.cons.injEq] at offsets
        obtain ⟨here, others⟩ := offsets
        simp only [List.map_cons, Shape.stopFrom] at le
        rw [← here] at others le
        have before : stop ≤ placed.offset := by
          rw [here]
          exact le_ceil _ _
        refine ⟨first.start ▸ before, ?_⟩
        rw [Piece.stop, first.start, first.length]
        exact ih rest (Nat.succ.inj same) others le

theorem steps_eq_puts {fields : List HostField} {field : String → Value} {pieces : List Piece} {buf : List UInt8}
    {stop : Nat} (puts : List.Forall₂ (Puts file field) fields pieces) (ascending : Ascending buf.length stop pieces) :
    (fields.map HostField.step).foldlM (Step.run field fun name => (field name).image file) buf =
      pieces.foldlM Piece.put buf := by
  induction puts generalizing buf stop with
  | nil => rfl
  | cons first _ ih =>
    obtain ⟨_, later⟩ := ascending
    obtain ⟨after, written, length, _⟩ := splice_ok later.le
    rw [List.map_cons, List.foldlM_cons, List.foldlM_cons, first buf later.le, Piece.put, written]
    rw [← length] at later
    exact ih later

theorem leaf_of_field {s : GpuStruct} {l : StructLayout} {f : GpuField} {placed : PlacedField} {path : List String}
    {offset : Nat} {t : ValueType} (declared : s ∈ structs) (found : table.lookup s.name.value = some l)
    (member : (f, placed) ∈ s.fields.zip l.fields) (leaf : FieldLeaf structs table f path offset t) :
    Leaf structs table s.name.value (exported f.name.value :: path) (placed.offset + offset) t := by
  rcases leaf with ⟨type, named, known, rfl, rfl⟩ | ⟨type, named, unknown, leaf⟩
  · exact .value declared rfl found member named known
  · exact .nested declared rfl found member named unknown leaf

theorem field_of_leaf {s : GpuStruct} {l : StructLayout} {path : List String} {offset : Nat} {t : ValueType}
    (distinct : (structs.map (·.name.value)).Nodup) (declared : s ∈ structs)
    (found : table.lookup s.name.value = some l) (leaf : Leaf structs table s.name.value path offset t) :
    ∃ f placed inner start, (f, placed) ∈ s.fields.zip l.fields ∧ FieldLeaf structs table f inner start t ∧
      path = exported f.name.value :: inner ∧ offset = placed.offset + start := by
  have only {other : GpuStruct} (declared' : other ∈ structs) (named : other.name.value = s.name.value) : other = s :=
    List.inj_on_of_nodup_map distinct declared' declared named
  cases leaf with
  | value declared' named found' member typed known =>
    cases only declared' named
    cases found.symm.trans found'
    exact ⟨_, _, _, _, member, .inl ⟨_, typed, known, rfl, rfl⟩, rfl, rfl⟩
  | nested declared' named found' member typed unknown inner =>
    cases only declared' named
    cases found.symm.trans found'
    exact ⟨_, _, _, _, member, .inr ⟨_, typed, unknown, inner⟩, rfl, rfl⟩

/-- Bytes that hold the pieces of a struct's fields and are zero elsewhere show the struct. -/
theorem shows_of_pieces {s : GpuStruct} {l : StructLayout} {field : String → Value} {pieces : List Piece}
    {bytes : List UInt8} (distinct : (structs.map (·.name.value)).Nodup) (declared : s ∈ structs)
    (found : table.lookup s.name.value = some l)
    (filled : List.Forall₂ (Filled structs table field) (s.fields.zip l.fields) pieces)
    (held : ∀ p ∈ pieces, ∀ k < p.block.length, bytes[p.start + k]? = p.block[k]?)
    (others : ∀ k < bytes.length, (∀ p ∈ pieces, ¬ (p.start ≤ k ∧ k < p.stop)) → bytes[k]? = some 0) :
    Shows (Leaf structs table s.name.value) (.record s.name.value field) bytes := by
  constructor
  · intro path offset t leaf
    obtain ⟨f, placed, inner, start, member, within, rfl, rfl⟩ := field_of_leaf distinct declared found leaf
    obtain ⟨p, inside, fills⟩ := forall₂_mem_left filled member
    obtain ⟨value, selected, count, words⟩ := fills.shows.words inner start t within
    refine ⟨value, selected, count, fun i n element => ?_⟩
    obtain ⟨kind, word⟩ := words i n element
    have moved := word.of_bytes (held p inside)
    rw [fills.start, ← Nat.add_assoc] at moved
    exact ⟨kind, moved⟩
  · intro k less bare
    by_cases inside : ∃ p ∈ pieces, p.start ≤ k ∧ k < p.stop
    · obtain ⟨p, member, lower, upper⟩ := inside
      obtain ⟨⟨f, placed⟩, field, fills⟩ := forall₂_mem_right filled member
      have start : p.start = placed.offset := fills.start
      unfold Piece.stop at upper
      have byte := held p member (k - p.start) (by omega)
      rw [Nat.add_sub_cancel' lower] at byte
      rw [byte]
      refine fills.shows.zero _ (by omega) ?_
      rintro ⟨path, offset, t, i, leaf, component, within⟩
      refine bare ⟨_, _, t, i, leaf_of_field declared found field leaf, component, ?_⟩
      omega
    · refine others k less ?_
      intro p member within
      exact inside ⟨p, member, within⟩

theorem Fields.mem_zip {fs : List GpuField} {ps : List PlacedField} {fields : List HostField}
    (held : Fields before fs ps fields) {f : HostField} (member : f ∈ fields) :
    ∃ placed, (f, placed) ∈ fields.zip ps := by
  induction held with
  | nil => cases member
  | cons first _ ih =>
    rcases List.mem_cons.mp member with rfl | member
    · exact ⟨_, List.mem_cons_self⟩
    · obtain ⟨placed, inside⟩ := ih member
      exact ⟨placed, List.mem_cons_of_mem _ inside⟩

theorem field_mem_rowsFrom {size stop : Nat} {fields : List (HostField × PlacedField)} {f : HostField}
    {placed : PlacedField} (member : (f, placed) ∈ fields) : .field f.name f.type ∈ rowsFrom size stop fields := by
  induction fields generalizing stop with
  | nil => cases member
  | cons first rest ih =>
    rw [rowsFrom, List.mem_append, List.mem_cons]
    rcases List.mem_cons.mp member with rfl | member
    · exact .inr (.inl rfl)
    · exact .inr (.inr (ih member))

theorem structs_imaged (distinct : (structs.map (·.name.value)).Nodup) (built : LayoutTable.build structs = .ok table)
    (result : structs.mapM (hostStruct table) = .ok hs) :
    ∀ name l, table.lookup name = some l → Imaged structs table (goFile hs) name l := by
  have names : (hs.map (·.name)).Nodup := hostStructs_names result ▸ distinct
  refine forall_hostStruct distinct built result ?_
  intro before s slots h _ earlier declared inside named found computed _ held v typed
  obtain ⟨rows, field, has, rfl, fields⟩ := typed.of_named
  cases (fields_goFile names inside).symm.trans has
  have each (f : HostField) (member : f ∈ h.fields) : HasType (goFile hs) f.type.goType (field f.name) := by
    obtain ⟨placed, member⟩ := held.mem_zip member
    exact fields _ (List.mem_map_of_mem (field_mem_rowsFrom member))
  obtain ⟨pieces, filled, puts⟩ := held.pieces earlier each
  have shaped := StructLayout.compute_shape computed
  have size : h.layout.size = _ := congrArg Shape.size shaped
  have finish : Shape.stopFrom 0 (h.layout.fields.map fun p => p.slot.extent) ≤ h.layout.size := by
    rw [size]
    exact le_ceil _ _
  have ascending := ascending_of_filled filled held.length (congrArg Shape.offsets shaped) finish
  have zeros : (List.replicate h.layout.size (0 : UInt8)).length = h.layout.size := List.length_replicate
  rw [← zeros] at ascending
  obtain ⟨bytes, run, length, _, written, others⟩ := pieces_ok ascending
  refine ⟨bytes, ?_, length.trans zeros, ?_⟩
  · simp only [Value.image, method_goFile names inside, size_goFile names inside, Option.bind_eq_bind, Option.bind_some]
    rw [steps_eq_puts puts ascending]
    exact run
  · rw [named] at found ⊢
    refine shows_of_pieces distinct declared found filled written ?_
    intro k less outside
    rw [others k outside, List.getElem?_replicate, if_pos (by omega)]

end

/-- In a host file every value of a struct has an image: no step of a `Bytes` method leaves the buffer of the struct's
size. In the image each component of each built-in field, however deep, stands at its offset, and all other bytes are
zero. -/
theorem image_shows_leaves {structs : List GpuStruct} {table : LayoutTable}
    (distinct : (structs.map (·.name.value)).Nodup) (built : LayoutTable.build structs = .ok table) :
    ∃ hs, structs.mapM (hostStruct table) = .ok hs ∧ Emits structs table (goFile hs) ∧
      ∀ s ∈ structs, ∃ l, table.lookup s.name.value = some l ∧
        (constantsOf (goFile hs)).lookup (s.name.value ++ "Size") = some l.size ∧
        ∀ v, HasType (goFile hs) (.named s.name.value) v →
          ∃ bytes, v.image (goFile hs) = some bytes ∧ bytes.length = l.size ∧
            (∀ path offset t, Leaf structs table s.name.value path offset t → ∃ leaf, v.select path = some leaf ∧
              leaf.numbers.length = t.components ∧
              ∀ i n, leaf.numbers[i]? = some n → n.kind = t.scalar ∧ HoldsWord bytes (offset + 4 * i) n.bits) ∧
            ∀ k < bytes.length, ¬ Covered (Leaf structs table s.name.value) k → bytes[k]? = some 0 := by
  obtain ⟨hs, result⟩ := hostStructs_ok distinct built
  refine ⟨hs, result, goFile_emitted distinct built result, fun s declared => ?_⟩
  have names : (hs.map (·.name)).Nodup := hostStructs_names result ▸ distinct
  obtain ⟨h, member, written⟩ := forall₂_mem_left (mapM_ok_forall₂.mp result) declared
  obtain ⟨named, found, _⟩ := hostStruct_held distinct built declared written
  refine ⟨h.layout, found, named ▸ size_goFile names member, fun v typed => ?_⟩
  obtain ⟨bytes, image, length, shows⟩ := structs_imaged distinct built result _ _ found v typed
  exact ⟨bytes, image, length, shows.words, shows.zero⟩

def sceneHosts : List HostStruct :=
  let type (name : String) : HostType := ((ValueType.ofName? name).map HostType.value).getD (.nested name)
  [⟨"Scene", ⟨[⟨"count", 0, 4, 4⟩, ⟨"sun", 16, 32, 16⟩], 48, 16⟩,
      [⟨"Count", type "i32", 0⟩, ⟨"Sun", type "Sun", 16⟩]⟩,
    ⟨"Sun", ⟨[⟨"power", 0, 4, 4⟩, ⟨"tint", 16, 12, 16⟩], 32, 16⟩,
      [⟨"Power", type "f32", 0⟩, ⟨"Tint", type "vec3", 16⟩]⟩]

def sunValue : Value :=
  .record "Sun" fun name =>
    if name = "Power" then .number (.float 0x3f800000)
    else .array [.float 0, .float 0x3f800000, .float 0x40000000]

def sceneValue : Value :=
  .record "Scene" fun name => if name = "Count" then .number (.sint (-2)) else sunValue

theorem sunValue_typed : HasType (goFile sceneHosts) (.named "Sun") sunValue := by
  have declared : (structsOf (goFile sceneHosts)).lookup "Sun" = some [("Power", .scalar .float),
      ("_", .array 12 .byte), ("Tint", .array 3 (.scalar .float)), ("_", .array 4 .byte)] := rfl
  refine .record declared ?_
  simp only [List.forall_mem_cons, List.not_mem_nil, IsEmpty.forall_iff, implies_true, and_true]
  have floats : ∀ n ∈ [Number.float 0, .float 0x3f800000, .float 0x40000000], n.kind = .float := by decide
  exact ⟨.scalar (.float 0x3f800000), .padding _ _, .array floats, .padding _ _⟩

theorem sceneValue_typed : HasType (goFile sceneHosts) (.named "Scene") sceneValue := by
  have declared : (structsOf (goFile sceneHosts)).lookup "Scene" =
      some [("Count", .scalar .sint), ("_", .array 12 .byte), ("Sun", .named "Sun")] := rfl
  refine .record declared ?_
  simp only [List.forall_mem_cons, List.not_mem_nil, IsEmpty.forall_iff, implies_true, and_true]
  exact ⟨.scalar (.sint (-2)), .padding _ _, sunValue_typed⟩

/-- The second component of the tint stands at byte 36 of the image. -/
theorem image_shows_leaves_scene :
    (sceneStructs.map (·.name.value)).Nodup ∧ LayoutTable.build sceneStructs = .ok sceneTable ∧
      sceneStructs.mapM (hostStruct sceneTable) = .ok sceneHosts ∧
      Emits sceneStructs sceneTable (goFile sceneHosts) ∧ HasType (goFile sceneHosts) (.named "Scene") sceneValue ∧
      ∃ bytes, sceneValue.image (goFile sceneHosts) = some bytes ∧ bytes.length = 48 ∧
        HoldsWord bytes 36 0x3f800000 := by
  have distinct : (sceneStructs.map (·.name.value)).Nodup := by decide
  have built : LayoutTable.build sceneStructs = .ok sceneTable := rfl
  have hosts : sceneStructs.mapM (hostStruct sceneTable) = .ok sceneHosts := rfl
  obtain ⟨hs, result, emits, images⟩ := image_shows_leaves distinct built
  cases hosts.symm.trans result
  have second {α : Type} (x y : α) : y ∈ [x, y] := List.mem_cons_of_mem _ List.mem_cons_self
  have scene : sceneStructs[0] ∈ sceneStructs := List.mem_cons_self
  have sun : sceneStructs[1] ∈ sceneStructs := second _ _
  have placed : sceneTable.lookup "Sun" = some ⟨[⟨"power", 0, 4, 4⟩, ⟨"tint", 16, 12, 16⟩], 32, 16⟩ := rfl
  have around : sceneTable.lookup "Scene" = some ⟨[⟨"count", 0, 4, 4⟩, ⟨"sun", 16, 32, 16⟩], 48, 16⟩ := rfl
  obtain ⟨l, found, _, shown⟩ := images _ scene
  cases around.symm.trans found
  obtain ⟨bytes, image, length, words, _⟩ := shown sceneValue sceneValue_typed
  have tint := Leaf.value sun rfl placed (second _ _) rfl rfl
  obtain ⟨leaf, selected, _, components⟩ := words _ _ _ (.nested scene rfl around (second _ _) rfl rfl tint)
  cases selected
  exact ⟨distinct, built, hosts, emits, sceneValue_typed, bytes, image, length, (components 1 _ rfl).2⟩

end ViewLang.Gpu.Host
