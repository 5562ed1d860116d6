import ViewLang.Compile
import ViewLang.Proofs.Gpu.BuiltTable
import ViewLang.Proofs.Gpu.Nesting
import ViewLang.Proofs.Gpu.ShaderStruct

namespace ViewLang.Gpu.Wgsl

inductive Predeclared
  | scalar (kind : Scalar)
  | vector (n : Nat) (kind : Scalar)
  | matrix (columns rows : Nat)
deriving Repr, DecidableEq

namespace Predeclared

def text : Predeclared → String
  | scalar kind => kind.wgsl
  | vector n kind => "vec" ++ toString n ++ "<" ++ kind.wgsl ++ ">"
  | matrix columns rows => "mat" ++ toString columns ++ "x" ++ toString rows ++ "<" ++ Scalar.float.wgsl ++ ">"

def names : Predeclared → List String
  | scalar kind => [kind.wgsl]
  | vector n kind => ["vec" ++ toString n, kind.wgsl]
  | matrix columns rows => ["mat" ++ toString columns ++ "x" ++ toString rows, Scalar.float.wgsl]

def vectorExtent (n : Nat) : Extent := ⟨4 * n, if n = 2 then 8 else 16⟩

def extent : Predeclared → Extent
  | scalar _ => ⟨4, 4⟩
  | vector n _ => vectorExtent n
  | matrix columns rows =>
    ⟨columns * ceil (vectorExtent rows).size (vectorExtent rows).align, (vectorExtent rows).align⟩

theorem vectorExtent_align_pos (n : Nat) : 0 < (vectorExtent n).align := by
  change 0 < if n = 2 then 8 else 16
  split <;> decide

theorem extent_align_pos (p : Predeclared) : 0 < p.extent.align := by
  cases p with
  | scalar _ => exact Nat.succ_pos 3
  | vector n _ => exact vectorExtent_align_pos n
  | matrix _ rows => exact vectorExtent_align_pos rows

def all : List Predeclared :=
  [.float, .sint, .uint].map scalar ++
  [2, 3, 4].flatMap (fun n => [.float, .sint, .uint].map (vector n)) ++
  [2, 3, 4].flatMap (fun columns => [2, 3, 4].map (matrix columns))

def ofText? (text : String) : Option Predeclared := all.find? (·.text == text)

/-- Texts and names that mean something without a declaration. -/
def reserved : List String := all.flatMap fun p => p.text :: p.names

end Predeclared

/-- A value type is written as the type of the shader language with the same extent. -/
theorem valueType_predeclared : ∀ t ∈ ValueType.table, ∃ p ∈ Predeclared.all,
    Predeclared.ofText? t.wgsl = some p ∧ p.extent = ⟨t.size, t.align⟩ := by
  decide

theorem ofText?_reserved {text : String} {p : Predeclared} (found : Predeclared.ofText? text = some p) :
    text ∈ Predeclared.reserved ∧ ∀ name ∈ p.names, name ∈ Predeclared.reserved := by
  have member := List.mem_of_find?_eq_some found
  have written : p.text = text := by simpa using List.find?_some found
  simp only [Predeclared.reserved, List.mem_flatMap]
  refine ⟨⟨p, member, ?_⟩, fun name inside => ⟨p, member, List.mem_cons_of_mem _ inside⟩⟩
  rw [written]
  exact List.mem_cons_self

/-- What an attribute of a member asks for. It stands at most once and has one argument. -/
def Member.asked (value : String → Option Nat) (m : Member) (name : String) (natural : Nat) : Option Nat :=
  match m.attributes.filter (·.name == name) with
  | [] => some natural
  | [⟨_, [text]⟩] => value text
  | _ => none

def Member.extent? (value : String → Option Nat) (m : Member) (natural : Extent) : Option Extent := do
  let size ← m.asked value "size" natural.size
  let align ← m.asked value "align" natural.align
  if align = 0 then none else some ⟨size, align⟩

def isDeclared (ds : List Declaration) (name : String) : Bool := ds.any (·.name == name)

/-- The structs of a shader, where constant expressions have the given values. A declared name hides what it means
without the declaration. -/
def rules (value : String → Option Nat) (ds : List Declaration) : Rules Member where
  members? name := (ds.find? (·.name == name)).map (·.members)
  part m :=
    if isDeclared ds m.type then .made m.type (m.extent? value)
    else .plain (do
      let p ← Predeclared.ofText? m.type
      if p.names.any (isDeclared ds) then none else m.extent? value p.extent)

/-- The struct has the same layout in the table and in the shader. -/
def Agrees (value : String → Option Nat) (ds : List Declaration) (table : LayoutTable) (name : String) : Prop :=
  ∃ l, table.lookup name = some l ∧ (rules value ds).HasShape name l.shape

def Fills (size align stop : Nat) : List Nat → List Extent → Prop
  | [], [] => stop ≤ size ∧ size < stop + align
  | o :: os, e :: es => e.align ∣ o ∧ stop ≤ o ∧ o < stop + e.align ∧ Fills size align (o + e.size) os es
  | _, _ => False

def Fits (s : Shape) (es : List Extent) : Prop :=
  Fills s.size s.align 0 s.offsets es ∧ s.align = Shape.maxAlign es ∧ s.align ∣ s.size

theorem fills_iff {size align stop : Nat} {offsets : List Nat} {es : List Extent} (positive : ∀ e ∈ es, 0 < e.align)
    (aligned : 0 < align) (multiple : align ∣ size) :
    Fills size align stop offsets es ↔
      offsets = Shape.offsetsFrom stop es ∧ size = ceil (Shape.stopFrom stop es) align := by
  induction es generalizing stop offsets with
  | nil =>
    have final : ceil stop align = size ↔ align ∣ size ∧ stop ≤ size ∧ size < stop + align := ceil_eq_iff aligned
    cases offsets with
    | nil =>
      simp only [Fills, Shape.offsetsFrom, Shape.stopFrom, true_and, eq_comm (a := size), final, multiple]
    | cons o os => simp [Fills, Shape.offsetsFrom]
  | cons e es ih =>
    cases offsets with
    | nil => simp [Fills, Shape.offsetsFrom]
    | cons o os =>
      have first : ceil stop e.align = o ↔ e.align ∣ o ∧ stop ≤ o ∧ o < stop + e.align :=
        ceil_eq_iff (positive e List.mem_cons_self)
      have others := fun e' member => positive e' (List.mem_cons_of_mem e member)
      simp only [Fills, Shape.offsetsFrom, Shape.stopFrom, List.cons.injEq, ih others]
      constructor
      · rintro ⟨divides, low, high, others, last⟩
        have start := first.mpr ⟨divides, low, high⟩
        rw [start]
        exact ⟨⟨rfl, others⟩, last⟩
      · rintro ⟨⟨start, others⟩, last⟩
        obtain ⟨divides, low, high⟩ := first.mp start.symm
        rw [← start] at others last
        exact ⟨divides, low, high, others, last⟩

theorem fits_iff {s : Shape} {es : List Extent} (positive : ∀ e ∈ es, 0 < e.align) :
    Fits s es ↔ s = .ofMembers es := by
  obtain ⟨offsets, size, align⟩ := s
  have aligned := Shape.maxAlign_pos es
  simp only [Fits, Shape.ofMembers, Shape.mk.injEq]
  constructor
  · rintro ⟨fills, rfl, multiple⟩
    obtain ⟨first, second⟩ := (fills_iff positive aligned multiple).mp fills
    exact ⟨first, second, rfl⟩
  · rintro ⟨first, second, rfl⟩
    have multiple : Shape.maxAlign es ∣ size := by
      rw [second]
      exact dvd_ceil _ aligned
    exact ⟨(fills_iff positive aligned multiple).mpr ⟨first, second⟩, rfl, multiple⟩

def tableExtent (table : LayoutTable) (name : String) : Option Extent := (table.lookup name).map (·.extent)

/-- With structs as large as in the table, no attribute of the struct moves a member or changes size or alignment. -/
def Undisturbed (value : String → Option Nat) (ds : List Declaration) (table : LayoutTable) (d : Declaration) : Prop :=
  ∃ l es, table.lookup d.name = some l ∧
    List.Forall₂ (fun m e => ((rules value ds).part m).extent? (tableExtent table) = some e) d.members es ∧
    Fits l.shape es

section

variable {value : String → Option Nat} {ds : List Declaration} {table : LayoutTable}

theorem Member.extent?_align_pos {m : Member} {natural e : Extent} (found : m.extent? value natural = some e) :
    0 < e.align := by
  simp only [Member.extent?, Option.bind_eq_bind, Option.bind_eq_some_iff] at found
  obtain ⟨size, _, align, _, result⟩ := found
  split at result
  · cases result
  · cases result
    exact Nat.pos_of_ne_zero ‹_›

theorem part_align_pos {known : String → Option Extent} {m : Member} {e : Extent}
    (found : ((rules value ds).part m).extent? known = some e) : 0 < e.align := by
  simp only [rules] at found
  split at found
  · simp only [Part.extent?, Option.bind_eq_bind, Option.bind_eq_some_iff] at found
    obtain ⟨natural, _, result⟩ := found
    exact Member.extent?_align_pos result
  · simp only [Part.extent?, Option.bind_eq_bind, Option.bind_eq_some_iff] at found
    obtain ⟨p, _, result⟩ := found
    split at result
    · cases result
    · exact Member.extent?_align_pos result

theorem extents_align_pos {known : String → Option Extent} {ms : List Member} {es : List Extent}
    (found : List.Forall₂ (fun m e => ((rules value ds).part m).extent? known = some e) ms es) :
    ∀ e ∈ es, 0 < e.align := by
  intro e member
  obtain ⟨m, _, extent⟩ := forall₂_mem_right found member
  exact part_align_pos extent

theorem part_made {m : Member} {inner : String} {f : Extent → Option Extent}
    (made : (rules value ds).part m = .made inner f) : ∃ d ∈ ds, d.name = inner := by
  simp only [rules] at made
  split at made
  · rename_i declared
    cases made
    simpa [isDeclared] using declared
  · cases made

theorem members?_declared {name : String} {ms : List Member} (found : (rules value ds).members? name = some ms) :
    ∃ d ∈ ds, d.name = name ∧ d.members = ms := by
  simp only [rules, Option.map_eq_some_iff] at found
  obtain ⟨d, found, members⟩ := found
  exact ⟨d, List.mem_of_find?_eq_some found, by simpa using List.find?_some found, members⟩

theorem members?_of_mem (distinct : (ds.map (·.name)).Nodup) {d : Declaration} (member : d ∈ ds) :
    (rules value ds).members? d.name = some d.members := by
  simp only [rules, find?_key distinct member, Option.map_some]

theorem undisturbed_of_agrees (distinct : (ds.map (·.name)).Nodup)
    (agrees : ∀ d ∈ ds, Agrees value ds table d.name) {d : Declaration} (member : d ∈ ds) :
    Undisturbed value ds table d := by
  obtain ⟨l, placed, shape⟩ := agrees d member
  obtain ⟨ms, es, declared, extents, same⟩ := Rules.hasShape_iff.mp shape
  cases (members?_of_mem distinct member).symm.trans declared
  have complete (inner : String) (s : Shape) (has : (rules value ds).HasShape inner s) :
      tableExtent table inner = some s.extent := by
    obtain ⟨ms, es, declared, _, _⟩ := Rules.hasShape_iff.mp has
    obtain ⟨other, inside, rfl, _⟩ := members?_declared declared
    obtain ⟨k, found, shape⟩ := agrees other inside
    rw [tableExtent, found, has.unique shape]
    rfl
  have known := extents.imp fun _ _ extent => extent.known complete
  exact ⟨l, es, placed, known, (fits_iff (extents_align_pos known)).mpr same⟩

/-- The structs inside a struct come first, so that the table may be taken for their shapes. -/
theorem agrees_of_undisturbed (distinct : (ds.map (·.name)).Nodup) (acyclic : (rules value ds).Acyclic)
    (undisturbed : ∀ d ∈ ds, Undisturbed value ds table d) {d : Declaration} (member : d ∈ ds) :
    Agrees value ds table d.name := by
  obtain ⟨rank, smaller⟩ := acyclic
  generalize depth : rank d.name = n
  induction n using Nat.strong_induction_on generalizing d with
  | _ n ih =>
    obtain ⟨l, es, placed, known, fits⟩ := undisturbed d member
    refine ⟨l, placed, Rules.hasShape_iff.mpr ⟨d.members, es, members?_of_mem distinct member, ?_, ?_⟩⟩
    · have inside := (List.forall₂_and_left _ _).mpr ⟨fun m (inside : m ∈ d.members) => inside, known⟩
      refine inside.imp fun m e ⟨inside, found⟩ => Rules.hasExtent_of_known ?_ found
      intro inner f k made within
      have lower := smaller d.name d.members (members?_of_mem distinct member) m inside inner f made
      obtain ⟨other, declared, rfl⟩ := part_made made
      obtain ⟨l', found', shape⟩ := ih (rank other.name) (by omega) declared rfl
      rw [tableExtent, found'] at within
      exact ⟨l'.shape, shape, Option.some.inj within⟩
    · exact (fits_iff (extents_align_pos known)).mp fits

/-- Table and shader agree on all structs exactly when no struct contains itself in the shader and no attribute
disturbs the table. -/
theorem agrees_iff_undisturbed (distinct : (ds.map (·.name)).Nodup) :
    (∀ d ∈ ds, Agrees value ds table d.name) ↔
      (rules value ds).Acyclic ∧ ∀ d ∈ ds, Undisturbed value ds table d := by
  constructor
  · intro agrees
    refine ⟨Rules.acyclic_of_shapes ?_, fun d member => undisturbed_of_agrees distinct agrees member⟩
    intro name ms declared
    obtain ⟨d, member, rfl, _⟩ := members?_declared declared
    obtain ⟨l, _, shape⟩ := agrees d member
    exact ⟨l.shape, shape⟩
  · rintro ⟨acyclic, undisturbed⟩ d member
    exact agrees_of_undisturbed distinct acyclic undisturbed member

/-- The struct hides no name of the shader language, and none of its fields asks for a place. -/
def Plain (s : GpuStruct) : Prop :=
  s.name.value ∉ Predeclared.reserved ∧
    ∀ f ∈ s.fields, ∀ d ∈ f.decorators, d.name.value ≠ "align" ∧ d.name.value ≠ "size"

theorem Member.extent?_of_bare {m : Member} {natural : Extent}
    (bare : ∀ a ∈ m.attributes, a.name ≠ "align" ∧ a.name ≠ "size") (positive : 0 < natural.align) :
    m.extent? value natural = some natural := by
  have unasked (name : String) (absent : ∀ a ∈ m.attributes, a.name ≠ name) (n : Nat) :
      m.asked value name n = some n := by
    have none : m.attributes.filter (·.name == name) = [] := by
      rw [List.filter_eq_nil_iff]
      intro a member
      simpa using absent a member
    rw [Member.asked, none]
  have nonzero : natural.align ≠ 0 := by omega
  simp only [Member.extent?, unasked "size" fun a member => (bare a member).2,
    unasked "align" fun a member => (bare a member).1, Option.bind_eq_bind, Option.bind_some, if_neg nonzero]

theorem isDeclared_reserved (free : ∀ d ∈ ds, d.name ∉ Predeclared.reserved) {name : String}
    (reserved : name ∈ Predeclared.reserved) : isDeclared ds name = false := by
  rw [isDeclared, List.any_eq_false]
  intro d member same
  rw [beq_iff_eq] at same
  exact free d member (same ▸ reserved)

/-- A member without attributes takes up what the table gives to its field. -/
theorem part_of_slot {env : Env} {f : GpuField} {m : Member} {slot : Slot} (taken : memberOf env f = .ok m)
    (placed : FieldSlot table f slot)
    (bare : ∀ d ∈ f.decorators, d.name.value ≠ "align" ∧ d.name.value ≠ "size")
    (free : ∀ d ∈ ds, d.name ∉ Predeclared.reserved)
    (declared : ∀ name l, table.lookup name = some l → isDeclared ds name = true ∧ 0 < l.align) :
    ((rules value ds).part m).extent? (tableExtent table) = some slot.extent := by
  obtain ⟨typed, attributes⟩ := memberOf_ok taken
  have plain : ∀ a ∈ m.attributes, a.name ≠ "align" ∧ a.name ≠ "size" := by
    intro a member
    obtain ⟨d, inside, same⟩ := attributes a member
    rw [same]
    exact bare d inside
  cases placed with
  | value named known =>
    obtain ⟨t, found, text⟩ | ⟨unknown, _⟩ := typeName_named named typed
    · cases known.symm.trans found
      obtain ⟨p, _, written, extent⟩ := valueType_predeclared _ (List.mem_of_find?_eq_some known)
      rw [← text] at written
      obtain ⟨reserved, names⟩ := ofText?_reserved written
      have hidden : p.names.any (isDeclared ds) = false := by
        rw [List.any_eq_false]
        intro name member
        rw [isDeclared_reserved free (names name member)]
        exact Bool.false_ne_true
      simp only [rules, isDeclared_reserved free reserved, Part.extent?, written, hidden, Option.bind_eq_bind,
        Option.bind_some, Bool.false_eq_true, if_false, Member.extent?_of_bare plain p.extent_align_pos]
      rw [extent]
      rfl
    · rw [known] at unknown
      cases unknown
  | @nested name l named unknown placed =>
    obtain ⟨t, found, _⟩ | ⟨_, text⟩ := typeName_named named typed
    · rw [unknown] at found
      cases found
    · obtain ⟨known, positive⟩ := declared name l placed
      simp only [rules, text, known, if_true, Part.extent?, tableExtent, placed, Option.map_some,
        Option.bind_eq_bind, Option.bind_some]
      exact Member.extent?_of_bare plain positive

variable {u : SourceUnit}

theorem declares_names (declares : Declares u table ds) : ds.map (·.name) = u.gpuStructs.map (·.name.value) := by
  have same : List.Forall₂ (· = ·) (u.gpuStructs.map (·.name.value)) (ds.map (·.name)) := by
    rw [List.forall₂_map_left_iff, List.forall₂_map_right_iff]
    exact declares.imp fun _ _ result => (declarationOf_ok result).1.symm
  rw [List.forall₂_eq_eq_eq] at same
  exact same.symm

theorem agrees_of_plain (distinct : (u.gpuStructs.map (·.name.value)).Nodup)
    (built : LayoutTable.build u.gpuStructs = .ok table) (declares : Declares u table ds)
    (plain : ∀ s ∈ u.gpuStructs, Plain s) : ∀ s ∈ u.gpuStructs, Agrees value ds table s.name.value := by
  have names := declares_names declares
  obtain ⟨complete, placed⟩ := LayoutTable.build_ok distinct built
  have free : ∀ d ∈ ds, d.name ∉ Predeclared.reserved := by
    intro d member
    obtain ⟨s, inside, result⟩ := forall₂_mem_right declares member
    rw [(declarationOf_ok result).1]
    exact (plain s inside).1
  have declared (name : String) (l : StructLayout) (found : table.lookup name = some l) :
      isDeclared ds name = true ∧ 0 < l.align := by
    obtain ⟨s, slots, known, _, computed⟩ := complete.entry found
    obtain ⟨member, rfl⟩ := (LayoutTable.lookup_declared distinct).mp known
    obtain ⟨d, inside, result⟩ := forall₂_mem_left declares member
    refine ⟨?_, StructLayout.align_pos computed⟩
    rw [isDeclared, List.any_eq_true]
    exact ⟨d, inside, beq_iff_eq.mpr (declarationOf_ok result).1⟩
  have shapes : ∀ name l, table.lookup name = some l → (rules value ds).HasShape name l.shape := by
    refine complete.forall_placed ?_
    intro before name s slots l grows earlier _ known fields computed
    obtain ⟨member, rfl⟩ := (LayoutTable.lookup_declared distinct).mp known
    obtain ⟨d, inside, result⟩ := forall₂_mem_left declares member
    obtain ⟨same, members⟩ := declarationOf_ok result
    have extents : List.Forall₂ (fun m e => (rules value ds).HasExtent m e) d.members (slots.map Slot.extent) := by
      rw [List.forall₂_map_right_iff]
      refine forall₂_join members fields fun f field m slot taken placed => ?_
      refine Rules.hasExtent_of_known ?_ (part_of_slot taken placed ((plain s member).2 f field) free
        fun other k found => declared other k (grows.lookup_eq_some found))
      intro inner _ k _ known
      rw [tableExtent, Option.map_eq_some_iff] at known
      obtain ⟨l', found, rfl⟩ := known
      exact ⟨l'.shape, earlier inner l' found, rfl⟩
    have distinct' : (ds.map (·.name)).Nodup := names ▸ distinct
    rw [(StructLayout.compute_ok computed).1, ← same]
    exact Rules.hasShape_iff.mpr ⟨d.members, _, members?_of_mem distinct' inside, extents, rfl⟩
  intro s member
  obtain ⟨l, found⟩ := placed s member
  exact ⟨l, found, shapes s.name.value l found⟩

end

/-- Whatever values constant expressions have: the shader of a unit starts with the declarations of its structs, and
these have the layouts of the table exactly when no attribute disturbs them. Where no struct hides a name and no
field has one of the two attributes, nothing does. -/
theorem shader_layouts_agree_iff {config : Config} {package : String} {u : SourceUnit} {output : ShaderOutput}
    (distinct : (u.gpuStructs.map (·.name.value)).Nodup)
    (generated : shaderOutput config package u = .ok (some output)) (value : String → Option Nat) :
    ∃ table ds, LayoutTable.build u.gpuStructs = .ok table ∧ Declares u table ds ∧
      (∃ rest, output.wgsl = Doc.render "    " (ds.flatMap fun d => d.doc ++ Doc.blank) ++ rest) ∧
      ((∀ s ∈ u.gpuStructs, Agrees value ds table s.name.value) ↔
        (rules value ds).Acyclic ∧ ∀ d ∈ ds, Undisturbed value ds table d) ∧
      ((∀ s ∈ u.gpuStructs, Plain s) → ∀ s ∈ u.gpuStructs, Agrees value ds table s.name.value) := by
  unfold shaderOutput at generated
  split at generated
  · simp only [bind_ok_iff, mapError_ok_iff] at generated
    obtain ⟨table, built, text, written, host, _, final⟩ := generated
    cases final
    obtain ⟨ds, declares, start⟩ := generate_declares written
    have names := declares_names declares
    refine ⟨table, ds, built, declares, start, ?_, agrees_of_plain distinct built declares⟩
    rw [← agrees_iff_undisturbed (names ▸ distinct)]
    constructor
    · intro agrees d member
      have named : d.name ∈ u.gpuStructs.map (·.name.value) := names ▸ List.mem_map_of_mem member
      obtain ⟨s, inside, same⟩ := List.mem_map.mp named
      exact same ▸ agrees s inside
    · intro agrees s member
      have named : s.name.value ∈ ds.map (·.name) := names ▸ List.mem_map_of_mem member
      obtain ⟨d, inside, same⟩ := List.mem_map.mp named
      exact same ▸ agrees d inside
  · cases generated

def decimal (text : String) : Option Nat :=
  if text.toList.all Char.isDigit then
    some (text.toList.foldl (fun n c => 10 * n + (c.toNat - '0'.toNat)) 0)
  else none

/-- Two numbers, the second of which is to stand at a multiple of sixteen. -/
def spacedUnit : SourceUnit :=
  let name (s : String) : Name := ⟨s, Span.none⟩
  let number : Located TypeExpr := ⟨.named "f32", Span.none⟩
  let align : Decorator := ⟨name "align", [.single (.int (name "16"))], Span.none⟩
  { package := name "main"
    imports := []
    types := []
    components := []
    gpuStructs := [⟨[⟨name "gpu", [], Span.none⟩], name "Light",
      [⟨[], name "power", number⟩, ⟨[align], name "reach", number⟩], Span.none⟩]
    gpuBindings := []
    gpuFunctions := [] }

def spacedTable : LayoutTable := [("Light", ⟨[⟨"power", 0, 4, 4⟩, ⟨"reach", 4, 4, 4⟩], 8, 4⟩)]

def spacedDeclaration : Declaration := ⟨"Light", [⟨[], "power", "f32"⟩, ⟨[⟨"align", ["16"]⟩], "reach", "f32"⟩]⟩

theorem shader_layouts_agree_iff_spaced :
    (spacedUnit.gpuStructs.map (·.name.value)).Nodup ∧
      ∃ output, shaderOutput Config.default "main" spacedUnit = .ok (some output) ∧
      ∃ table ds, LayoutTable.build spacedUnit.gpuStructs = .ok table ∧ Declares spacedUnit table ds ∧
        ((∀ s ∈ spacedUnit.gpuStructs, Agrees decimal ds table s.name.value) ↔
          (rules decimal ds).Acyclic ∧ ∀ d ∈ ds, Undisturbed decimal ds table d) := by
  have distinct : (spacedUnit.gpuStructs.map (·.name.value)).Nodup := by decide
  have generated : ∃ output, shaderOutput Config.default "main" spacedUnit = .ok (some output) := ⟨_, rfl⟩
  obtain ⟨output, generated⟩ := generated
  obtain ⟨table, ds, built, declares, _, agree, _⟩ := shader_layouts_agree_iff distinct generated decimal
  exact ⟨distinct, output, generated, table, ds, built, declares, agree⟩

/-- In the table the second number stands at byte 4 of 8, in the shader at byte 16 of 32. -/
theorem align_attribute_disagrees :
    (∃ output, shaderOutput Config.default "main" spacedUnit = .ok (some output)) ∧
      LayoutTable.build spacedUnit.gpuStructs = .ok spacedTable ∧
      Declares spacedUnit spacedTable [spacedDeclaration] ∧
      ¬ ∀ s ∈ spacedUnit.gpuStructs, Agrees decimal [spacedDeclaration] spacedTable s.name.value := by
  refine ⟨⟨_, rfl⟩, rfl, .cons rfl .nil, ?_⟩
  intro agrees
  obtain ⟨l, found, shape⟩ := agrees _ List.mem_cons_self
  have spaced : (rules decimal [spacedDeclaration]).HasShape "Light" ⟨[0, 16], 32, 16⟩ := ⟨1, by decide⟩
  have placed : spacedTable.lookup "Light" = some ⟨[⟨"power", 0, 4, 4⟩, ⟨"reach", 4, 4, 4⟩], 8, 4⟩ := by decide
  cases placed.symm.trans found
  have same := congrArg Shape.size (shape.unique spaced)
  exact absurd same (by decide)

end ViewLang.Gpu.Wgsl
