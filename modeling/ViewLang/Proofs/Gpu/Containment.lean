import Mathlib.Data.List.Nodup
import Mathlib.Data.List.Perm.Subperm
import Mathlib.Logic.Relation
import ViewLang.Proofs.Gpu.BuiltTable

namespace ViewLang.Gpu

def structNames (structs : List GpuStruct) : List String := structs.map (·.name.value)

/-- The field's type is a plain name, of a value type or of a declared struct. -/
def Placeable (structs : List GpuStruct) (f : GpuField) : Prop :=
  ∃ name, f.ty.value = .named name ∧ ((ValueType.ofName? name).isSome ∨ name ∈ structNames structs)

/-- A field of the struct `outer` has the struct `inner` for its type. A name that is a value type's is no struct's. -/
def Contains (structs : List GpuStruct) (outer inner : String) : Prop :=
  ∃ s ∈ structs, s.name.value = outer ∧ ∃ f ∈ s.fields,
    f.ty.value = .named inner ∧ ValueType.ofName? inner = none ∧ inner ∈ structNames structs

/-- No struct contains itself, directly or through others. -/
def Acyclic (structs : List GpuStruct) : Prop := ∀ name, ¬ Relation.TransGen (Contains structs) name name

theorem lookup_isSome_iff {α : Type} {entries : List (String × α)} {name : String} :
    (entries.lookup name).isSome ↔ name ∈ entries.map (·.1) := by
  rw [List.lookup_isSome_iff, List.mem_map]
  simp only [beq_iff_eq, @eq_comm String name]

theorem Built.entry_at {decls : List (String × GpuStruct)} {before after : LayoutTable} {name : String}
    {l : StructLayout} (built : Built decls (before ++ (name, l) :: after)) :
    ∃ decl slots, decls.lookup name = some decl ∧ List.Forall₂ (FieldSlot before) decl.fields slots ∧
      StructLayout.compute slots = .ok l := by
  generalize same : before ++ (name, l) :: after = table at built
  induction built generalizing after with
  | nil => simp at same
  | @snoc table added decl slots k _ _ declared fields computed ih =>
    rcases List.eq_nil_or_concat after with rfl | ⟨earlier, last, rfl⟩
    · obtain ⟨rfl, entry⟩ := List.append_inj' same rfl
      cases entry
      exact ⟨decl, slots, declared, fields, computed⟩
    · have shorter : (before ++ (name, l) :: earlier) ++ [last] = table ++ [(added, k)] := by
        simpa using same
      exact ih (List.append_inj' shorter rfl).1

theorem Built.names_nodup {decls : List (String × GpuStruct)} {table : LayoutTable} (built : Built decls table) :
    (table.map (·.1)).Nodup := by
  induction built with
  | nil => exact List.nodup_nil
  | @snoc table name _ _ _ _ fresh _ _ _ ih =>
    have absent : name ∉ table.map (·.1) := by
      rw [← lookup_isSome_iff, fresh]
      exact Bool.false_ne_true
    rw [List.map_append, List.nodup_append]
    refine ⟨ih, List.nodup_singleton _, ?_⟩
    intro other inside same last
    rw [List.map_singleton, List.mem_singleton] at last
    rintro rfl
    subst last
    exact absent inside

namespace LayoutTable

/-- What a table says about the structs it was built from. -/
structure Describes (structs : List GpuStruct) (table : LayoutTable) : Prop where
  once : (table.map (·.1)).Perm (structNames structs)
  /-- The structs that a struct's fields use stand before it, and its layout is computed from theirs. -/
  computed : ∀ before name l after, table = before ++ (name, l) :: after →
    ∃ s ∈ structs, s.name.value = name ∧
      ∃ slots, List.Forall₂ (FieldSlot before) s.fields slots ∧ StructLayout.compute slots = .ok l

def resolveOr (decls : List (String × GpuStruct)) (stuck unknown : String → LayoutFault) :
    Nat → List String → LayoutTable → String → Except LayoutFault (Nat × Nat × LayoutTable)
  | 0, _, _, name => .error (stuck name)
  | n + 1, active, table, name =>
    match table.lookup name with
    | some l => .ok (l.size, l.align, table)
    | none =>
      match decls.lookup name with
      | none => .error (unknown name)
      | some decl =>
        if name ∈ active then .error (.shader ⟨.unknownType name .containsItself, decl.name.span⟩)
        else do
          let (slots, table) ←
            fieldSlots decls (fun t x => resolveOr decls stuck unknown n (name :: active) t x) table decl.fields
          let layout ← (StructLayout.compute slots).mapError .overflow
          .ok (layout.size, layout.align, table ++ [(name, layout)])

def resolveAllOr (decls : List (String × GpuStruct)) (stuck unknown : String → LayoutFault) (n : Nat) :
    LayoutTable → List String → Except LayoutFault LayoutTable
  | table, [] => .ok table
  | table, name :: names => do
    let (_, _, table) ← resolveOr decls stuck unknown n [] table name
    resolveAllOr decls stuck unknown n table names

/-- Lay out all structs, with a search at most `n` deep. -/
def buildOr (stuck unknown : String → LayoutFault) (n : Nat) (structs : List GpuStruct) :
    Except LayoutFault LayoutTable :=
  let decls := declTable structs
  resolveAllOr decls stuck unknown n [] (decls.map (·.1))

def tooDeep (name : String) : LayoutFault := .shader ⟨.unknownType name .containsItself, Span.none⟩

def undeclared (name : String) : LayoutFault := .shader ⟨.unknownType name .notGpuType, Span.none⟩

variable {decls : List (String × GpuStruct)} {stuck unknown stuck' unknown' : String → LayoutFault}

theorem resolve_eq (n : Nat) (active : List String) :
    resolve decls n active = resolveOr decls tooDeep undeclared n active := by
  induction n generalizing active with
  | zero => rfl
  | succ n ih =>
    funext table name
    simp only [resolve, resolveOr, ih]
    rfl

theorem resolveAll_eq (table : LayoutTable) (names : List String) :
    resolveAll decls table names = resolveAllOr decls tooDeep undeclared (decls.length + 1) table names := by
  induction names generalizing table with
  | nil => rfl
  | cons name names ih => simp only [resolveAll, resolveAllOr, resolve_eq, ih]

theorem build_eq (structs : List GpuStruct) :
    build structs = buildOr tooDeep undeclared ((declTable structs).length + 1) structs :=
  resolveAll_eq _ _

/-- Searching fields depends only on what is found for declared names. -/
theorem fieldSlots_congr {inner other : LayoutTable → String → Except LayoutFault (Nat × Nat × LayoutTable)}
    (same : ∀ table name, (decls.lookup name).isSome → inner table name = other table name)
    (table : LayoutTable) (fs : List GpuField) :
    fieldSlots decls inner table fs = fieldSlots decls other table fs := by
  have single (table : LayoutTable) (f : GpuField) :
      fieldSlot decls inner table f = fieldSlot decls other table f := by
    unfold fieldSlot
    congr 1
    funext name
    split
    · rfl
    · split
      · rw [same table name ‹_›]
      · rfl
  induction fs generalizing table with
  | nil => rfl
  | cons f fs ih => simp only [fieldSlots, single, ih]

/-- Different declared structs are at most as many as there are. -/
theorem length_le_declared {active : List String} (distinct : active.Nodup) (inside : active ⊆ decls.map (·.1)) :
    active.length ≤ decls.length := by
  have fewer := (List.subperm_of_subset distinct inside).length_le
  rwa [List.length_map] at fewer

/-- The structs being laid out are different declared ones, so the bound is never used up. -/
theorem resolveOr_eq (n n' : Nat) {active : List String} (distinct : active.Nodup)
    (inside : active ⊆ decls.map (·.1)) (deep : decls.length < n + active.length)
    (deep' : decls.length < n' + active.length) (table : LayoutTable) {name : String}
    (declared : (decls.lookup name).isSome) :
    resolveOr decls stuck unknown n active table name = resolveOr decls stuck' unknown' n' active table name := by
  have bounded := length_le_declared distinct inside
  induction n generalizing n' active table name with
  | zero => omega
  | succ n ih =>
    obtain ⟨n', rfl⟩ : ∃ k, n' = k + 1 := ⟨n' - 1, by omega⟩
    simp only [resolveOr]
    cases table.lookup name with
    | some l => rfl
    | none =>
      cases found : decls.lookup name with
      | none => simp [found] at declared
      | some decl =>
        by_cases again : name ∈ active
        · simp only [again, if_true]
        · simp only [again, if_false]
          have more : (name :: active).Nodup := List.nodup_cons.mpr ⟨again, distinct⟩
          have known : name :: active ⊆ decls.map (·.1) :=
            List.cons_subset.mpr ⟨lookup_isSome_iff.mp declared, inside⟩
          have length : (name :: active).length = active.length + 1 := List.length_cons
          rw [fieldSlots_congr fun table inner isKnown =>
            ih n' more known (by omega) (by omega) table isKnown (length_le_declared more known)]

theorem resolveAllOr_eq (n n' : Nat) (deep : decls.length < n) (deep' : decls.length < n') (table : LayoutTable)
    {names : List String} (declared : names ⊆ decls.map (·.1)) :
    resolveAllOr decls stuck unknown n table names = resolveAllOr decls stuck' unknown' n' table names := by
  induction names generalizing table with
  | nil => rfl
  | cons name names ih =>
    obtain ⟨first, others⟩ := List.cons_subset.mp declared
    have known : (decls.lookup name).isSome := lookup_isSome_iff.mpr first
    have same : resolveOr decls stuck unknown n [] table name = resolveOr decls stuck' unknown' n' [] table name :=
      resolveOr_eq n n' List.nodup_nil (List.nil_subset _) deep deep' table known
    simp only [resolveAllOr, same]
    congr 1
    funext found
    exact ih found.2.2 others

/-- Neither the bound nor the answers to what is never asked make a difference. -/
theorem buildOr_eq (n : Nat) {structs : List GpuStruct} (deep : (declTable structs).length < n) :
    buildOr stuck unknown n structs = build structs := by
  rw [build_eq]
  exact resolveAllOr_eq _ _ deep (Nat.lt_succ_self _) _ (List.Subset.refl _)

variable {structs : List GpuStruct} {table : LayoutTable}

theorem build_describes (distinct : (structNames structs).Nodup) (built : build structs = .ok table) :
    Describes structs table := by
  obtain ⟨grown, complete⟩ := build_ok distinct built
  have entries (before : LayoutTable) (name : String) (l : StructLayout) (after : LayoutTable)
      (split : table = before ++ (name, l) :: after) : ∃ s ∈ structs, s.name.value = name ∧
        ∃ slots, List.Forall₂ (FieldSlot before) s.fields slots ∧ StructLayout.compute slots = .ok l := by
    subst split
    obtain ⟨s, slots, declared, fields, computed⟩ := Built.entry_at grown
    obtain ⟨member, named⟩ := (lookup_declared distinct).mp declared
    exact ⟨s, member, named, slots, fields, computed⟩
  refine ⟨?_, entries⟩
  rw [List.perm_ext_iff_of_nodup grown.names_nodup distinct]
  intro name
  constructor
  · intro inside
    obtain ⟨⟨other, l⟩, member, rfl⟩ := List.mem_map.mp inside
    obtain ⟨before, after, split⟩ := List.append_of_mem member
    obtain ⟨s, declared, named, _⟩ := entries before other l after split
    exact List.mem_map.mpr ⟨s, declared, named⟩
  · intro inside
    obtain ⟨s, declared, rfl⟩ := List.mem_map.mp inside
    obtain ⟨l, found⟩ := complete s declared
    exact lookup_isSome_iff.mp (by simp [found])

/-- Where a declared struct stands in a table, with the slots of its fields. -/
theorem Describes.place (describes : Describes structs table) (distinct : (structNames structs).Nodup)
    {s : GpuStruct} (member : s ∈ structs) :
    ∃ before l after, table = before ++ (s.name.value, l) :: after ∧
      ∀ f ∈ s.fields, ∃ slot, FieldSlot before f slot := by
  have listed : s.name.value ∈ table.map (·.1) :=
    describes.once.mem_iff.mpr (List.mem_map.mpr ⟨s, member, rfl⟩)
  obtain ⟨⟨name, l⟩, inside, named⟩ := List.mem_map.mp listed
  obtain ⟨before, after, split⟩ := List.append_of_mem inside
  obtain ⟨other, declared, same, slots, fields, _⟩ := describes.computed before name l after split
  have equal : other = s := List.inj_on_of_nodup_map distinct declared member (same.trans named)
  subst equal
  refine ⟨before, l, after, named ▸ split, fun f field => ?_⟩
  obtain ⟨slot, _, placed⟩ := forall₂_mem_left fields field
  exact ⟨slot, placed⟩

theorem Describes.placeable (describes : Describes structs table) (distinct : (structNames structs).Nodup)
    {s : GpuStruct} (member : s ∈ structs) {f : GpuField} (field : f ∈ s.fields) : Placeable structs f := by
  obtain ⟨before, l, after, split, slots⟩ := describes.place distinct member
  obtain ⟨slot, placed⟩ := slots f field
  cases placed with
  | value named known => exact ⟨_, named, .inl (by simp [known])⟩
  | nested named _ found =>
    refine ⟨_, named, .inr ?_⟩
    have earlier := lookup_isSome_iff.mp (Option.isSome_iff_exists.mpr ⟨_, found⟩)
    rw [← describes.once.mem_iff, split, List.map_append]
    exact List.mem_append_left _ earlier

theorem Describes.contained_earlier (describes : Describes structs table) (distinct : (structNames structs).Nodup)
    {outer inner : String} (contains : Contains structs outer inner) :
    (table.map (·.1)).idxOf inner < (table.map (·.1)).idxOf outer := by
  obtain ⟨s, member, rfl, f, field, named, unknown, _⟩ := contains
  obtain ⟨before, l, after, split, slots⟩ := describes.place distinct member
  obtain ⟨slot, placed⟩ := slots f field
  cases placed with
  | value other known =>
    cases named.symm.trans other
    simp [unknown] at known
  | nested other _ found =>
    cases named.symm.trans other
    have earlier := lookup_isSome_iff.mp (Option.isSome_iff_exists.mpr ⟨_, found⟩)
    have absent : s.name.value ∉ before.map (·.1) := by
      have once := describes.once.nodup_iff.mpr distinct
      rw [split, List.map_append, List.nodup_append] at once
      intro inside
      exact once.2.2 _ inside _ (List.mem_map.mpr ⟨_, List.mem_cons_self, rfl⟩) rfl
    rw [split, List.map_append, List.idxOf_append_of_mem earlier, List.idxOf_append_of_notMem absent]
    exact Nat.lt_add_right _ (List.idxOf_lt_length_of_mem earlier)

theorem Describes.acyclic (describes : Describes structs table) (distinct : (structNames structs).Nodup) :
    Acyclic structs := by
  have earlier {outer inner : String} (path : Relation.TransGen (Contains structs) outer inner) :
      (table.map (·.1)).idxOf inner < (table.map (·.1)).idxOf outer := by
    induction path with
    | single step => exact describes.contained_earlier distinct step
    | tail _ step ih => exact Nat.lt_trans (describes.contained_earlier distinct step) ih
  exact fun name path => Nat.lt_irrefl _ (earlier path)

def IsOverflow (e : LayoutFault) : Prop := ∃ o, e = .overflow o

theorem fieldSlot_error {inner : LayoutTable → String → Except LayoutFault (Nat × Nat × LayoutTable)}
    {f : GpuField} {e : LayoutFault} (placeable : Placeable structs f)
    (nested : ∀ table name e, f.ty.value = .named name → ValueType.ofName? name = none →
      name ∈ structNames structs → inner table name = .error e → IsOverflow e)
    (failed : fieldSlot (structs.map fun s => (s.name.value, s)) inner table f = .error e) : IsOverflow e := by
  obtain ⟨name, named, known⟩ := placeable
  simp only [fieldSlot, fieldTypeName, named, bind_error_iff, mapError_error_iff, mapError_ok_iff] at failed
  rcases failed with ⟨_, impossible, _⟩ | ⟨found, same, failed⟩
  · cases impossible
  · cases same
    split at failed
    · cases failed
    · rename_i unknown
      have declared : name ∈ structNames structs := known.resolve_left (by simp [unknown])
      have listed : ((structs.map fun s => (s.name.value, s)).lookup name).isSome := by
        rw [lookup_isSome_iff, List.map_map]
        exact declared
      rw [if_pos listed, bind_error_iff] at failed
      rcases failed with failed | ⟨_, _, impossible⟩
      · exact nested table name e named unknown declared failed
      · cases impossible

theorem fieldSlots_error {inner : LayoutTable → String → Except LayoutFault (Nat × Nat × LayoutTable)}
    {fs : List GpuField} {e : LayoutFault} (placeable : ∀ f ∈ fs, Placeable structs f)
    (nested : ∀ f ∈ fs, ∀ table name e, f.ty.value = .named name → ValueType.ofName? name = none →
      name ∈ structNames structs → inner table name = .error e → IsOverflow e)
    (failed : fieldSlots (structs.map fun s => (s.name.value, s)) inner table fs = .error e) : IsOverflow e := by
  induction fs generalizing table with
  | nil => cases failed
  | cons f fs ih =>
    simp only [fieldSlots, bind_error_iff] at failed
    rcases failed with failed | ⟨_, _, failed | ⟨_, _, impossible⟩⟩
    · exact fieldSlot_error (placeable f List.mem_cons_self) (nested f List.mem_cons_self) failed
    · exact ih (fun g member => placeable g (List.mem_cons_of_mem _ member))
        (fun g member => nested g (List.mem_cons_of_mem _ member)) failed
    · cases impossible

/-- The structs being laid out contain the one that is looked for, so it is none of them. -/
theorem resolveOr_error (distinct : (structNames structs).Nodup)
    (placeable : ∀ s ∈ structs, ∀ f ∈ s.fields, Placeable structs f) (acyclic : Acyclic structs)
    (deep : ∀ name, IsOverflow (stuck name)) (strange : ∀ name, IsOverflow (unknown name)) (n : Nat)
    {active : List String} {name : String} {e : LayoutFault}
    (path : ∀ outer ∈ active, Relation.TransGen (Contains structs) outer name)
    (failed : resolveOr (structs.map fun s => (s.name.value, s)) stuck unknown n active table name = .error e) :
    IsOverflow e := by
  induction n generalizing active table name e with
  | zero =>
    cases failed
    exact deep name
  | succ n ih =>
    rw [resolveOr] at failed
    split at failed
    · cases failed
    · split at failed
      · cases failed
        exact strange name
      · rename_i s found
        obtain ⟨member, named⟩ := (lookup_declared distinct).mp found
        split at failed
        · exact absurd (path name ‹_›) (acyclic name)
        · simp only [bind_error_iff, mapError_error_iff] at failed
          rcases failed with failed | ⟨_, _, ⟨o, _, rfl⟩ | ⟨_, _, impossible⟩⟩
          · refine fieldSlots_error (placeable s member) ?_ failed
            intro f field table inner e type unnamed declared
            have step : Contains structs name inner := ⟨s, member, named, f, field, type, unnamed, declared⟩
            refine ih ?_
            intro outer inside
            rcases List.mem_cons.mp inside with rfl | inside
            · exact .single step
            · exact (path outer inside).tail step
          · exact ⟨o, rfl⟩
          · cases impossible

theorem resolveAllOr_error (distinct : (structNames structs).Nodup)
    (placeable : ∀ s ∈ structs, ∀ f ∈ s.fields, Placeable structs f) (acyclic : Acyclic structs)
    (deep : ∀ name, IsOverflow (stuck name)) (strange : ∀ name, IsOverflow (unknown name)) (n : Nat)
    {names : List String} {e : LayoutFault}
    (failed : resolveAllOr (structs.map fun s => (s.name.value, s)) stuck unknown n table names = .error e) :
    IsOverflow e := by
  induction names generalizing table with
  | nil => cases failed
  | cons name names ih =>
    rw [resolveAllOr, bind_error_iff] at failed
    rcases failed with failed | ⟨_, _, failed⟩
    · exact resolveOr_error distinct placeable acyclic deep strange n (by simp) failed
    · exact ih failed

/-- Structs with known field types, of which none contains itself, fail for their sizes only. -/
theorem build_error (distinct : (structNames structs).Nodup)
    (placeable : ∀ s ∈ structs, ∀ f ∈ s.fields, Placeable structs f) (acyclic : Acyclic structs)
    {e : LayoutFault} (failed : build structs = .error e) : IsOverflow e := by
  -- What is answered where the search never gets makes no difference, so let it be an overflow there.
  let answer : String → LayoutFault := fun _ => .overflow .add
  have never (name : String) : IsOverflow (answer name) := ⟨.add, rfl⟩
  have same : buildOr answer answer ((declTable structs).length + 1) structs = build structs :=
    buildOr_eq _ (Nat.lt_succ_self _)
  rw [← same, buildOr, declTable_of_distinct distinct] at failed
  exact resolveAllOr_error distinct placeable acyclic never never _ failed

/-- Where sizes fit, structs are laid out if and only if their fields have known types and none contains itself. The
table has every struct once, behind what it contains. The search is never deeper than there are structs, and never
asks for an undeclared one: with any larger bound, and with any answers in those cases, the result is the same. -/
theorem build_succeeds_iff_acyclic {structs : List GpuStruct} (distinct : (structNames structs).Nodup)
    (fits : ∀ o, build structs ≠ .error (.overflow o)) :
    ((∃ table, build structs = .ok table) ↔
      (∀ s ∈ structs, ∀ f ∈ s.fields, Placeable structs f) ∧ Acyclic structs) ∧
    (∀ table, build structs = .ok table → Describes structs table) ∧
    (∀ stuck unknown n, structs.length < n → buildOr stuck unknown n structs = build structs) := by
  refine ⟨⟨?_, ?_⟩, fun table built => build_describes distinct built, ?_⟩
  · rintro ⟨table, built⟩
    have describes := build_describes distinct built
    exact ⟨fun s member f field => describes.placeable distinct member field, describes.acyclic distinct⟩
  · rintro ⟨placeable, acyclic⟩
    cases result : build structs with
    | ok table => exact ⟨table, rfl⟩
    | error e =>
      obtain ⟨o, rfl⟩ := build_error distinct placeable acyclic result
      exact absurd result (fits o)
  · intro stuck unknown n deep
    refine buildOr_eq n ?_
    rwa [declTable_of_distinct distinct, List.length_map]

/-- Two structs that both contain a third, and a fourth that contains them. -/
def diamondStructs : List GpuStruct :=
  let name (s : String) : Name := ⟨s, Span.none⟩
  let field (s type : String) : GpuField := ⟨[], name s, ⟨.named type, Span.none⟩⟩
  [⟨[], name "Pair", [field "first" "Left", field "second" "Right"], Span.none⟩,
    ⟨[], name "Left", [field "base" "Point", field "weight" "f32"], Span.none⟩,
    ⟨[], name "Right", [field "tint" "vec3", field "base" "Point"], Span.none⟩,
    ⟨[], name "Point", [field "at" "vec2"], Span.none⟩]

theorem build_succeeds_iff_acyclic_diamond :
    (structNames diamondStructs).Nodup ∧ (∀ o, build diamondStructs ≠ .error (.overflow o)) ∧
      Acyclic diamondStructs ∧ (∀ table, build diamondStructs = .ok table → Describes diamondStructs table) := by
  have distinct : (structNames diamondStructs).Nodup := by decide
  have built : ∃ table, build diamondStructs = .ok table := ⟨_, rfl⟩
  have fits (o : Overflow) : build diamondStructs ≠ .error (.overflow o) := by
    obtain ⟨table, result⟩ := built
    simp [result]
  obtain ⟨succeeds, describes, _⟩ := build_succeeds_iff_acyclic distinct fits
  exact ⟨distinct, fits, (succeeds.mp built).2, describes⟩

end LayoutTable
end ViewLang.Gpu
