import ViewLang.Proofs.Gpu.Placement

namespace ViewLang.Gpu

/-- The slot of a field, whose type is a value type or a struct of the table. -/
inductive FieldSlot (table : LayoutTable) (f : GpuField) : Slot → Prop
  | value {name : String} {t : ValueType} (named : f.ty.value = .named name)
    (known : ValueType.ofName? name = some t) : FieldSlot table f ⟨f.name.value, t.size, t.align⟩
  | nested {name : String} {l : StructLayout} (named : f.ty.value = .named name)
    (unknown : ValueType.ofName? name = none) (placed : table.lookup name = some l) :
    FieldSlot table f ⟨f.name.value, l.size, l.align⟩

theorem FieldSlot.grow {table larger : LayoutTable} {f : GpuField} {s : Slot} (slot : FieldSlot table f s)
    (grows : table <+: larger) : FieldSlot larger f s := by
  cases slot with
  | value named known => exact .value named known
  | nested named unknown placed => exact .nested named unknown (grows.lookup_eq_some placed)

inductive Built (decls : List (String × GpuStruct)) : LayoutTable → Prop
  | nil : Built decls []
  | snoc {table : LayoutTable} {name : String} {decl : GpuStruct} {slots : List Slot} {l : StructLayout}
    (before : Built decls table) (fresh : table.lookup name = none) (declared : decls.lookup name = some decl)
    (fields : List.Forall₂ (FieldSlot table) decl.fields slots) (computed : StructLayout.compute slots = .ok l) :
    Built decls (table ++ [(name, l)])

theorem lookup_snoc {table : LayoutTable} {name other : String} {l : StructLayout} (different : other ≠ name) :
    (table ++ [(name, l)]).lookup other = table.lookup other := by
  have unequal : (other == name) = false := by simpa using different
  rw [List.lookup_append, List.lookup_cons, unequal, List.lookup_nil, Option.or_none]

theorem lookup_snoc_self {table : LayoutTable} {name : String} {l : StructLayout}
    (fresh : table.lookup name = none) : (table ++ [(name, l)]).lookup name = some l := by
  rw [List.lookup_append, List.lookup_cons_self, fresh, Option.none_or]

/-- What passes from the structs before a struct to the struct itself holds of all. -/
theorem Built.forall_placed {decls : List (String × GpuStruct)} {table : LayoutTable}
    {P : String → StructLayout → Prop} (built : Built decls table)
    (step : ∀ {before : LayoutTable} {name : String} {decl : GpuStruct} {slots : List Slot} {l : StructLayout},
      before <+: table → (∀ other k, before.lookup other = some k → P other k) → table.lookup name = some l →
      decls.lookup name = some decl → List.Forall₂ (FieldSlot before) decl.fields slots →
      StructLayout.compute slots = .ok l → P name l) :
    ∀ name l, table.lookup name = some l → P name l := by
  induction built with
  | nil =>
    intro name l found
    cases found
  | @snoc table added decl slots k before fresh declared fields computed ih =>
    have grows : table <+: table ++ [(added, k)] := List.prefix_append _ _
    have earlier := ih fun inside before found => step (inside.trans grows) before (grows.lookup_eq_some found)
    intro name l found
    by_cases same : name = added
    · subst same
      have last := lookup_snoc_self (l := k) fresh
      cases found.symm.trans last
      exact step grows earlier last declared fields computed
    · rw [lookup_snoc same] at found
      exact earlier name l found

/-- A layout of the table is the one computed from the struct's fields. -/
theorem Built.entry {decls : List (String × GpuStruct)} {table : LayoutTable} (built : Built decls table)
    {name : String} {l : StructLayout} (found : table.lookup name = some l) :
    ∃ decl slots, decls.lookup name = some decl ∧ List.Forall₂ (FieldSlot table) decl.fields slots ∧
      StructLayout.compute slots = .ok l := by
  refine built.forall_placed (P := fun name l => ∃ decl slots, decls.lookup name = some decl ∧
    List.Forall₂ (FieldSlot table) decl.fields slots ∧ StructLayout.compute slots = .ok l) ?_ name l found
  intro before name decl slots l grows _ _ declared fields computed
  exact ⟨decl, slots, declared, fields.imp fun _ _ slot => slot.grow grows, computed⟩

theorem StructLayout.align_pos {slots : List Slot} {l : StructLayout} (computed : compute slots = .ok l) :
    0 < l.align := by
  have shape := (compute_ok computed).1
  have same : l.align = Shape.maxAlign (slots.map Slot.extent) := congrArg Shape.align shape
  rw [same]
  exact Shape.maxAlign_pos _

namespace LayoutTable

structure Resolved (decls : List (String × GpuStruct)) (active : List String) (before after : LayoutTable) : Prop where
  built : Built decls after
  grows : before <+: after
  untouched : ∀ name ∈ active, after.lookup name = before.lookup name

theorem Resolved.refl {decls : List (String × GpuStruct)} {active : List String} {table : LayoutTable}
    (built : Built decls table) : Resolved decls active table table :=
  ⟨built, List.prefix_rfl, fun _ _ => rfl⟩

theorem Resolved.trans {decls : List (String × GpuStruct)} {active : List String} {first second third : LayoutTable}
    (left : Resolved decls active first second) (right : Resolved decls active second third) :
    Resolved decls active first third :=
  ⟨right.built, left.grows.trans right.grows,
    fun name member => (right.untouched name member).trans (left.untouched name member)⟩

def Answers (decls : List (String × GpuStruct)) (active : List String)
    (inner : LayoutTable → String → Except LayoutFault (Nat × Nat × LayoutTable)) : Prop :=
  ∀ table name size align after, Built decls table → inner table name = .ok (size, align, after) →
    Resolved decls active table after ∧ ∃ l, after.lookup name = some l ∧ l.size = size ∧ l.align = align

variable {decls : List (String × GpuStruct)} {active : List String}
  {inner : LayoutTable → String → Except LayoutFault (Nat × Nat × LayoutTable)}

theorem fieldTypeName_ok {ty : Located TypeExpr} {name : String} (result : fieldTypeName ty = .ok name) :
    ty.value = .named name := by
  unfold fieldTypeName at result
  split at result
  · cases result
    assumption
  · cases result
  · cases result

theorem fieldSlot_ok {table after : LayoutTable} {f : GpuField} {s : Slot} (answers : Answers decls active inner)
    (built : Built decls table) (result : fieldSlot decls inner table f = .ok (s, after)) :
    Resolved decls active table after ∧ FieldSlot after f s := by
  simp only [fieldSlot, bind_ok_iff, mapError_ok_iff] at result
  obtain ⟨name, typed, result⟩ := result
  have named := fieldTypeName_ok typed
  split at result
  · cases result
    exact ⟨.refl built, .value named ‹_›⟩
  · split at result
    · rw [bind_ok_iff] at result
      obtain ⟨⟨size, align, larger⟩, answered, final⟩ := result
      cases final
      obtain ⟨resolved, l, placed, rfl, rfl⟩ := answers _ _ _ _ _ built answered
      exact ⟨resolved, .nested named ‹_› placed⟩
    · cases result

theorem fieldSlots_ok {table after : LayoutTable} {fs : List GpuField} {slots : List Slot}
    (answers : Answers decls active inner) (built : Built decls table)
    (result : fieldSlots decls inner table fs = .ok (slots, after)) :
    Resolved decls active table after ∧ List.Forall₂ (FieldSlot after) fs slots := by
  induction fs generalizing table slots with
  | nil =>
    cases result
    exact ⟨.refl built, .nil⟩
  | cons f fs ih =>
    simp only [fieldSlots, bind_ok_iff] at result
    obtain ⟨⟨s, middle⟩, first, ⟨ss, last⟩, others, final⟩ := result
    cases final
    obtain ⟨started, slot⟩ := fieldSlot_ok answers built first
    obtain ⟨finished, rest⟩ := ih started.built others
    exact ⟨started.trans finished, .cons (slot.grow finished.grows) rest⟩

/-- While a struct is being laid out it is active, so that nothing inside it adds it to the table. -/
theorem resolve_answers (n : Nat) (active : List String) :
    Answers decls active (resolve decls n active) := by
  induction n generalizing active with
  | zero =>
    intro table name size align after _ result
    cases result
  | succ n ih =>
    intro table name size align after built result
    rw [resolve] at result
    split at result
    · cases result
      exact ⟨.refl built, _, ‹_›, rfl, rfl⟩
    · split at result
      · cases result
      · split at result
        · cases result
        · simp only [bind_ok_iff, mapError_ok_iff] at result
          obtain ⟨⟨slots, larger⟩, laid, l, computed, final⟩ := result
          cases final
          obtain ⟨resolved, fields⟩ := fieldSlots_ok (ih (name :: active)) built laid
          have fresh : larger.lookup name = none := by
            rw [resolved.untouched name List.mem_cons_self]
            assumption
          refine ⟨⟨.snoc resolved.built fresh ‹_› fields computed, ?_, ?_⟩, l, lookup_snoc_self fresh, rfl, rfl⟩
          · exact resolved.grows.trans (List.prefix_append _ _)
          · intro other member
            have different : other ≠ name := by
              rintro rfl
              contradiction
            rw [lookup_snoc different]
            exact resolved.untouched other (List.mem_cons_of_mem _ member)

theorem resolveAll_ok {names : List String} {table after : LayoutTable} (built : Built decls table)
    (result : resolveAll decls table names = .ok after) :
    Resolved decls [] table after ∧ ∀ name ∈ names, ∃ l, after.lookup name = some l := by
  induction names generalizing table with
  | nil =>
    cases result
    exact ⟨.refl built, by simp⟩
  | cons name names ih =>
    simp only [resolveAll, bind_ok_iff] at result
    obtain ⟨⟨size, align, middle⟩, first, others⟩ := result
    obtain ⟨started, l, placed, _, _⟩ := resolve_answers _ _ _ _ _ _ _ built first
    obtain ⟨finished, rest⟩ := ih started.built others
    refine ⟨started.trans finished, ?_⟩
    intro other member
    rcases List.mem_cons.mp member with rfl | member
    · exact ⟨l, finished.grows.lookup_eq_some placed⟩
    · exact rest other member

/-- Declarations with different names keep their order in the table of declarations. -/
theorem declTable_of_distinct {structs : List GpuStruct} (distinct : (structs.map (·.name.value)).Nodup) :
    declTable structs = structs.map fun s => (s.name.value, s) := by
  have general (acc : List (String × GpuStruct))
      (disjoint : ∀ s ∈ structs, acc.lookup s.name.value = none) :
      structs.foldl (fun table s =>
        if (table.lookup s.name.value).isSome then
          table.map fun entry => if entry.1 = s.name.value then (entry.1, s) else entry
        else table ++ [(s.name.value, s)]) acc = acc ++ structs.map fun s => (s.name.value, s) := by
    induction structs generalizing acc with
    | nil => simp
    | cons s ss ih =>
      rw [List.map_cons, List.nodup_cons] at distinct
      have absent : acc.lookup s.name.value = none := disjoint s List.mem_cons_self
      rw [List.foldl_cons, if_neg (by simp [absent]), ih distinct.2]
      · simp
      · intro other member
        have different : other.name.value ≠ s.name.value := by
          intro same
          exact distinct.1 (same ▸ List.mem_map_of_mem member)
        have unequal : (other.name.value == s.name.value) = false := by simpa using different
        rw [List.lookup_append, disjoint other (List.mem_cons_of_mem _ member), List.lookup_cons, unequal]
        rfl
  exact (general [] (by simp)).trans (List.nil_append _)

theorem lookup_declared {structs : List GpuStruct} (distinct : (structs.map (·.name.value)).Nodup)
    {s : GpuStruct} {name : String} :
    (structs.map fun s => (s.name.value, s)).lookup name = some s ↔ s ∈ structs ∧ s.name.value = name := by
  induction structs with
  | nil => simp
  | cons first rest ih =>
    rw [List.map_cons, List.nodup_cons] at distinct
    rw [List.map_cons, List.lookup_cons]
    by_cases same : name = first.name.value
    · subst same
      simp only [BEq.rfl, Option.some.injEq, List.mem_cons]
      constructor
      · rintro rfl
        exact ⟨.inl rfl, rfl⟩
      · rintro ⟨rfl | member, named⟩
        · rfl
        · exact absurd (named ▸ List.mem_map_of_mem member) distinct.1
    · have different : (name == first.name.value) = false := by simpa using same
      simp only [different, ih distinct.2, List.mem_cons]
      constructor
      · rintro ⟨member, named⟩
        exact ⟨.inr member, named⟩
      · rintro ⟨rfl | member, named⟩
        · exact absurd named.symm same
        · exact ⟨member, named⟩

/-- A table that is built at all holds every declared struct. -/
theorem build_ok {structs : List GpuStruct} {table : LayoutTable} (distinct : (structs.map (·.name.value)).Nodup)
    (result : build structs = .ok table) :
    Built (structs.map fun s => (s.name.value, s)) table ∧ ∀ s ∈ structs, ∃ l, table.lookup s.name.value = some l := by
  rw [build, declTable_of_distinct distinct] at result
  obtain ⟨resolved, placed⟩ := resolveAll_ok .nil result
  refine ⟨resolved.built, fun s member => placed s.name.value ?_⟩
  simp only [List.map_map, List.mem_map]
  exact ⟨s, member, rfl⟩

end LayoutTable
end ViewLang.Gpu
