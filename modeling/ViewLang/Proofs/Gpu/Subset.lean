import Mathlib.Data.List.Nodup
import ViewLang.Proofs.Gpu.BuiltTable
import ViewLang.Proofs.Syntax.Phrases
import ViewLang.Gpu.Wgsl

namespace ViewLang.Gpu.Wgsl

variable {u : SourceUnit} {env : Env}

def Declared (u : SourceUnit) (name : String) : Prop := ∃ s ∈ u.gpuStructs, s.name.value = name

def PlainType (u : SourceUnit) (ty : TypeExpr) : Prop :=
  ∃ name, ty = .named name ∧ ((∃ t, ValueType.ofName? name = some t) ∨ Declared u name)

def Callable (u : SourceUnit) (name : String) : Prop :=
  (∃ t, ValueType.ofName? name = some t) ∨ name ∈ builtinFunctions ∨ (∃ f ∈ u.gpuFunctions, f.name.value = name) ∨
    Declared u name

def Keyless (es : List Entry) : Prop := ∀ e ∈ es, e.key = none

def AllKeyed (es : List Entry) : Prop := ∀ e ∈ es, ∃ k, e.key = some k

def KeyedBy (s : GpuStruct) (es : List Entry) : Prop :=
  ∀ e ∈ es, ∃ k, e.key = some k ∧ ∃ f ∈ s.fields, f.name.value = k.value

def CompositeAllowed (u : SourceUnit) (ty : TypeExpr) (es : List Entry) : Prop :=
  (∃ elem, ty = .slice elem ∧ PlainType u elem ∧ Keyless es) ∨
    PlainType u ty ∧ (Keyless es ∨ ∃ s ∈ u.gpuStructs, ty = .named s.name.value ∧ KeyedBy s es)

def OperandAllowed (u : SourceUnit) : Primary → Prop
  | .string _ => False
  | .template _ => False
  | .make _ _ _ => False
  | .slice _ _ _ _ => False
  | .func _ _ _ _ => False
  | .receive _ _ => False
  | .composite ty es _ => CompositeAllowed u ty.value es
  | .call base path _ _ => ∃ n, base = .name n ∧ path = [] ∧ Callable u n.value
  | _ => True

def VarAllowed (u : SourceUnit) (d : VarDecl) : Prop :=
  (d.values = [] ∨ d.values.length = d.names.length) ∧ (∀ ty ∈ d.ty, PlainType u ty.value) ∧
    (d.ty = none → d.values = [] → d.names = [])

def StmtAllowed (u : SourceUnit) : Stmt → Prop
  | .var d => VarAllowed u d
  | .ret values _ => values.length ≤ 1
  | _ => True

def SimpleAllowed : SimpleStmt → Prop
  | .exprs targets _ => ∃ e, targets = [e] ∧ e.isCall = true
  | .assign targets op values _ => targets.length = 1 ∧ (op.value.isPostfix = true ∨ values.length = 1) ∧
      (op.value = .define → ∀ target ∈ targets, ∃ name, target.ident? = some name)
  | .send _ _ _ => False

def HeaderAllowed : LoopHeader → Prop
  | .range _ _ _ => False
  | _ => True

def Allowed (u : SourceUnit) : Phrase → Prop
  | .operator op => op ≠ .andNot
  | .operand p => OperandAllowed u p
  | .stmt s => StmtAllowed u s
  | .simple s => SimpleAllowed s
  | .header h => HeaderAllowed h
  | _ => True

/-- No two keys of a keyed composite literal are the same. -/
def DistinctKeys : Phrase → Prop
  | .operand (.composite _ es _) => AllKeyed es → ((es.filterMap (·.key)).map (·.value)).Nodup
  | _ => True

def Decorated (target : Target) (ds : List Decorator) : Prop := ∀ d ∈ ds, d.name.value ∈ allowed target

def emittedDecorators (u : SourceUnit) : List Decorator :=
  u.gpuStructs.flatMap (fun s => s.fields.flatMap (·.decorators)) ++ u.gpuFunctions.flatMap fun f =>
    f.decorators ++ (f.params.flatMap (·.decorators) ++ f.result.toList.flatMap (·.decorators))

/-- The expressions and blocks of a unit that are written out. -/
def emitted (u : SourceUnit) : List Phrase :=
  (emittedDecorators u).flatMap (fun d => d.args.map .expr) ++ u.gpuFunctions.map (.block ·.body)

/-- All that a unit has on the shader side has a counterpart there. -/
structure Supported (u : SourceUnit) : Prop where
  structs : ∀ s ∈ u.gpuStructs, ∀ d ∈ s.decorators, d.name.value = "gpu"
  fields : ∀ s ∈ u.gpuStructs, ∀ f ∈ s.fields, Decorated .field f.decorators
  bindings : ∀ b ∈ u.gpuBindings, ∃ info, BindingInfo.resolve b = .ok info ∧
    (PlainType u b.ty.value ∨ info.space.isStorage = true ∧ ∃ elem, b.ty.value = .slice elem ∧ PlainType u elem)
  functions : ∀ f ∈ u.gpuFunctions, Decorated .function f.decorators
  params : ∀ f ∈ u.gpuFunctions, ∀ p ∈ f.params, Decorated .parameter p.decorators ∧ PlainType u p.ty.value
  results : ∀ f ∈ u.gpuFunctions, ∀ r ∈ f.result, Decorated .result r.decorators ∧ PlainType u r.ty.value
  phrases : ∀ whole ∈ emitted u, Phrase.Throughout (Allowed u) whole

structure Reflects (u : SourceUnit) (env : Env) : Prop where
  structs : env.structs = u.gpuStructs
  functions : env.functions = u.gpuFunctions.map (·.name.value)
  distinct : (u.gpuStructs.map (·.name.value)).Nodup
  hasStruct : ∀ name, env.hasStruct name = true ↔ Declared u name
  fields : ∀ s ∈ u.gpuStructs, ∀ f ∈ s.fields, PlainType u f.ty.value

theorem environment_reflects {layouts : LayoutTable} (distinct : (u.gpuStructs.map (·.name.value)).Nodup)
    (laid : LayoutTable.build u.gpuStructs = .ok layouts) : Reflects u (environment u layouts) := by
  obtain ⟨built, placed⟩ := LayoutTable.build_ok distinct laid
  have declared {name : String} {l : StructLayout} (found : layouts.lookup name = some l) : Declared u name := by
    obtain ⟨s, _, known, -⟩ := built.entry found
    exact ⟨s, (LayoutTable.lookup_declared distinct).mp known⟩
  refine ⟨rfl, rfl, distinct, fun name => ?_, fun s member f field => ?_⟩
  · rw [Env.hasStruct, Option.isSome_iff_exists]
    constructor
    · rintro ⟨l, found⟩
      exact declared found
    · rintro ⟨s, member, rfl⟩
      exact placed s member
  · obtain ⟨l, found⟩ := placed s member
    obtain ⟨s', slots, known, related, -⟩ := built.entry found
    have same : s' = s :=
      Option.some.inj (known.symm.trans ((LayoutTable.lookup_declared distinct).mpr ⟨member, rfl⟩))
    subst same
    obtain ⟨slot, -, typed⟩ := forall₂_mem_left related field
    cases typed with
    | value named known => exact ⟨_, named, .inl ⟨_, known⟩⟩
    | nested named _ inside => exact ⟨_, named, .inr (declared inside)⟩

namespace Reflects

theorem plainType_succeeds (reflects : Reflects u env) (span : Span) (ty : TypeExpr) :
    Succeeds (plainType env span ty) ↔ PlainType u ty := by
  have other (unnamed : ∀ name, ty ≠ .named name) : ¬ PlainType u ty := by
    rintro ⟨name, same, -⟩
    exact unnamed name same
  cases ty with
  | named name =>
    have here : PlainType u (.named name) ↔ (∃ t, ValueType.ofName? name = some t) ∨ Declared u name := by
      simp [PlainType]
    rw [here, plainType, ← reflects.hasStruct]
    cases ValueType.ofName? name with
    | some t => simp
    | none => cases env.hasStruct name <;> simp
  | slice elem => exact iff_of_false (not_succeeds_error _) (other nofun)
  | chan recvOnly elem => exact iff_of_false (not_succeeds_error _) (other nofun)
  | generic name arg => exact iff_of_false (not_succeeds_error _) (other nofun)
  | pointer elem => exact iff_of_false (not_succeeds_error _) (other nofun)
  | func params results => exact iff_of_false (not_succeeds_error _) (other nofun)

theorem typeName_succeeds (reflects : Reflects u env) (ty : Located TypeExpr) :
    Succeeds (typeName env ty) ↔ PlainType u ty.value :=
  reflects.plainType_succeeds ty.span ty.value

theorem callee_succeeds (reflects : Reflects u env) (name : Name) :
    Succeeds (callee env name) ↔ Callable u name.value := by
  rw [callee, Callable]
  cases ValueType.ofName? name.value with
  | some t => simp
  | none =>
    have known : (builtinFunctions.contains name.value || env.functions.contains name.value ||
        env.hasStruct name.value) = true ↔ name.value ∈ builtinFunctions ∨
          (∃ f ∈ u.gpuFunctions, f.name.value = name.value) ∨ Declared u name.value := by
      rw [Bool.or_eq_true, Bool.or_eq_true, reflects.hasStruct, reflects.functions, or_assoc]
      simp
    dsimp only
    split
    · rename_i found
      exact iff_of_true (succeeds_ok _) (.inr (known.mp found))
    · rename_i unknown
      refine iff_of_false (not_succeeds_error _) ?_
      rintro (⟨t, found⟩ | found)
      · cases found
      · exact unknown (known.mpr found)

end Reflects

theorem not_succeeds_refuse {α : Type} (construct : Construct) (span : Span) :
    ¬ Succeeds (refuse construct span : Result α) := not_succeeds_error _

theorem succeeds_unless {α : Type} {c : Prop} [Decidable c] {construct : Construct} {span : Span}
    {next : Unit → Result α} :
    Succeeds (if c then refuse construct span >>= next else next ()) ↔ ¬ c ∧ Succeeds (next ()) := by
  split
  · rename_i holds
    exact iff_of_false (not_succeeds_error _) fun both => both.1 holds
  · rename_i fails
    exact (and_iff_right fails).symm

theorem entries_eq (env : Env) (es : List Entry) : entries env es = es.map fun e => (e.key, expr env e.value) := by
  induction es with
  | nil => rw [entries, List.map_nil]
  | cons e es ih =>
    cases e
    rw [entries, ih, List.map_cons]

theorem values_succeed {es : List Entry} :
    Succeeds (entries env es).values ↔ ∀ e ∈ es, Succeeds (expr env e.value) := by
  rw [Entries.values, succeeds_mapM, entries_eq, List.forall_mem_map]

theorem keyless_iff {es : List Entry} : ((entries env es).filter (·.1.isSome)).length = 0 ↔ Keyless es := by
  rw [List.length_eq_zero_iff, List.filter_eq_nil_iff, entries_eq, List.forall_mem_map]
  simp [Keyless]

theorem all_keyed_iff {es : List Entry} :
    ((entries env es).filter (·.1.isSome)).length = (entries env es).length ↔ AllKeyed es := by
  rw [List.length_filter_eq_length_iff, entries_eq, List.forall_mem_map]
  simp [AllKeyed, Option.isSome_iff_exists]

theorem unknownKey?_eq_none {fields : List GpuField} {es : List Entry} : unknownKey? fields (entries env es) = none ↔
    ∀ e ∈ es, ∀ k, e.key = some k → ∃ f ∈ fields, f.name.value = k.value := by
  rw [unknownKey?, List.find?_eq_none, entries_eq, List.filterMap_map]
  simp only [List.mem_filterMap, Function.comp_apply, Bool.not_eq_true, Bool.not_eq_false', List.any_eq_true,
    beq_iff_eq, forall_exists_index, and_imp]
  exact ⟨fun known e member k key => known k e member key, fun known k e member key => known e member k key⟩

/-- Among distinct keys, an entry is found by its own. -/
theorem find?_entry {es : List Entry} (distinct : ((es.filterMap (·.key)).map (·.value)).Nodup) {e : Entry} {k : Name}
    (member : e ∈ es) (key : e.key = some k) : es.find? (fun e => e.key.map (·.value) == some k.value) = some e := by
  induction es with
  | nil => cases member
  | cons first es ih =>
    rcases List.mem_cons.mp member with rfl | later
    · exact List.find?_cons_of_pos (by rw [key]; exact BEq.refl _)
    · have inside : k ∈ es.filterMap (·.key) := List.mem_filterMap.mpr ⟨e, later, key⟩
      cases other : first.key with
      | none =>
        rw [List.filterMap_cons_none other] at distinct
        rw [List.find?_cons_of_neg (by rw [other]; exact Bool.false_ne_true)]
        exact ih distinct later
      | some k' =>
        rw [List.filterMap_cons_some other, List.map_cons, List.nodup_cons] at distinct
        have different : k'.value ≠ k.value := fun same => distinct.1 (same ▸ List.mem_map_of_mem inside)
        rw [List.find?_cons_of_neg (by simpa [other] using different)]
        exact ih distinct.2 later

namespace Reflects

/-- Each field has its entry or is zero, and each entry is taken for its field. -/
theorem fieldArgs_succeed (reflects : Reflects u env) {s : GpuStruct} {es : List Entry} (member : s ∈ u.gpuStructs)
    (keyed : KeyedBy s es) (distinct : ((es.filterMap (·.key)).map (·.value)).Nodup) :
    Succeeds (s.fields.mapM (fieldArg env (entries env es))) ↔ ∀ e ∈ es, Succeeds (expr env e.value) := by
  have found (f : GpuField) : (entries env es).find? (fun e => e.1.map (·.value) == some f.name.value) =
      (es.find? fun e => e.key.map (·.value) == some f.name.value).map fun e => (e.key, expr env e.value) := by
    rw [entries_eq, List.find?_map]
    rfl
  rw [succeeds_mapM]
  constructor
  · intro args e inside
    obtain ⟨k, key, f, field, named⟩ := keyed e inside
    have arg := args f field
    rw [fieldArg, found, named, find?_entry distinct inside key] at arg
    exact arg
  · intro values f field
    rw [fieldArg, found]
    cases entry : es.find? fun e => e.key.map (·.value) == some f.name.value with
    | none => exact succeeds_bind_ok.mpr ((reflects.typeName_succeeds f.ty).mpr (reflects.fields s member f field))
    | some e => exact values e (List.mem_of_find?_eq_some entry)

theorem keyedComposite_succeeds (reflects : Reflects u env) {ty : Located TypeExpr} {text : String} {es : List Entry}
    {span : Span} (keys : AllKeyed es) (distinct : ((es.filterMap (·.key)).map (·.value)).Nodup) :
    Succeeds (keyedComposite env ty text (entries env es) span) ↔
      (∃ s ∈ u.gpuStructs, ty.value = .named s.name.value ∧ KeyedBy s es) ∧ ∀ e ∈ es, Succeeds (expr env e.value) := by
  rw [keyedComposite, reflects.structs]
  split
  · rename_i unknown
    refine iff_of_false (not_succeeds_error _) ?_
    rintro ⟨⟨s, member, named, -⟩, -⟩
    have other := List.find?_eq_none.mp unknown s member
    rw [named] at other
    exact other (BEq.refl _)
  · rename_i s declared
    have member := List.mem_of_find?_eq_some declared
    have base := List.find?_some declared
    rw [beq_iff_eq] at base
    have named : ty.value = .named s.name.value := by
      cases same : ty.value <;> rw [same] at base <;> cases base
      rfl
    -- Of the structs with the name of the type there is only this one.
    have only : (∃ s' ∈ u.gpuStructs, ty.value = .named s'.name.value ∧ KeyedBy s' es) ↔ KeyedBy s es := by
      constructor
      · rintro ⟨s', member', named', keyed⟩
        rw [named, TypeExpr.named.injEq] at named'
        rw [List.inj_on_of_nodup_map reflects.distinct member member' named']
        exact keyed
      · exact fun keyed => ⟨s, member, named, keyed⟩
    have known : unknownKey? s.fields (entries env es) = none ↔ KeyedBy s es := by
      rw [unknownKey?_eq_none]
      constructor
      · intro fields e inside
        obtain ⟨k, key⟩ := keys e inside
        exact ⟨k, key, fields e inside k key⟩
      · intro keyed e inside k key
        obtain ⟨k', key', field⟩ := keyed e inside
        cases key.symm.trans key'
        exact field
    rw [only]
    split
    · rename_i key unknown
      refine iff_of_false (not_succeeds_error _) fun both => ?_
      rw [known.mpr both.1] at unknown
      cases unknown
    · rename_i none
      have keyed := known.mp none
      rw [and_iff_right keyed]
      exact succeeds_bind_ok.trans (reflects.fieldArgs_succeed member keyed distinct)

theorem composite_succeeds (reflects : Reflects u env) {ty : Located TypeExpr} {es : List Entry} {span : Span}
    (distinct : AllKeyed es → ((es.filterMap (·.key)).map (·.value)).Nodup) :
    Succeeds (composite env ty (entries env es) span) ↔
      CompositeAllowed u ty.value es ∧ ∀ e ∈ es, Succeeds (expr env e.value) := by
  have noPlain (elem : TypeExpr) : ¬ PlainType u (.slice elem) := by
    rintro ⟨name, same, -⟩
    cases same
  have someKeyed {s : GpuStruct} (keyed : KeyedBy s es) : AllKeyed es := by
    intro e inside
    obtain ⟨k, key, -⟩ := keyed e inside
    exact ⟨k, key⟩
  rw [composite, CompositeAllowed]
  split
  · rename_i mixed
    rw [Ne, Ne, keyless_iff, all_keyed_iff] at mixed
    refine iff_of_false (not_succeeds_error _) ?_
    rintro ⟨⟨_, _, _, keyless⟩ | ⟨_, keyless | ⟨s, _, _, keyed⟩⟩, _⟩
    · exact mixed.1 keyless
    · exact mixed.1 keyless
    · exact mixed.2 (someKeyed keyed)
  · rename_i uniform
    rw [Ne, Ne, keyless_iff, all_keyed_iff, not_and_not_right] at uniform
    split
    · rename_i elem same
      rw [same]
      split
      · rename_i keyed
        rw [Ne, keyless_iff] at keyed
        refine iff_of_false (not_succeeds_error _) ?_
        rintro ⟨⟨_, _, _, keyless⟩ | ⟨plain, _⟩, _⟩
        · exact keyed keyless
        · exact noPlain elem plain
      · rename_i keyless
        rw [Ne, not_not, keyless_iff] at keyless
        rw [succeeds_bind fun _ => succeeds_bind_ok, reflects.plainType_succeeds, values_succeed]
        simp [keyless, noPlain]
    · rename_i noSlice
      have left : ¬ ∃ elem, ty.value = .slice elem ∧ PlainType u elem ∧ Keyless es := by
        rintro ⟨elem, same, -⟩
        exact noSlice elem same
      rw [or_iff_right left, and_assoc, ← reflects.typeName_succeeds]
      refine succeeds_bind fun text => ?_
      split
      · rename_i keyless
        rw [keyless_iff] at keyless
        rw [succeeds_bind_ok, values_succeed, or_iff_left_of_imp, and_iff_right keyless]
        exact fun _ => keyless
      · rename_i keyed
        rw [keyless_iff] at keyed
        rw [or_iff_right keyed]
        exact reflects.keyedComposite_succeeds (uniform keyed) (distinct (uniform keyed))

end Reflects

end ViewLang.Gpu.Wgsl
