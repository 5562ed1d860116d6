import ViewLang.Proofs.Gpu.Acceptance

namespace ViewLang.Gpu.Wgsl

open Phrase (Throughout throughout_iff)

variable {u : SourceUnit} {env : Env}

def ArgsThroughout (P : Phrase → Prop) (ds : List Decorator) : Prop :=
  ∀ d ∈ ds, ∀ arg ∈ d.args, Throughout P (.expr arg)

theorem checkDecorator_succeeds {target : Target} {d : Decorator} :
    Succeeds (checkDecorator target d) ↔ d.name.value ∈ allowed target := by
  rw [checkDecorator, ← List.contains_iff_mem]
  split
  · rename_i known
    exact iff_of_true (succeeds_ok _) known
  · rename_i unknown
    exact iff_of_false (not_succeeds_error _) unknown

theorem attributeText_succeeds (reflects : Reflects u env) {target : Target} {d : Decorator}
    (keys : ∀ arg ∈ d.args, Throughout DistinctKeys (.expr arg)) : Succeeds (attributeText env target d) ↔
      d.name.value ∈ allowed target ∧ ∀ arg ∈ d.args, Throughout (Allowed u) (.expr arg) := by
  rw [attributeText, ← checkDecorator_succeeds]
  refine succeeds_bind fun _ => ?_
  split
  · rename_i bare
    rw [List.isEmpty_iff.mp bare]
    exact iff_of_true (succeeds_ok _) (List.forall_mem_nil _)
  · exact succeeds_bind_ok.trans (exprs_succeed reflects d.args keys)

theorem attributes_succeed (reflects : Reflects u env) {target : Target} {ds : List Decorator}
    (keys : ArgsThroughout DistinctKeys ds) :
    Succeeds (attributes env target ds) ↔ Decorated target ds ∧ ArgsThroughout (Allowed u) ds := by
  rw [attributes, succeeds_bind_ok, succeeds_mapM, Decorated, ArgsThroughout, ← forall₂_and]
  exact forall₂_congr fun d member => attributeText_succeeds reflects (keys d member)

theorem member_succeeds (reflects : Reflects u env) {target : Target} {f : GpuField}
    (keys : ArgsThroughout DistinctKeys f.decorators) : Succeeds (member env target f) ↔
      (Decorated target f.decorators ∧ ArgsThroughout (Allowed u) f.decorators) ∧ PlainType u f.ty.value := by
  rw [member, succeeds_bind fun _ => succeeds_bind_ok, attributes_succeed reflects keys, reflects.typeName_succeeds]

theorem structDecl_succeeds (reflects : Reflects u env) {s : GpuStruct} (declared : s ∈ u.gpuStructs)
    (keys : ∀ f ∈ s.fields, ArgsThroughout DistinctKeys f.decorators) : Succeeds (structDecl env s) ↔
      (∀ d ∈ s.decorators, d.name.value = "gpu") ∧
        ∀ f ∈ s.fields, Decorated .field f.decorators ∧ ArgsThroughout (Allowed u) f.decorators := by
  rw [structDecl, succeeds_bind fun _ => succeeds_bind_ok, succeeds_mapM, succeeds_mapM]
  refine and_congr ?_ ?_
  · refine forall₂_congr fun d _ => checkDecorator_succeeds.trans ?_
    exact List.mem_singleton
  · refine forall₂_congr fun f field => ?_
    rw [member_succeeds reflects (keys f field), and_iff_left (reflects.fields s declared f field)]

theorem bindingDecl_succeeds (reflects : Reflects u env) (b : GpuBinding) : Succeeds (bindingDecl env b) ↔
    ∃ info, BindingInfo.resolve b = .ok info ∧
      (PlainType u b.ty.value ∨ info.space.isStorage = true ∧ ∃ elem, b.ty.value = .slice elem ∧ PlainType u elem) := by
  have typed (storage : Bool) : Succeeds (bindingType env storage b.ty) ↔
      PlainType u b.ty.value ∨ storage = true ∧ ∃ elem, b.ty.value = .slice elem ∧ PlainType u elem := by
    unfold bindingType
    split
    · rename_i elem slice
      rw [succeeds_bind_ok, reflects.plainType_succeeds, slice]
      simp [PlainType]
    · rename_i other
      rw [reflects.plainType_succeeds, or_iff_left]
      rintro ⟨storage, elem, slice, -⟩
      exact other elem slice storage
  rw [bindingDecl]
  constructor
  · rintro ⟨doc, result⟩
    obtain ⟨info, resolved, rest⟩ := bind_ok_iff.mp result
    exact ⟨info, resolved, (typed _).mp (succeeds_bind_ok.mp ⟨doc, rest⟩)⟩
  · rintro ⟨info, resolved, plain⟩
    rw [resolved]
    exact succeeds_bind_ok.mpr ((typed _).mpr plain)

theorem resultText_succeeds (reflects : Reflects u env) {result : Option GpuResult}
    (keys : ∀ r ∈ result, ArgsThroughout DistinctKeys r.decorators) : Succeeds (resultText env result) ↔
      ∀ r ∈ result, (Decorated .result r.decorators ∧ ArgsThroughout (Allowed u) r.decorators) ∧
        PlainType u r.ty.value := by
  cases result with
  | none => exact iff_of_true (succeeds_ok _) nofun
  | some r =>
    rw [resultText, succeeds_bind fun _ => succeeds_bind_ok, attributes_succeed reflects (keys r rfl),
      reflects.typeName_succeeds]
    simp

theorem functionDecl_succeeds (reflects : Reflects u env) {f : GpuFunction}
    (stage_keys : ArgsThroughout DistinctKeys f.decorators)
    (param_keys : ∀ p ∈ f.params, ArgsThroughout DistinctKeys p.decorators)
    (result_keys : ∀ r ∈ f.result, ArgsThroughout DistinctKeys r.decorators)
    (body_keys : Throughout DistinctKeys (.block f.body)) : Succeeds (functionDecl env f) ↔
      (Decorated .function f.decorators ∧ ArgsThroughout (Allowed u) f.decorators) ∧
        (∀ p ∈ f.params, (Decorated .parameter p.decorators ∧ ArgsThroughout (Allowed u) p.decorators) ∧
          PlainType u p.ty.value) ∧
        (∀ r ∈ f.result, (Decorated .result r.decorators ∧ ArgsThroughout (Allowed u) r.decorators) ∧
          PlainType u r.ty.value) ∧
        Throughout (Allowed u) (.block f.body) := by
  have params : Succeeds (f.params.mapM (member env .parameter)) ↔ ∀ p ∈ f.params, (Decorated .parameter p.decorators ∧
      ArgsThroughout (Allowed u) p.decorators) ∧ PlainType u p.ty.value :=
    succeeds_mapM.trans (forall₂_congr fun p member => member_succeeds reflects (param_keys p member))
  rw [functionDecl, ← attributes_succeed reflects stage_keys, ← params, ← resultText_succeeds reflects result_keys,
    ← block_succeeds reflects f.body body_keys]
  exact succeeds_bind fun _ => succeeds_bind fun _ => succeeds_bind fun _ => succeeds_bind_ok

theorem throughout_emitted {P : Phrase → Prop} : (∀ whole ∈ emitted u, Throughout P whole) ↔
    (∀ s ∈ u.gpuStructs, ∀ f ∈ s.fields, ArgsThroughout P f.decorators) ∧
      ∀ f ∈ u.gpuFunctions, ArgsThroughout P f.decorators ∧ (∀ p ∈ f.params, ArgsThroughout P p.decorators) ∧
        (∀ r ∈ f.result, ArgsThroughout P r.decorators) ∧ Throughout P (.block f.body) := by
  simp only [emitted, emittedDecorators, ArgsThroughout, List.forall_mem_append, List.forall_mem_flatMap,
    List.forall_mem_map, Option.mem_toList, Option.mem_def, forall₂_and, and_assoc]

theorem generate_succeeds {layouts : LayoutTable} : Succeeds (generate u layouts) ↔
    (∀ s ∈ u.gpuStructs, Succeeds (structDecl (environment u layouts) s)) ∧
      (∀ b ∈ u.gpuBindings, Succeeds (bindingDecl (environment u layouts) b)) ∧
      ∀ f ∈ u.gpuFunctions, Succeeds (functionDecl (environment u layouts) f) := by
  rw [generate, succeeds_bind_ok, document, succeeds_bind fun _ => succeeds_bind fun _ => succeeds_bind_ok,
    succeeds_mapM, succeeds_mapM, succeeds_mapM]

/-- A shader is generated for a unit exactly if its shader side is in the subset. -/
theorem generate_succeeds_iff_supported {layouts : LayoutTable} (distinct : (u.gpuStructs.map (·.name.value)).Nodup)
    (laid : LayoutTable.build u.gpuStructs = .ok layouts)
    (keys : ∀ whole ∈ emitted u, Throughout DistinctKeys whole) :
    (∃ text, generate u layouts = .ok text) ↔ Supported u := by
  have reflects := environment_reflects distinct laid
  obtain ⟨field_keys, function_keys⟩ := throughout_emitted.mp keys
  have structs : (∀ s ∈ u.gpuStructs, Succeeds (structDecl (environment u layouts) s)) ↔ _ :=
    forall₂_congr fun s declared => structDecl_succeeds reflects declared (field_keys s declared)
  have bindings : (∀ b ∈ u.gpuBindings, Succeeds (bindingDecl (environment u layouts) b)) ↔ _ :=
    forall₂_congr fun b _ => bindingDecl_succeeds reflects b
  have functions : (∀ f ∈ u.gpuFunctions, Succeeds (functionDecl (environment u layouts) f)) ↔ _ :=
    forall₂_congr fun f declared => by
      obtain ⟨stage, params, result, body⟩ := function_keys f declared
      exact functionDecl_succeeds reflects stage params result body
  change Succeeds (generate u layouts) ↔ _
  rw [generate_succeeds, structs, bindings, functions]
  constructor
  · rintro ⟨structs, bindings, functions⟩
    refine ⟨fun s declared => (structs s declared).1, fun s declared f field => ((structs s declared).2 f field).1,
      bindings, fun f declared => (functions f declared).1.1, fun f declared p param => ?_,
      fun f declared r result => ?_, throughout_emitted.mpr ⟨fun s declared f field => ?_, fun f declared => ?_⟩⟩
    · obtain ⟨⟨decorated, -⟩, plain⟩ := (functions f declared).2.1 p param
      exact ⟨decorated, plain⟩
    · obtain ⟨⟨decorated, -⟩, plain⟩ := (functions f declared).2.2.1 r result
      exact ⟨decorated, plain⟩
    · exact ((structs s declared).2 f field).2
    · obtain ⟨stage, params, results, body⟩ := functions f declared
      exact ⟨stage.2, fun p param => (params p param).1.2, fun r result => (results r result).1.2, body⟩
  · intro supported
    obtain ⟨field_phrases, function_phrases⟩ := throughout_emitted.mp supported.phrases
    refine ⟨fun s declared => ⟨supported.structs s declared, fun f field => ⟨supported.fields s declared f field,
      field_phrases s declared f field⟩⟩, supported.bindings, fun f declared => ?_⟩
    obtain ⟨stage, params, results, body⟩ := function_phrases f declared
    refine ⟨⟨supported.functions f declared, stage⟩, fun p param => ?_, fun r result => ?_, body⟩
    · obtain ⟨decorated, plain⟩ := supported.params f declared p param
      exact ⟨⟨decorated, params p param⟩, plain⟩
    · obtain ⟨decorated, plain⟩ := supported.results f declared r result
      exact ⟨⟨decorated, results r result⟩, plain⟩

/-- A struct, a slice of it in storage, and a function that fills one of its fields. -/
def lampUnit : SourceUnit :=
  let name (s : String) : Name := ⟨s, Span.none⟩
  let type (t : TypeExpr) : Located TypeExpr := ⟨t, Span.none⟩
  let mark (s : String) (args : List Primary) : Decorator := ⟨name s, args.map .single, Span.none⟩
  let number (s : String) : Primary := .int (name s)
  let lamp : Primary := .composite (type (.named "Lamp")) [⟨some (name "power"), .single (number "2")⟩] Span.none
  { package := name "main"
    imports := []
    types := []
    components := []
    gpuStructs := [⟨[mark "gpu" []], name "Lamp",
      [⟨[], name "place", type (.named "vec2")⟩, ⟨[], name "power", type (.named "f32")⟩], Span.none⟩]
    gpuBindings := [⟨[mark "group" [number "0"], mark "binding" [number "0"], mark "storage" []], name "lamps",
      type (.slice (.named "Lamp")), Span.none⟩]
    gpuFunctions := [⟨[mark "compute" [], mark "workgroup_size" [number "1"]], name "lit", [],
      some ⟨[], type (.named "Lamp")⟩, ⟨[.ret [.single lamp] Span.none], Span.none⟩, Span.none⟩] }

def lampTable : LayoutTable := [("Lamp", ⟨[⟨"place", 0, 8, 8⟩, ⟨"power", 8, 4, 4⟩], 16, 8⟩)]

theorem generate_succeeds_iff_supported_lamp : (lampUnit.gpuStructs.map (·.name.value)).Nodup ∧
    LayoutTable.build lampUnit.gpuStructs = .ok lampTable ∧
      (∀ whole ∈ emitted lampUnit, Throughout DistinctKeys whole) ∧
      (∃ text, generate lampUnit lampTable = .ok text) ∧ Supported lampUnit := by
  have distinct : (lampUnit.gpuStructs.map (·.name.value)).Nodup := by decide
  have laid : LayoutTable.build lampUnit.gpuStructs = .ok lampTable := rfl
  have only {P : Phrase → Prop} {whole part : Phrase} (children : whole.children = [part]) (here : P whole)
      (below : Throughout P part) : Throughout P whole := by
    rw [throughout_iff, children, List.forall_mem_singleton]
    exact ⟨here, below⟩
  have number (n : Name) : Throughout DistinctKeys (.expr (.single (.int n))) :=
    only rfl trivial (throughout_iff.mpr ⟨trivial, nofun⟩)
  have keys : ∀ whole ∈ emitted lampUnit, Throughout DistinctKeys whole := by
    refine List.forall_mem_cons.mpr ⟨number _, List.forall_mem_singleton.mpr ?_⟩
    refine only rfl trivial (only rfl trivial (only rfl trivial (only rfl ?_ (number _))))
    exact fun _ => List.nodup_singleton "power"
  have generated : ∃ text, generate lampUnit lampTable = .ok text := ⟨_, rfl⟩
  exact ⟨distinct, laid, keys, generated, (generate_succeeds_iff_supported distinct laid keys).mp generated⟩

end ViewLang.Gpu.Wgsl
