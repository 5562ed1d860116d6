import ViewLang.Compile
import ViewLang.Proofs.Gpu.BuiltTable
import ViewLang.Proofs.Gpu.SupportedUnits
import ViewLang.Proofs.TrimEnd

namespace ViewLang

namespace Gpu

def addDecl (table : List (String × GpuStruct)) (s : GpuStruct) : List (String × GpuStruct) :=
  if (table.lookup s.name.value).isSome then
    table.map fun entry => if entry.1 = s.name.value then (entry.1, s) else entry
  else table ++ [(s.name.value, s)]

theorem addDecl_names (table : List (String × GpuStruct)) (s : GpuStruct) :
    table.map (·.1) ⊆ (addDecl table s).map (·.1) ∧ s.name.value ∈ (addDecl table s).map (·.1) := by
  rw [addDecl]
  by_cases known : (table.lookup s.name.value).isSome = true
  · have names : (table.map fun entry => if entry.1 = s.name.value then (entry.1, s) else entry).map (·.1) =
        table.map (·.1) := by
      rw [List.map_map]
      refine List.map_congr_left fun entry _ => ?_
      rw [Function.comp_apply]
      split <;> rfl
    obtain ⟨entry, member, same⟩ := List.lookup_isSome_iff.mp known
    rw [if_pos known, names, eq_of_beq same]
    exact ⟨List.Subset.refl _, List.mem_map_of_mem member⟩
  · rw [if_neg known, List.map_append]
    exact ⟨List.subset_append_left _ _, List.mem_append_right _ (List.mem_singleton_self _)⟩

theorem foldl_addDecl_names (structs : List GpuStruct) (table : List (String × GpuStruct)) :
    table.map (·.1) ⊆ (structs.foldl addDecl table).map (·.1) ∧
      ∀ s ∈ structs, s.name.value ∈ (structs.foldl addDecl table).map (·.1) := by
  induction structs generalizing table with
  | nil => exact ⟨List.Subset.refl _, nofun⟩
  | cons first rest ih =>
    obtain ⟨grown, named⟩ := addDecl_names table first
    obtain ⟨later, all⟩ := ih (addDecl table first)
    exact ⟨List.Subset.trans grown later, List.forall_mem_cons.mpr ⟨later named, all⟩⟩

/-- Every struct of a unit that is laid out has a layout, also among structs of one name. -/
theorem LayoutTable.build_complete {structs : List GpuStruct} {table : LayoutTable}
    (laid : LayoutTable.build structs = .ok table) {s : GpuStruct} (declared : s ∈ structs) :
    ∃ l, table.lookup s.name.value = some l :=
  (LayoutTable.resolveAll_ok .nil laid).2 _ ((foldl_addDecl_names structs []).2 s declared)

theorem Wgsl.named_of_typeName {env : Wgsl.Env} {ty : Located TypeExpr} (written : Succeeds (Wgsl.typeName env ty)) :
    ∃ name, ty.value.baseName? = some name := by
  obtain ⟨text, written⟩ := written
  rw [Wgsl.typeName] at written
  cases typed : ty.value with
  | named name => exact ⟨name, rfl⟩
  | _ =>
    rw [typed, Wgsl.plainType] at written
    all_goals cases written

theorem Wgsl.named_of_structDecl {env : Wgsl.Env} {s : GpuStruct} (written : Succeeds (Wgsl.structDecl env s)) :
    ∀ f ∈ s.fields, ∃ name, f.ty.value.baseName? = some name := by
  rw [Wgsl.structDecl, succeeds_bind fun _ => succeeds_bind_ok] at written
  intro f field
  have member := succeeds_mapM.mp written.2 f field
  rw [Wgsl.member, succeeds_bind fun _ => succeeds_bind_ok] at member
  exact Wgsl.named_of_typeName member.2

namespace Host

theorem hostStruct_succeeds {layouts : LayoutTable} {s : GpuStruct} {l : StructLayout}
    (placed : layouts.lookup s.name.value = some l) (named : ∀ f ∈ s.fields, ∃ name, f.ty.value.baseName? = some name) :
    Succeeds (hostStruct layouts s) := by
  rw [hostStruct, placed, succeeds_bind_ok, hostFields, succeeds_mapM]
  rintro ⟨f, slot⟩ member
  obtain ⟨name, typed⟩ := named f (List.of_mem_zip member).1
  refine succeeds_bind_ok.mpr ?_
  rw [hostType, typed]
  dsimp only
  cases ValueType.ofName? name with
  | none => exact succeeds_ok _
  | some t => exact succeeds_ok _

theorem slotRows_succeeds {b : GpuBinding} (resolved : Succeeds (BindingInfo.resolve b)) : Succeeds (slotRows b) := by
  rw [slotRows, succeeds_bind_total]
  · exact resolved
  · rintro ⟨space, slot⟩
    cases slot with
    | none => exact succeeds_ok _
    | some slot => exact succeeds_ok _

/-- A unit whose shader is written has the structs and slots of a host file. -/
theorem parts_succeed {u : SourceUnit} {layouts : LayoutTable} (laid : LayoutTable.build u.gpuStructs = .ok layouts)
    (shader : Succeeds (Wgsl.generate u layouts)) :
    Succeeds (u.gpuStructs.mapM (hostStruct layouts)) ∧ Succeeds (u.gpuBindings.mapM slotRows) := by
  obtain ⟨structs, bindings, -⟩ := Wgsl.generate_succeeds.mp shader
  constructor
  · refine succeeds_mapM.mpr fun s declared => ?_
    obtain ⟨l, placed⟩ := LayoutTable.build_complete laid declared
    exact hostStruct_succeeds placed (Wgsl.named_of_structDecl (structs s declared))
  · refine succeeds_mapM.mpr fun b declared => slotRows_succeeds ?_
    obtain ⟨doc, written⟩ := bindings b declared
    obtain ⟨info, resolved, -⟩ := bind_ok_iff.mp written
    exact ⟨info, resolved⟩

end Host
end Gpu

structure PackageFile where
  before : String
  behind : String
  starts_line : before = "" ∨ ∃ text, before = text ++ "\n"
  ends_line : ∃ text, behind = "\n" ++ text

namespace PackageFile

/-- The package clause. No file ends with blanks, so a clause that ends the file drops those at its end. -/
def clause (f : PackageFile) (package : String) : String :=
  if f.behind = "\n" then Text.trimEnd ("package " ++ package) else "package " ++ package

def text (f : PackageFile) (package : String) : String := f.before ++ f.clause package ++ f.behind

end PackageFile

theorem render_lines (unit : String) (d : Doc) : d.render unit = "" ∨ ∃ text, d.render unit = text ++ "\n" := by
  rcases List.eq_nil_or_concat d with rfl | ⟨front, last, rfl⟩
  · exact .inl rfl
  · refine .inr ?_
    rw [List.concat_eq_append, Doc.render_append, Doc.render_singleton]
    cases last with
    | blank => exact ⟨_, rfl⟩
    | text level s => exact ⟨_, String.append_assoc.symm⟩

/-- A file that is written around a package clause, whatever the name of the package. -/
theorem exists_packageFile (head rest : Doc) : ∃ f : PackageFile, ∀ package,
    Text.trimEnd ((head ++ Doc.line ("package " ++ package) ++ Doc.blank ++ rest).render "\t") ++ "\n" =
      f.text package := by
  have rendered (package : String) : (head ++ Doc.line ("package " ++ package) ++ Doc.blank ++ rest).render "\t" =
      head.render "\t" ++ ("package " ++ package ++ ("\n\n" ++ rest.render "\t")) := by
    simp only [Doc.render_append, Doc.line, Doc.blank, Doc.render_singleton, Line.render, String.append_assoc]
    rfl
  have named (package : String) : ("package " ++ package).toList.all Text.isBlank = false := by
    have word : "package ".toList.all Text.isBlank = false := by decide
    rw [String.toList_append, List.all_append, word, Bool.false_and]
  cases blank : (rest.render "\t").toList.all Text.isBlank with
  | true =>
    refine ⟨⟨head.render "\t", "\n", render_lines "\t" head, "", rfl⟩, fun package => ?_⟩
    have ended : ("\n\n" ++ rest.render "\t").toList.all Text.isBlank = true := by
      rw [String.toList_append, List.all_append, blank]
      rfl
    rw [rendered, ← String.append_assoc, Text.trimEnd_append_blank _ ended, Text.trimEnd_append_shown _ (named package)]
    rfl
  | false =>
    have more : ("\n\n" ++ Text.trimEnd (rest.render "\t") ++ "\n") ≠ "\n" := by
      intro same
      have chars := congrArg String.length same
      simp at chars
    refine ⟨⟨head.render "\t", "\n\n" ++ Text.trimEnd (rest.render "\t") ++ "\n", render_lines "\t" head, ?_⟩,
      fun package => ?_⟩
    · exact ⟨"\n" ++ Text.trimEnd (rest.render "\t") ++ "\n", by simp only [← String.append_assoc]; rfl⟩
    · have ended : ("\n\n" ++ rest.render "\t").toList.all Text.isBlank = false := by
        rw [String.toList_append, List.all_append, blank, Bool.and_false]
      rw [rendered, ← String.append_assoc, Text.trimEnd_append_shown _ ended, Text.trimEnd_append_shown _ blank,
        PackageFile.text, PackageFile.clause, if_neg more]
      simp only [String.append_assoc]

/-- An output that waits for the options: its Go file, its shader source with a host file, and its diagnostics. -/
structure OpenOutput where
  go : PackageFile
  shader : Option (String × PackageFile)
  diagnostics : List Diagnostic

namespace OpenOutput

def fillShader (host : Bool) (package : String) : String × PackageFile → ShaderOutput
  | (wgsl, file) => ⟨wgsl, if host then some (file.text package) else none⟩

def fill (o : OpenOutput) (host : Bool) (package : String) : Output :=
  ⟨o.go.text package, o.shader.map (fillShader host package), o.diagnostics⟩

end OpenOutput

section

variable {u : SourceUnit} {layouts : Gpu.LayoutTable}

/-- A unit whose shader is written has a host file, whatever the name of the package. -/
theorem exists_hostFile (laid : Gpu.LayoutTable.build u.gpuStructs = .ok layouts)
    (shader : Succeeds (Gpu.Wgsl.generate u layouts)) (header : String) :
    ∃ f : PackageFile, ∀ package, Gpu.Host.generate u layouts package header = .ok (f.text package) := by
  obtain ⟨⟨structs, placed⟩, ⟨slots, resolved⟩⟩ := Gpu.Host.parts_succeed laid shader
  let body := structs.flatMap (fun s => Gpu.Host.structDoc s.name s.layout s.fields) ++
    Gpu.Host.sizeChecks (structs.map (·.name))
  obtain ⟨f, written⟩ := exists_packageFile (if header.isEmpty then [] else Doc.line header ++ Doc.blank)
    (Gpu.Host.importDoc (Gpu.Host.importPaths structs) ++ body ++
      (if slots.flatten.isEmpty then [] else (if body.isEmpty then [] else Doc.blank) ++
        Gpu.Host.slotDoc slots.flatten))
  refine ⟨f, fun package => ?_⟩
  rw [← written, Gpu.Host.generate, placed, resolved]
  simp only [← List.append_assoc]
  rfl

theorem exists_goFile (config : Config) (u : SourceUnit) :
    ∃ f : PackageFile, ∀ package, Go.generate config package u = f.text package := by
  let body := Go.declarations config.runtimeAlias u
  obtain ⟨f, written⟩ := exists_packageFile
    (if config.header.isEmpty then [] else Doc.line config.header ++ Doc.blank)
    (Go.importDoc (Go.imports config u body.uses) ++ body.doc)
  refine ⟨f, fun package => ?_⟩
  rw [← written, Go.generate, Go.document]
  simp only [List.append_assoc]
  rfl

/-- The options do not decide whether the shader side succeeds, nor what its shader is. -/
theorem shaderOutput_open (config : Config) (u : SourceUnit) :
    ∃ shader : Except CompileError (Option (String × PackageFile)), ∀ host package,
      shaderOutput { config with host := host } package u =
        shader.map (Option.map (OpenOutput.fillShader host package)) := by
  by_cases gpu : u.hasGpu = true
  · cases laid : Gpu.LayoutTable.build u.gpuStructs with
    | error e =>
      refine ⟨.error (.ofLayoutFault e), fun host package => ?_⟩
      rw [shaderOutput, if_pos gpu, laid]
      rfl
    | ok layouts =>
      cases shader : Gpu.Wgsl.generate u layouts with
      | error e =>
        refine ⟨.error (.shader e), fun host package => ?_⟩
        rw [shaderOutput, if_pos gpu, laid]
        change (Gpu.Wgsl.generate u layouts).mapError _ >>= _ = _
        rw [shader]
        rfl
      | ok wgsl =>
        obtain ⟨f, written⟩ := exists_hostFile laid ⟨wgsl, shader⟩ config.header
        refine ⟨.ok (some (wgsl, f)), fun host package => ?_⟩
        rw [shaderOutput, if_pos gpu, laid]
        change (Gpu.Wgsl.generate u layouts).mapError _ >>= _ = _
        rw [shader]
        change (hostOutput _ package u layouts).mapError _ >>= _ = _
        rw [hostOutput]
        cases host with
        | false => rfl
        | true =>
          dsimp only
          rw [if_pos rfl, written]
          rfl
  · refine ⟨.ok none, fun host package => ?_⟩
    rw [shaderOutput, if_neg gpu]
    rfl

end

/-- A unit whose structs are laid out and whose shader is written has a host file. So a compilation gives, whatever the
options, one failure or one output that waits for them: the host option adds or leaves out the host file, and a package
name stands in the package clauses of the Go file and the host file. -/
theorem options_fill_output :
    (∀ (u : SourceUnit) (layouts : Gpu.LayoutTable) (wgsl : String), Gpu.LayoutTable.build u.gpuStructs = .ok layouts →
      Gpu.Wgsl.generate u layouts = .ok wgsl →
      ∀ package header, ∃ text, Gpu.Host.generate u layouts package header = .ok text) ∧
    ∀ (config : Config) (file source : String), ∃ compiled : Except CompileError (String × OpenOutput),
      ∀ host package, compile { config with host := host } file source package =
        compiled.map fun (own, o) => o.fill host (package.getD own) := by
  refine ⟨fun u layouts wgsl laid shader package header => ?_, fun config file source => ?_⟩
  · obtain ⟨f, written⟩ := exists_hostFile laid ⟨wgsl, shader⟩ header
    exact ⟨f.text package, written package⟩
  · cases parsed : parse file source with
    | error r =>
      refine ⟨.error (.rejected r), fun host package => ?_⟩
      rw [compile, parsed]
      rfl
    | ok u =>
      obtain ⟨shader, opened⟩ := shaderOutput_open config u
      obtain ⟨f, written⟩ := exists_goFile config u
      refine ⟨shader.map fun s => (u.package.value, ⟨f, s, analyze u⟩), fun host package => ?_⟩
      rw [compile, parsed]
      change shaderOutput _ (package.getD u.package.value) u >>= _ = _
      rw [opened]
      cases shader with
      | error e => rfl
      | ok s =>
        change Except.ok (Output.mk (Go.generate config (package.getD u.package.value) u) _ _) = _
        rw [written]
        rfl

theorem options_fill_output_lamp :
    Gpu.LayoutTable.build Gpu.Wgsl.lampUnit.gpuStructs = .ok Gpu.Wgsl.lampTable ∧
      (∃ wgsl, Gpu.Wgsl.generate Gpu.Wgsl.lampUnit Gpu.Wgsl.lampTable = .ok wgsl) ∧
      ∃ text, Gpu.Host.generate Gpu.Wgsl.lampUnit Gpu.Wgsl.lampTable "gfx" "// lamps" = .ok text := by
  have laid : Gpu.LayoutTable.build Gpu.Wgsl.lampUnit.gpuStructs = .ok Gpu.Wgsl.lampTable := rfl
  obtain ⟨wgsl, shader⟩ : ∃ wgsl, Gpu.Wgsl.generate Gpu.Wgsl.lampUnit Gpu.Wgsl.lampTable = .ok wgsl := ⟨_, rfl⟩
  exact ⟨laid, ⟨wgsl, shader⟩, options_fill_output.1 _ _ wgsl laid shader "gfx" "// lamps"⟩

end ViewLang
