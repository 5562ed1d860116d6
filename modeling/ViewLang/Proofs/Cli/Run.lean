import ViewLang.Cli.Run
import ViewLang.Proofs.Cli.FileTree
import Mathlib.Data.List.Nodup

namespace ViewLang.Cli

namespace Path

theorem segments_slash (path rest : String) : segments (path ++ "/" ++ rest) = segments path ++ segments rest := by
  have split : (path ++ "/" ++ rest).toList = path.toList ++ '/' :: rest.toList := by simp
  rw [segments, split, List.splitOn_append_cons_self, List.map_append, List.filter_append]
  rfl

theorem segments_name {name : String} (plain : '/' ∉ name.toList) (shown : name ≠ "") : segments name = [name] := by
  have filled : name.isEmpty = false := by
    rw [← Bool.not_eq_true, String.isEmpty_iff]
    exact shown
  rw [segments, List.splitOn_eq_singleton plain, List.map_singleton, String.ofList_toList]
  simp [filled]

theorem segments_join (dir : String) {name : String} (plain : '/' ∉ name.toList) (shown : name ≠ "") :
    segments (join dir name) = segments dir ++ [name] := by
  rw [join]
  split_ifs with empty slash
  · rw [String.isEmpty_iff.mp empty, segments_name plain shown]
    rfl
  · rw [endsWithSlash, beq_iff_eq, List.getLast?_eq_some_iff] at slash
    obtain ⟨front, ends⟩ := slash
    have cut : dir = String.ofList front ++ "/" := by
      rw [← String.toList_inj, ends]
      simp
    have same : segments dir = segments (String.ofList front) := by
      have closed := segments_slash (String.ofList front) ""
      rw [String.append_empty, ← cut] at closed
      rw [closed]
      exact List.append_nil _
    rw [same, cut, segments_slash, segments_name plain shown]
  · rw [segments_slash, segments_name plain shown]

theorem splitOn_free (sep : Char) (cs : List Char) : ∀ part ∈ cs.splitOn sep, sep ∉ part := by
  induction cs with
  | nil => simp
  | cons c cs ih =>
    rw [List.splitOn_cons_eq_if_modifyHead]
    split_ifs with same
    · rw [List.forall_mem_cons]
      exact ⟨List.not_mem_nil, ih⟩
    · cases parts : cs.splitOn sep with
      | nil => exact nofun
      | cons first rest =>
        rw [parts, List.forall_mem_cons] at ih
        rw [List.modifyHead_cons, List.forall_mem_cons]
        refine ⟨?_, ih.2⟩
        rw [List.mem_cons, not_or]
        refine ⟨?_, ih.1⟩
        rintro rfl
        exact same (BEq.refl _)

theorem segments_plain {path name : String} (member : name ∈ segments path) : '/' ∉ name.toList := by
  obtain ⟨part, inside, rfl⟩ := List.mem_map.mp (List.mem_filter.mp member).1
  rw [String.toList_ofList]
  exact splitOn_free '/' path.toList part inside

theorem stem_plain {name : String} (plain : '/' ∉ name.toList) : '/' ∉ (stem name).toList := by
  rw [stem]
  split
  · exact plain
  · rename_i cs _
    rw [String.toList_ofList]
    intro member
    have kept := List.mem_of_mem_tail (List.mem_reverse.mp member)
    exact plain (List.mem_reverse.mp (List.dropWhile_subset _ kept))

end Path

theorem outputStem_plain (args : Args) : '/' ∉ (outputStem args).toList := by
  rw [outputStem]
  split
  · rename_i name found
    apply Path.stem_plain
    rw [Path.fileName?] at found
    split at found
    · cases found
    · have last := List.mem_of_getLast? found
      exact Path.segments_plain (List.mem_filter.mp last).1
  · decide

def fileEndings (config : Config) (u : SourceUnit) : List String :=
  ".gen.go" :: if u.hasGpu then ".wgsl" :: if config.host then ["_gpu.gen.go"] else [] else []

def fileNames (args : Args) (config : Config) (u : SourceUnit) : List String :=
  (fileEndings config u).map (outputStem args ++ ·)

theorem fileEndings_sublist (config : Config) (u : SourceUnit) :
    (fileEndings config u).Sublist [".gen.go", ".wgsl", "_gpu.gen.go"] := by
  rw [fileEndings]
  split_ifs <;> decide

theorem fileNames_nodup (args : Args) (config : Config) (u : SourceUnit) : (fileNames args config u).Nodup := by
  apply List.Nodup.map
  · intro a b same
    dsimp only at same
    rw [← String.toList_inj, String.toList_append, String.toList_append, List.append_cancel_left_eq,
      String.toList_inj] at same
    exact same
  · exact (fileEndings_sublist config u).nodup (by decide)

theorem segments_fileName {args : Args} {config : Config} {u : SourceUnit} {name : String}
    (member : name ∈ fileNames args config u) :
    Path.segments (Path.join args.outDir name) = Path.segments args.outDir ++ [name] := by
  obtain ⟨ending, known, rfl⟩ := List.mem_map.mp member
  have usual : '/' ∉ ending.toList ∧ ending ≠ "" := by
    have each : ∀ e ∈ [".gen.go", ".wgsl", "_gpu.gen.go"], '/' ∉ e.toList ∧ e ≠ "" := by decide
    exact each ending ((fileEndings_sublist config u).subset known)
  apply Path.segments_join
  · rw [String.toList_append, List.mem_append, not_or]
    exact ⟨outputStem_plain args, usual.1⟩
  · intro empty
    exact usual.2 (String.append_eq_empty_iff.mp empty).2

def namedFiles (args : Args) (o : Output) : List (String × String) :=
  (outputStem args ++ ".gen.go", o.go) ::
    match o.shader with
    | none => []
    | some s =>
      (outputStem args ++ ".wgsl", s.wgsl) :: (s.host.map fun text => (outputStem args ++ "_gpu.gen.go", text)).toList

theorem generatedFiles_eq (args : Args) (o : Output) :
    generatedFiles args o = (namedFiles args o).map fun (name, text) => (Path.join args.outDir name, text) := by
  obtain ⟨go, shader, diagnostics⟩ := o
  cases shader with
  | none => rfl
  | some s =>
    obtain ⟨wgsl, host⟩ := s
    cases host with
    | none => rfl
    | some text => rfl

section

variable {config : Config} {package : String} {u : SourceUnit}

theorem hostOutput_ok {layouts : Gpu.LayoutTable} {host : Option String}
    (made : hostOutput config package u layouts = .ok host) : host.isSome = config.host := by
  rw [hostOutput] at made
  split_ifs at made with wanted
  · rw [wanted]
    cases shared : Gpu.Host.generate u layouts package config.header with
    | error e =>
      rw [shared] at made
      cases made
    | ok text =>
      rw [shared] at made
      cases made
      rfl
  · cases made
    rw [Bool.not_eq_true] at wanted
    exact wanted.symm

/-- There is a shader for a unit with declarations for it, and a host file beside it if the settings ask for one. -/
theorem shaderOutput_ok {shader : Option ShaderOutput} (made : shaderOutput config package u = .ok shader) :
    shader.isSome = u.hasGpu ∧ ∀ s ∈ shader, s.host.isSome = config.host := by
  rw [shaderOutput] at made
  split_ifs at made with gpu
  · obtain ⟨layouts, -, made⟩ := bind_ok_iff.mp made
    obtain ⟨wgsl, -, made⟩ := bind_ok_iff.mp made
    obtain ⟨host, shared, made⟩ := bind_ok_iff.mp made
    cases made
    refine ⟨gpu.symm, fun s same => ?_⟩
    cases same
    exact hostOutput_ok (mapError_ok_iff.mp shared)
  · cases made
    rw [Bool.not_eq_true] at gpu
    exact ⟨gpu.symm, nofun⟩

/-- What keeps a shader from being made is no fault of the text. -/
theorem shaderOutput_error {e : CompileError} (failed : shaderOutput config package u = .error e) :
    (∃ fault, e = .shader fault) ∨ ∃ o, e = .overflow o := by
  rw [shaderOutput] at failed
  split_ifs at failed with gpu
  · rcases bind_error_iff.mp failed with failed | ⟨layouts, -, failed⟩
    · obtain ⟨fault, -, rfl⟩ := mapError_error_iff.mp failed
      cases fault with
      | shader fault => exact .inl ⟨fault, rfl⟩
      | overflow o => exact .inr ⟨o, rfl⟩
    · rcases bind_error_iff.mp failed with failed | ⟨wgsl, -, failed⟩
      · obtain ⟨fault, -, rfl⟩ := mapError_error_iff.mp failed
        exact .inl ⟨fault, rfl⟩
      · rcases bind_error_iff.mp failed with failed | ⟨host, -, failed⟩
        · obtain ⟨fault, -, rfl⟩ := mapError_error_iff.mp failed
          exact .inl ⟨fault, rfl⟩
        · cases failed

end

theorem compile_ok {config : Config} {package : Option String} {u : SourceUnit} {o : Output}
    (compiled : u.compile config package = .ok o) :
    shaderOutput config (package.getD u.package.value) u = .ok o.shader ∧ o.diagnostics = analyze u := by
  obtain ⟨shader, made, result⟩ := bind_ok_iff.mp compiled
  obtain rfl := Except.ok.inj result
  exact ⟨made, rfl⟩

theorem compile_error {config : Config} {package : Option String} {u : SourceUnit} {e : CompileError} :
    u.compile config package = .error e ↔ shaderOutput config (package.getD u.package.value) u = .error e := by
  rw [SourceUnit.compile, bind_error_iff]
  constructor
  · rintro (failed | ⟨shader, -, failed⟩)
    · exact failed
    · cases failed
  · exact Or.inl

/-- The names of the files that a run writes are told by the unit and the settings. -/
theorem namedFiles_names {config : Config} {package : Option String} {u : SourceUnit} {o : Output} (args : Args)
    (compiled : u.compile config package = .ok o) : (namedFiles args o).map (·.1) = fileNames args config u := by
  obtain ⟨made, -⟩ := compile_ok compiled
  obtain ⟨gpu, shared⟩ := shaderOutput_ok made
  rw [namedFiles, fileNames, fileEndings, ← gpu]
  cases shader : o.shader with
  | none => rfl
  | some s =>
    rw [← shared s shader]
    obtain ⟨wgsl, host⟩ := s
    cases host with
    | none => rfl
    | some text => rfl

structure Reads (decode : ConfigFile.Decoder) (platformDir : String) (args : Args) (files : FileTree) (config : Config)
    (source : String) : Prop where
  settings : loadConfig decode files.read platformDir args.config = .ok config
  input : files.read args.input = .ok source

/-- What stops a run before it writes. Each reason counts only if those above it do not hold. -/
inductive Stops (decode : ConfigFile.Decoder) (platformDir : String) (args : Args) (files : FileTree) : Failure → Prop
  | settings {e : Failure} (failed : loadConfig decode files.read platformDir args.config = .error e) :
    Stops decode platformDir args files e
  | input {config : Config} {e : FileError} (loaded : loadConfig decode files.read platformDir args.config = .ok config)
    (failed : files.read args.input = .error e) : Stops decode platformDir args files (.file e)
  | source {config : Config} {source : String} {r : Rejection}
    (started : Reads decode platformDir args files config source)
    (failed : parse args.input source = .error r) : Stops decode platformDir args files (.compile (.rejected r))
  | shader {config : Config} {source : String} {u : SourceUnit} {e : Gpu.ShaderError}
    (started : Reads decode platformDir args files config source) (parsed : parse args.input source = .ok u)
    (failed : shaderOutput config (args.package.getD u.package.value) u = .error (.shader e)) :
    Stops decode platformDir args files (.compile (.shader e))
  | overflow {config : Config} {source : String} {u : SourceUnit} {o : Gpu.Overflow}
    (started : Reads decode platformDir args files config source) (parsed : parse args.input source = .ok u)
    (failed : shaderOutput config (args.package.getD u.package.value) u = .error (.overflow o)) :
    Stops decode platformDir args files (.compile (.overflow o))
  | semantic {config : Config} {source : String} {u : SourceUnit} {o : Output}
    (started : Reads decode platformDir args files config source) (parsed : parse args.input source = .ok u)
    (compiled : u.compile config args.package = .ok o) (found : (analyze u).any (·.isError) = true)
    (strict : args.allowErrors = false) : Stops decode platformDir args files (.semantic (analyze u))

/-- What a run has when it comes to write. -/
structure Ready (decode : ConfigFile.Decoder) (platformDir : String) (args : Args) (files : FileTree) (config : Config)
    (u : SourceUnit) (o : Output) : Prop where
  parsed : ∃ source, Reads decode platformDir args files config source ∧ parse args.input source = .ok u
  compiled : u.compile config args.package = .ok o
  allowed : (analyze u).any (·.isError) = true → args.allowErrors = true

section

variable {decode : ConfigFile.Decoder} {platformDir : String} {args : Args} {files : FileTree} {config : Config}
  {source : String} {u : SourceUnit} {o : Output}

theorem run_of_reads (started : Reads decode platformDir args files config source) :
    runWith decode platformDir args files =
      match compileInput args config source with
      | .error e => ⟨files, printed args source, .error e⟩
      | .ok o =>
        let (files, result) := writeOutput args files o
        ⟨files, printed args source, result.mapError .file⟩ := by
  rw [runWith, readInputs, started.settings, started.input]
  rfl

theorem compileInput_of_parsed (config : Config) (parsed : parse args.input source = .ok u) :
    compileInput args config source = (u.compile config args.package).mapError .compile >>= fun o =>
      if o.hasErrors && !args.allowErrors then .error (.semantic o.diagnostics) else .ok o := by
  rw [compileInput, compile, parsed]
  rfl

theorem compileInput_of_compiled (parsed : parse args.input source = .ok u)
    (compiled : u.compile config args.package = .ok o) :
    compileInput args config source =
      if o.diagnostics.any (·.isError) && !args.allowErrors then .error (.semantic o.diagnostics) else .ok o := by
  rw [compileInput_of_parsed config parsed, compiled]
  rfl

theorem run_stops {e : Failure} (stops : Stops decode platformDir args files e) :
    (runWith decode platformDir args files).result = .error e ∧
      (runWith decode platformDir args files).files = files := by
  cases stops with
  | settings failed =>
    rw [runWith, readInputs, failed]
    exact ⟨rfl, rfl⟩
  | input loaded failed =>
    rw [runWith, readInputs, loaded, failed]
    exact ⟨rfl, rfl⟩
  | source started failed =>
    rw [run_of_reads started, compileInput, compile, failed]
    exact ⟨rfl, rfl⟩
  | shader started parsed failed =>
    rw [run_of_reads started, compileInput_of_parsed _ parsed, compile_error.mpr failed]
    exact ⟨rfl, rfl⟩
  | overflow started parsed failed =>
    rw [run_of_reads started, compileInput_of_parsed _ parsed, compile_error.mpr failed]
    exact ⟨rfl, rfl⟩
  | semantic started parsed compiled found strict =>
    obtain ⟨-, analyzed⟩ := compile_ok compiled
    rw [run_of_reads started, compileInput_of_compiled parsed compiled, analyzed, found, strict]
    exact ⟨rfl, rfl⟩

theorem stops_or_ready (decode : ConfigFile.Decoder) (platformDir : String) (args : Args) (files : FileTree) :
    (∃ e, Stops decode platformDir args files e) ∨ ∃ config u o, Ready decode platformDir args files config u o := by
  cases loaded : loadConfig decode files.read platformDir args.config with
  | error e => exact .inl ⟨e, .settings loaded⟩
  | ok config =>
    cases taken : files.read args.input with
    | error e => exact .inl ⟨_, .input loaded taken⟩
    | ok source =>
      have started : Reads decode platformDir args files config source := ⟨loaded, taken⟩
      cases parsed : parse args.input source with
      | error r => exact .inl ⟨_, .source started parsed⟩
      | ok u =>
        cases compiled : u.compile config args.package with
        | error e =>
          have failed := compile_error.mp compiled
          rcases shaderOutput_error failed with ⟨fault, rfl⟩ | ⟨o, rfl⟩
          · exact .inl ⟨_, .shader started parsed failed⟩
          · exact .inl ⟨_, .overflow started parsed failed⟩
        | ok o =>
          by_cases refused : (analyze u).any (·.isError) = true ∧ args.allowErrors = false
          · exact .inl ⟨_, .semantic started parsed compiled refused.1 refused.2⟩
          · refine .inr ⟨config, u, o, ⟨source, started, parsed⟩, compiled, fun found => ?_⟩
            by_contra strict
            exact refused ⟨found, Bool.not_eq_true _ ▸ strict⟩

theorem run_ready (ready : Ready decode platformDir args files config u o) :
    (runWith decode platformDir args files).files = (writeOutput args files o).1 ∧
      (runWith decode platformDir args files).result = (writeOutput args files o).2.mapError .file := by
  obtain ⟨source, started, parsed⟩ := ready.parsed
  have accepted : compileInput args config source = .ok o := by
    rw [compileInput_of_compiled parsed ready.compiled, (compile_ok ready.compiled).2, if_neg]
    intro refused
    obtain ⟨found, strict⟩ := Bool.and_eq_true_iff.mp refused
    rw [ready.allowed found] at strict
    exact absurd strict (by decide)
  rw [run_of_reads started, accepted]
  exact ⟨rfl, rfl⟩

end

/-- Files of these names can be written once the output directory is there. -/
def Writable (args : Args) (files : FileTree) (names : List String) : Prop :=
  ∃ made dir, files.makeDirectories args.outDir = (made, .ok ()) ∧
    made.walk [] (Path.segments args.outDir) = .ok dir ∧
    ∀ name ∈ names, made.Takes dir (Path.join args.outDir name) name

/-- What a run has changed that has written everything into a directory: the files for the unit, and besides these only
that directories may be new on the way to the output directory, if that was not there. -/
structure Changed (args : Args) (config : Config) (u : SourceUnit) (o : Output) (before after : FileTree)
    (dir : Place) : Prop where
  directory : after.walk [] (Path.segments args.outDir) = .ok dir ∧ after.entry? dir = some .directory
  names : (namedFiles args o).map (·.1) = fileNames args config u
  contents : ∀ f ∈ namedFiles args o, after.entry? (dir ++ [f.1]) = some (.file f.2.toUTF8)
  others : ∀ p, (∀ name ∈ fileNames args config u, p ≠ dir ++ [name]) → after.entry? p = before.entry? p ∨
    before.entry? p = none ∧ after.entry? p = some .directory ∧
      ∃ front, front <+: (Path.segments args.outDir).filter (· != ".") ∧ after.walk [] front = .ok p
  unneeded : before.HasDirectory (Path.segments args.outDir) →
    ∀ p, (∀ name ∈ fileNames args config u, p ≠ dir ++ [name]) → after.entry? p = before.entry? p

section

variable {args : Args} {config : Config} {package : Option String} {u : SourceUnit} {o : Output} {files : FileTree}

theorem writeOutput_result (args : Args) (files : FileTree) (o : Output) :
    (writeOutput args files o).2 = .ok (written args o) ∨ ∃ e, (writeOutput args files o).2 = .error e := by
  rw [writeOutput]
  split
  · exact .inr ⟨_, rfl⟩
  · split
    · exact .inr ⟨_, rfl⟩
    · exact .inl rfl

theorem namedFiles_forall (args : Args) (compiled : u.compile config package = .ok o) {P : String → Prop} :
    (∀ f ∈ namedFiles args o, P f.1) ↔ ∀ name ∈ fileNames args config u, P name := by
  rw [← namedFiles_names args compiled, List.forall_mem_map]

theorem segments_namedFile (args : Args) (compiled : u.compile config package = .ok o) :
    ∀ f ∈ namedFiles args o, Path.segments (Path.join args.outDir f.1) = Path.segments args.outDir ++ [f.1] :=
  (namedFiles_forall args compiled).mpr fun _ member => segments_fileName member

theorem writeOutput_succeeds (compiled : u.compile config package = .ok o) :
    (writeOutput args files o).2 = .ok (written args o) ↔ Writable args files (fileNames args config u) := by
  rw [Writable]
  cases around : files.makeDirectories args.outDir with
  | mk made result =>
    cases result with
    | error e =>
      rw [writeOutput, around]
      exact iff_of_false nofun nofun
    | ok _ =>
      obtain ⟨-, ⟨dir, led, -⟩, -⟩ := FileTree.makeDirectories_ok around
      have writing := FileTree.writeAll_succeeds led (segments_namedFile args compiled)
      rw [← generatedFiles_eq] at writing
      have allNamed := namedFiles_forall args compiled
        (P := fun name => made.Takes dir (Path.join args.outDir name) name)
      have decided : (writeOutput args files o).2 = .ok (written args o) ↔
          (made.writeAll (generatedFiles args o)).2 = .ok () := by
        rw [writeOutput, around]
        dsimp only
        split
        · rename_i failed
          rw [failed]
          exact iff_of_false nofun nofun
        · rename_i filled
          rw [filled]
          exact iff_of_true rfl rfl
      rw [decided, writing, allNamed]
      constructor
      · intro takes
        exact ⟨made, dir, rfl, led, takes⟩
      · rintro ⟨again, other, same, reached, takes⟩
        cases same
        cases led.symm.trans reached
        exact takes

theorem writeOutput_changed {after : FileTree} {w : Written} (compiled : u.compile config package = .ok o)
    (wrote : writeOutput args files o = (after, .ok w)) : ∃ dir, Changed args config u o files after dir := by
  rw [writeOutput] at wrote
  split at wrote
  · cases wrote
  · rename_i made around
    split at wrote
    · cases wrote
    · rename_i filled writing
      cases wrote
      obtain ⟨grown, ⟨dir, led, start⟩, there⟩ := FileTree.makeDirectories_ok around
      rw [generatedFiles_eq] at writing
      have distinct : ((namedFiles args o).map (·.1)).Nodup := by
        rw [namedFiles_names args compiled]
        exact fileNames_nodup args config u
      obtain ⟨extended, contents, rest⟩ := FileTree.writeAll_ok led (segments_namedFile args compiled) distinct writing
      have others (p : Place) (elsewhere : ∀ name ∈ fileNames args config u, p ≠ dir ++ [name]) :
          after.entry? p = made.entry? p :=
        rest p ((namedFiles_forall args compiled).mpr elsewhere)
      refine ⟨dir, ⟨extended.walk led, extended.directory dir start⟩, namedFiles_names args compiled, contents,
        fun p elsewhere => ?_, ?_⟩
      · rw [others p elsewhere]
        cases before : files.entry? p with
        | some e => exact .inl (grown.kept p e before)
        | none =>
          rcases grown.made p before with still | ⟨directory, front, among, reached⟩
          · exact .inl still
          · exact .inr ⟨rfl, directory, front, among, extended.walk reached⟩
      · intro present p elsewhere
        rw [others p elsewhere, there present]

end

/-- Printing the outline has no part in what a run answers and writes. -/
theorem run_dumpAst (decode : ConfigFile.Decoder) (platformDir : String) (args : Args) (files : FileTree)
    (dump : Bool) :
    (runWith decode platformDir { args with dumpAst := dump } files).result =
        (runWith decode platformDir args files).result ∧
      (runWith decode platformDir { args with dumpAst := dump } files).files =
        (runWith decode platformDir args files).files := by
  have reads : readInputs decode files.read platformDir { args with dumpAst := dump } =
      readInputs decode files.read platformDir args := rfl
  rw [runWith, runWith, reads]
  cases readInputs decode files.read platformDir args with
  | error e => exact ⟨rfl, rfl⟩
  | ok inputs =>
    obtain ⟨config, source⟩ := inputs
    have compiles : compileInput { args with dumpAst := dump } config source = compileInput args config source := rfl
    dsimp only
    rw [compiles]
    cases compileInput args config source with
    | error e => exact ⟨rfl, rfl⟩
    | ok o => exact ⟨rfl, rfl⟩

/-- A run that needs no leave for errors does not use it. -/
theorem run_allowErrors {decode : ConfigFile.Decoder} {platformDir : String} {args : Args} {files : FileTree}
    {w : Written}
    (succeeded : (runWith decode platformDir { args with allowErrors := false } files).result = .ok w) :
    runWith decode platformDir { args with allowErrors := true } files =
      runWith decode platformDir { args with allowErrors := false } files := by
  rcases stops_or_ready decode platformDir { args with allowErrors := false } files with
    ⟨e, stops⟩ | ⟨config, u, o, ready⟩
  · rw [(run_stops stops).1] at succeeded
    cases succeeded
  · obtain ⟨source, started, parsed⟩ := ready.parsed
    have clean : o.diagnostics.any (·.isError) = false := by
      rw [(compile_ok ready.compiled).2, ← Bool.not_eq_true]
      intro found
      exact Bool.false_ne_true (ready.allowed found)
    have lenient : Reads decode platformDir { args with allowErrors := true } files config source :=
      ⟨started.settings, started.input⟩
    have accepted : compileInput { args with allowErrors := true } config source = _ :=
      compileInput_of_compiled parsed ready.compiled
    rw [run_of_reads lenient, run_of_reads started, accepted, compileInput_of_compiled parsed ready.compiled, clean]
    rfl

/-- Before it writes a run is all or nothing: whatever stops it leaves all files as they were. A run that nothing
stops either writes everything or fails at a file operation, and it writes everything exactly if the output directory
can be made and takes each of the files. Then these files are all that has changed, but for new directories on the way
to the output directory. -/
theorem run_all_or_nothing (decode : ConfigFile.Decoder) (platformDir : String) (args : Args) (files : FileTree) :
    (∀ e, Stops decode platformDir args files e →
      (runWith decode platformDir args files).result = .error e ∧
      (runWith decode platformDir args files).files = files) ∧
    ((∀ e, ¬ Stops decode platformDir args files e) → ∃ config u o, Ready decode platformDir args files config u o ∧
      ((runWith decode platformDir args files).result = .ok (written args o) ∨
        ∃ e, (runWith decode platformDir args files).result = .error (.file e)) ∧
      ((runWith decode platformDir args files).result = .ok (written args o) ↔
        Writable args files (fileNames args config u)) ∧
      ((runWith decode platformDir args files).result = .ok (written args o) →
        ∃ dir, Changed args config u o files (runWith decode platformDir args files).files dir)) ∧
    (∀ dump, (runWith decode platformDir { args with dumpAst := dump } files).result =
        (runWith decode platformDir args files).result ∧
      (runWith decode platformDir { args with dumpAst := dump } files).files =
        (runWith decode platformDir args files).files) ∧
    ∀ w, (runWith decode platformDir { args with allowErrors := false } files).result = .ok w →
      runWith decode platformDir { args with allowErrors := true } files =
        runWith decode platformDir { args with allowErrors := false } files := by
  refine ⟨fun e stops => run_stops stops, fun unstopped => ?_,
    fun dump => run_dumpAst decode platformDir args files dump, fun w succeeded => run_allowErrors succeeded⟩
  rcases stops_or_ready decode platformDir args files with ⟨e, stops⟩ | ⟨config, u, o, ready⟩
  · exact absurd stops (unstopped e)
  · obtain ⟨after, answered⟩ := run_ready ready
    have wrote : (runWith decode platformDir args files).result = .ok (written args o) ↔
        (writeOutput args files o).2 = .ok (written args o) := by
      rw [answered, mapError_ok_iff]
    refine ⟨config, u, o, ready, ?_, ?_, fun succeeded => ?_⟩
    · rcases writeOutput_result args files o with all | ⟨e, failed⟩
      · exact .inl (wrote.mpr all)
      · rw [answered, failed]
        exact .inr ⟨e, rfl⟩
    · rw [wrote]
      exact writeOutput_succeeds ready.compiled
    · rw [after]
      exact writeOutput_changed ready.compiled (Prod.ext rfl (wrote.mp succeeded))

end ViewLang.Cli
