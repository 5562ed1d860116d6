import ViewLang.Proofs.Gpu.HostSource
import ViewLang.Proofs.Gpu.HostStruct
import ViewLang.Proofs.TrimEnd

namespace ViewLang.Gpu.Host

def HostType.goType : HostType → GoType
  | value t => .ofValueType t
  | nested name => .named name

def Row.goType : Row → GoType
  | field _ type => type.goType
  | padding n => .array n .byte

def Row.goField (r : Row) : GoField := (r.name, r.goType)

def Word.of (kind : Scalar) (o : Operand) : Word :=
  match kind with
  | .float => .bits o
  | .sint => .converted o
  | .uint => .plain o

def Index.elements (start : Nat) : Index := if start = 0 then .scaled else .shifted start

def HostField.step (f : HostField) : Step :=
  match f.type with
  | .nested _ => .copy f.offset f.name
  | .value t =>
    if t.isScalar then .put ⟨.fixed f.offset, .of t.scalar (.field f.name)⟩
    else .each f.name ⟨.elements f.offset, .of t.scalar .element⟩

namespace HostStruct

def goFields (h : HostStruct) : List GoField := (rows h.layout h.fields).map Row.goField

def sizeCheck (h : HostStruct) : SizeCheck :=
  ⟨h.name, h.name ++ "Size", h.name ++ ": host size does not match the shader layout"⟩

def decls (h : HostStruct) : List GoDecl :=
  [.constant (h.name ++ "Size") h.layout.size, .struct h.name h.goFields,
    .bytes h.name (h.name ++ "Size") (h.fields.map HostField.step)]

end HostStruct

def goFile (hs : List HostStruct) : List GoDecl :=
  hs.flatMap HostStruct.decls ++ if hs.isEmpty then [] else [.init (hs.map HostStruct.sizeCheck)]

theorem Word.text_of (kind : Scalar) (o : Operand) : (Word.of kind o).text = scalarBits kind o.text := by
  cases kind <;> rfl

theorem Index.text_elements (start : Nat) :
    (Index.elements start).text = if start = 0 then "i*4" else toString start ++ "+i*4" := by
  unfold Index.elements
  split <;> rfl

theorem Put.text_of (index : Index) (kind : Scalar) (o : Operand) :
    Put.text ⟨index, .of kind o⟩ = putWord index.text (scalarBits kind o.text) := by
  rw [← Word.text_of]
  rfl

theorem HostField.step_doc (f : HostField) : f.step.doc = f.write.lines := by
  obtain ⟨name, type, offset⟩ := f
  cases type with
  | nested _ => rfl
  | value t =>
    rw [HostField.step, HostField.write]
    by_cases scalar : t.isScalar = true
    · simp only [if_pos scalar]
      rw [Step.doc, Put.text_of, Write.lines]
      rfl
    · simp only [if_neg scalar]
      rw [Step.doc, Put.text_of, Index.text_elements, Write.lines]
      rfl

theorem valueType_text : ∀ t ∈ ValueType.table, t.host = (GoType.ofValueType t).text := by
  decide

theorem gap_text (stop start : Nat) : ∀ r ∈ gap stop start, r.type = r.goType.text := by
  intro r member
  unfold gap at member
  split at member
  · cases List.mem_singleton.mp member
    simp only [Row.type, Row.goType, GoType.text, String.append_assoc]
    rfl
  · cases member

theorem Fields.row_text {table : LayoutTable} {fs : List GpuField} {ps : List PlacedField} {fields : List HostField}
    (held : Fields table fs ps fields) (size stop : Nat) :
    ∀ r ∈ rowsFrom size stop (fields.zip ps), r.type = r.goType.text := by
  induction held generalizing stop with
  | nil => exact gap_text stop size
  | @cons f p h _ _ _ first _ ih =>
    intro r member
    rw [List.zip_cons_cons, rowsFrom, List.mem_append, List.mem_cons] at member
    rcases member with inside | rfl | inside
    · exact gap_text _ _ r inside
    · simp only [Row.type, Row.goType]
      obtain ⟨_, t, _, known, type, _⟩ | ⟨_, _, _, _, _, type, _⟩ := hostType_cases first.slot first.type
      · rw [type]
        exact valueType_text t (List.mem_of_find?_eq_some known)
      · rw [type]
        rfl
    · exact ih _ r inside

theorem padRight_blank (width : Nat) (s : String) :
    ∃ n, padRight width s ++ " " = s ++ String.ofList (List.replicate (n + 1) ' ') := by
  refine ⟨width - s.length, ?_⟩
  rw [padRight, String.append_assoc, List.replicate_succ', String.ofList_append]

theorem rowLines_fieldLine {rs : List Row} (text : ∀ r ∈ rs, r.type = r.goType.text) :
    List.Forall₂ FieldLine (rs.map Row.goField) (rowLines rs) := by
  rw [rowLines, List.forall₂_map_left_iff, List.forall₂_map_right_iff, List.forall₂_same]
  intro r member
  obtain ⟨n, blanks⟩ := padRight_blank (maxLength (rs.map Row.name)) r.name
  exact ⟨n, congrArg (Line.text 0) (by rw [blanks, text r member]; rfl)⟩

theorem structType_written {name : String} {rs : List Row} (text : ∀ r ∈ rs, r.type = r.goType.text) :
    (GoDecl.struct name (rs.map Row.goField)).Written (structType name rs) := by
  cases rs with
  | nil => exact .empty name
  | cons r rs => exact .struct name (rowLines_fieldLine text)

theorem sizeLine (name : String) (size : Nat) :
    "const " ++ name ++ "Size = " ++ toString size = "const " ++ (name ++ "Size") ++ " = " ++ toString size := by
  have parts : "Size = " = "Size" ++ " = " := rfl
  simp only [parts, String.append_assoc]

theorem makeLine (name : String) :
    "buf := make([]byte, " ++ name ++ "Size)" = "buf := make([]byte, " ++ (name ++ "Size") ++ ")" := by
  have parts : "Size)" = "Size" ++ ")" := rfl
  simp only [parts, String.append_assoc]

theorem bytesNote (name : String) :
    "// Bytes returns the little-endian shader image of " ++ name ++ "." =
      "// " ++ ("Bytes returns the little-endian shader image of " ++ name ++ ".") := by
  have parts : "// Bytes returns the little-endian shader image of " =
      "// " ++ "Bytes returns the little-endian shader image of " := rfl
  simp only [parts, String.append_assoc]

/-- The lines of a struct declare its size, its fields and its `Bytes` method. -/
theorem structDoc_readsAs {h : HostStruct} (text : ∀ r ∈ rows h.layout h.fields, r.type = r.goType.text) :
    ReadsAs (structDoc h.name h.layout h.fields) h.decls := by
  have steps : (h.fields.map HostField.step).flatMap Step.doc = h.fields.flatMap (·.write.lines) := by
    rw [List.flatMap_map]
    exact List.flatMap_congr fun f _ => f.step_doc
  have constant := GoDecl.Written.constant (h.name ++ "Size") h.layout.size
  have bytes := GoDecl.Written.bytes h.name (h.name ++ "Size") (h.fields.map HostField.step)
  rw [steps] at bytes
  have file : ReadsAs _ h.decls :=
    .note (h.name ++ "Size is the size of " ++ h.name ++ " in shader memory.") (.cons constant (.blank
      (.note (h.name ++ " mirrors the shader struct " ++ h.name ++ ".") (.cons (structType_written text) (.blank
        (.note ("Bytes returns the little-endian shader image of " ++ h.name ++ ".") (.cons bytes (.blank .nil))))))))
  rw [structDoc, sizeLine, makeLine, bytesNote]
  simp only [List.append_assoc, String.append_assoc, List.append_nil] at file ⊢
  exact file

theorem sizeCheck_doc (h : HostStruct) : h.sizeCheck.doc = sizeCheck h.name := by
  have parts : "Size \x7b" = "Size" ++ " \x7b" := rfl
  have message : ": host size does not match the shader layout\")" =
      ": host size does not match the shader layout" ++ "\")" := rfl
  simp only [SizeCheck.doc, HostStruct.sizeCheck, sizeCheck, parts, message, String.append_assoc]

def hostDoc (hs : List HostStruct) : Doc :=
  hs.flatMap (fun h => structDoc h.name h.layout h.fields) ++ sizeChecks (hs.map (·.name))

theorem hostDoc_readsAs {hs : List HostStruct}
    (text : ∀ h ∈ hs, ∀ r ∈ rows h.layout h.fields, r.type = r.goType.text) : ReadsAs (hostDoc hs) (goFile hs) := by
  refine (ReadsAs.flatMap fun h member => structDoc_readsAs (text h member)).append ?_
  rw [sizeChecks, List.isEmpty_map]
  cases hs with
  | nil => exact .nil
  | cons h rest =>
    have checks : ((h :: rest).map (·.name)).flatMap sizeCheck =
        ((h :: rest).map HostStruct.sizeCheck).flatMap SizeCheck.doc := by
      rw [List.flatMap_map, List.flatMap_map]
      exact List.flatMap_congr fun h _ => (sizeCheck_doc h).symm
    rw [List.isEmpty_cons, if_neg Bool.false_ne_true, if_neg Bool.false_ne_true, checks]
    have init := ReadsAs.cons (.init ((h :: rest).map HostStruct.sizeCheck)) .nil
    rw [List.append_nil] at init
    exact init

theorem hostDoc_closed (hs : List HostStruct) :
    hostDoc hs = [] ∨ ∃ front, hostDoc hs = front ++ Doc.line "\x7d" := by
  cases hs with
  | nil => exact .inl rfl
  | cons h rest =>
    rw [hostDoc, sizeChecks, List.map_cons, List.isEmpty_cons, if_neg Bool.false_ne_true, Doc.block,
      ← List.append_assoc]
    exact .inr ⟨_, rfl⟩

/-- Whatever the package, the header and the bindings, the lines for the structs stand in the file unchanged. -/
theorem generate_holds {u : SourceUnit} {table : LayoutTable} {hs : List HostStruct}
    (result : u.gpuStructs.mapM (hostStruct table) = .ok hs) (resolved : Succeeds (u.gpuBindings.mapM slotRows))
    (package header : String) :
    ∃ before after, generate u table package header = .ok (before ++ (hostDoc hs).render "\t" ++ after) := by
  obtain ⟨slots, resolved⟩ := resolved
  have written : generate u table package header =
      .ok (Text.trimEnd ((document package header hs slots.flatten).render "\t") ++ "\n") := by
    rw [generate, result, resolved]
    rfl
  obtain ⟨front, back, parts⟩ : ∃ front back, document package header hs slots.flatten = front ++ hostDoc hs ++ back :=
    ⟨_, _, rfl⟩
  rw [written, parts, Doc.render_append, Doc.render_append]
  rcases hostDoc_closed hs with none | ⟨inner, closed⟩
  · have empty : Doc.render "\t" [] = "" := rfl
    refine ⟨Text.trimEnd (front.render "\t" ++ back.render "\t") ++ "\n", "", congrArg Except.ok ?_⟩
    rw [none, empty, String.append_empty, String.append_empty, String.append_empty]
  · obtain ⟨after, kept⟩ := Text.trimEnd_closed (front.render "\t" ++ inner.render "\t") (back.render "\t")
    refine ⟨front.render "\t", after, congrArg Except.ok ?_⟩
    have brace : (Doc.line "\x7d").render "\t" = "\x7d\n" := rfl
    rw [closed, Doc.render_append, brace, ← String.append_assoc, kept]

/-- Every host file of the structs holds the declarations, whatever else stands in it. -/
def Emits (structs : List GpuStruct) (table : LayoutTable) (file : List GoDecl) : Prop :=
  ∀ (u : SourceUnit) (package header : String), u.gpuStructs = structs → Succeeds (u.gpuBindings.mapM slotRows) →
    ∃ before doc after, generate u table package header = .ok (before ++ doc.render "\t" ++ after) ∧ ReadsAs doc file

theorem goFile_emitted {structs : List GpuStruct} {table : LayoutTable} {hs : List HostStruct}
    (distinct : (structs.map (·.name.value)).Nodup) (built : LayoutTable.build structs = .ok table)
    (result : structs.mapM (hostStruct table) = .ok hs) : Emits structs table (goFile hs) := by
  rintro u package header rfl resolved
  obtain ⟨before, after, written⟩ := generate_holds result resolved package header
  refine ⟨before, hostDoc hs, after, written, hostDoc_readsAs fun h member => ?_⟩
  obtain ⟨s, declared, shaped⟩ := forall₂_mem_right (mapM_ok_forall₂.mp result) member
  obtain ⟨_, _, _, _, held⟩ := hostStruct_held distinct built declared shaped
  exact held.row_text _ _

section

variable {hs : List HostStruct}

theorem filterMap_goFile {α : Type} {f : GoDecl → Option α} {g : HostStruct → α}
    (each : ∀ h : HostStruct, h.decls.filterMap f = [g h]) (none : ∀ checks, f (.init checks) = none) :
    (goFile hs).filterMap f = hs.map g := by
  have last : (if hs.isEmpty then [] else [GoDecl.init (hs.map HostStruct.sizeCheck)]).filterMap f = [] := by
    split
    · rfl
    · exact List.filterMap_cons_none (none _)
  rw [goFile, List.filterMap_append, last, List.append_nil, List.filterMap_flatMap, List.map_eq_flatMap]
  exact List.flatMap_congr fun h _ => each h

theorem structsOf_goFile : structsOf (goFile hs) = hs.map fun h => (h.name, h.goFields) :=
  filterMap_goFile (fun _ => rfl) fun _ => rfl

theorem constantsOf_goFile : constantsOf (goFile hs) = hs.map fun h => (h.name ++ "Size", h.layout.size) :=
  filterMap_goFile (fun _ => rfl) fun _ => rfl

theorem methodsOf_goFile :
    methodsOf (goFile hs) = hs.map fun h => (h.name, h.name ++ "Size", h.fields.map HostField.step) :=
  filterMap_goFile (fun _ => rfl) fun _ => rfl

theorem sizeChecksOf_goFile : sizeChecksOf (goFile hs) = hs.map HostStruct.sizeCheck := by
  have structs : sizeChecksOf (hs.flatMap HostStruct.decls) = [] := by
    rw [sizeChecksOf, List.flatMap_assoc]
    exact List.flatMap_eq_nil_iff.mpr fun _ _ => rfl
  have last : sizeChecksOf (goFile hs) = sizeChecksOf (hs.flatMap HostStruct.decls) ++
      sizeChecksOf (if hs.isEmpty then [] else [.init (hs.map HostStruct.sizeCheck)]) := List.flatMap_append
  rw [last, structs, List.nil_append]
  cases hs with
  | nil => rfl
  | cons h rest => exact List.append_nil _

variable {h : HostStruct} (distinct : (hs.map (·.name)).Nodup) (member : h ∈ hs)

include distinct member

theorem fields_goFile : (structsOf (goFile hs)).lookup h.name = some h.goFields := by
  rw [structsOf_goFile]
  refine lookup_of_mem ?_ (List.mem_map_of_mem member)
  rw [List.map_map]
  exact distinct

theorem size_goFile : (constantsOf (goFile hs)).lookup (h.name ++ "Size") = some h.layout.size := by
  rw [constantsOf_goFile]
  refine lookup_of_mem ?_ (List.mem_map_of_mem member)
  have names : hs.map (Prod.fst ∘ fun h => (h.name ++ "Size", h.layout.size)) =
      (hs.map (·.name)).map (· ++ "Size") := by
    rw [List.map_map]
    rfl
  rw [List.map_map, names]
  exact distinct.map fun _ _ => (String.append_left_inj "Size").mp

theorem method_goFile :
    (methodsOf (goFile hs)).lookup h.name = some (h.name ++ "Size", h.fields.map HostField.step) := by
  rw [methodsOf_goFile]
  refine lookup_of_mem ?_ (List.mem_map_of_mem member)
  rw [List.map_map]
  exact distinct

end

end ViewLang.Gpu.Host
