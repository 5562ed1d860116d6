import ViewLang.Code
import ViewLang.Exported
import ViewLang.Gpu.Binding
import ViewLang.Gpu.Layout
import ViewLang.Text.Blank

namespace ViewLang.Gpu.Host

inductive HostType
  | value (t : ValueType)
  | nested (name : String)
deriving Repr, DecidableEq

def HostType.text : HostType → String
  | value t => t.host
  | nested name => name

structure HostField where
  name : String
  type : HostType
  offset : Nat
deriving Repr, DecidableEq

def hostType (f : GpuField) : Except ShaderError HostType :=
  match f.ty.value.baseName? with
  | none => .error ⟨.unknownType f.ty.value.render .notGpuType, f.ty.span⟩
  | some name =>
    match ValueType.ofName? name with
    | some t => .ok (.value t)
    | none => .ok (.nested name)

def hostField (f : GpuField) (placed : PlacedField) : Except ShaderError HostField := do
  let type ← hostType f
  .ok ⟨exported f.name.value, type, placed.offset⟩

def hostFields (s : GpuStruct) (layout : StructLayout) : Except ShaderError (List HostField) :=
  (s.fields.zip layout.fields).mapM fun (f, placed) => hostField f placed

inductive Row
  | field (name : String) (type : HostType)
  | padding (bytes : Nat)
deriving Repr, DecidableEq

namespace Row

def name : Row → String
  | field name _ => name
  | padding _ => "_"

def type : Row → String
  | field _ type => type.text
  | padding n => "[" ++ toString n ++ "]byte"

end Row

def gap (stop start : Nat) : List Row := if stop < start then [.padding (start - stop)] else []

def rowsFrom (size : Nat) : Nat → List (HostField × PlacedField) → List Row
  | stop, [] => gap stop size
  | stop, (f, placed) :: rest =>
    gap stop placed.offset ++ .field f.name f.type :: rowsFrom size (placed.offset + placed.size) rest

def rows (layout : StructLayout) (fields : List HostField) : List Row :=
  rowsFrom layout.size 0 (fields.zip layout.fields)

def rowLines (rs : List Row) : Doc :=
  let width := maxLength (rs.map Row.name)
  rs.map fun r => .text 0 (padRight width r.name ++ " " ++ r.type)

def structType (name : String) (rs : List Row) : Doc :=
  if rs.isEmpty then Doc.line ("type " ++ name ++ " struct\x7b\x7d")
  else Doc.block ("type " ++ name ++ " struct \x7b") (rowLines rs) "\x7d"

inductive Write
  | scalar (offset : Nat) (field : String) (kind : Scalar)
  | array (offset : Nat) (field : String) (kind : Scalar)
  | nested (offset : Nat) (field : String)
deriving Repr, DecidableEq

def HostField.write (f : HostField) : Write :=
  match f.type with
  | .nested _ => .nested f.offset f.name
  | .value t => if t.isScalar then .scalar f.offset f.name t.scalar else .array f.offset f.name t.scalar

def scalarBits (kind : Scalar) (value : String) : String :=
  match kind with
  | .float => "math.Float32bits(" ++ value ++ ")"
  | .sint => "uint32(" ++ value ++ ")"
  | .uint => value

def putWord (index bits : String) : String := "binary.LittleEndian.PutUint32(buf[" ++ index ++ ":], " ++ bits ++ ")"

namespace Write

def lines : Write → Doc
  | nested offset field => Doc.line ("copy(buf[" ++ toString offset ++ ":], v." ++ field ++ ".Bytes())")
  | scalar offset field kind => Doc.line (putWord (toString offset) (scalarBits kind ("v." ++ field)))
  | array offset field kind =>
    let index := if offset = 0 then "i*4" else toString offset ++ "+i*4"
    Doc.block ("for i, x := range v." ++ field ++ " \x7b") (Doc.line (putWord index (scalarBits kind "x"))) "\x7d"

def usesBinary : Write → Bool
  | nested .. => false
  | _ => true

def usesMath : Write → Bool
  | scalar _ _ .float => true
  | array _ _ .float => true
  | _ => false

end Write

def structDoc (name : String) (layout : StructLayout) (fields : List HostField) : Doc :=
  Doc.line ("// " ++ name ++ "Size is the size of " ++ name ++ " in shader memory.") ++
  Doc.line ("const " ++ name ++ "Size = " ++ toString layout.size) ++
  Doc.blank ++
  Doc.line ("// " ++ name ++ " mirrors the shader struct " ++ name ++ ".") ++
  structType name (rows layout fields) ++
  Doc.blank ++
  Doc.line ("// Bytes returns the little-endian shader image of " ++ name ++ ".") ++
  Doc.block ("func (v *" ++ name ++ ") Bytes() []byte \x7b")
    (Doc.line ("buf := make([]byte, " ++ name ++ "Size)") ++ fields.flatMap (·.write.lines) ++ Doc.line "return buf")
    "\x7d" ++
  Doc.blank

def sizeCheck (name : String) : Doc :=
  Doc.block ("if unsafe.Sizeof(" ++ name ++ "\x7b\x7d) != " ++ name ++ "Size \x7b")
    (Doc.line ("panic(\"" ++ name ++ ": host size does not match the shader layout\")")) "\x7d"

def sizeChecks (names : List String) : Doc :=
  if names.isEmpty then []
  else Doc.block "func init() \x7b" (names.flatMap sizeCheck) "\x7d"

def slotRows (b : GpuBinding) : Except ShaderError (List (String × Nat)) := do
  let info ← BindingInfo.resolve b
  match info.slot with
  | none => .ok []
  | some (group, slot) =>
    .ok [(exported b.name.value ++ "Group", group), (exported b.name.value ++ "Slot", slot)]

def slotDoc (rs : List (String × Nat)) : Doc :=
  let width := maxLength (rs.map (·.1))
  Doc.line "// Bind group and slot of each shader resource." ++
  Doc.block "const (" (rs.map fun (name, n) => .text 0 (padRight width name ++ " = " ++ toString n)) ")"

def importDoc : List String → Doc
  | [] => []
  | [path] => Doc.line ("import \"" ++ path ++ "\"") ++ Doc.blank
  | paths => Doc.block "import (" (paths.map fun path => .text 0 ("\"" ++ path ++ "\"")) ")" ++ Doc.blank

structure HostStruct where
  name : String
  layout : StructLayout
  fields : List HostField
deriving Repr, DecidableEq

def hostStruct (layouts : LayoutTable) (s : GpuStruct) : Except ShaderError HostStruct :=
  match layouts.lookup s.name.value with
  | none => .error ⟨.unknownType s.name.value .noLayout, s.span⟩
  | some layout => do
    let fields ← hostFields s layout
    .ok ⟨s.name.value, layout, fields⟩

def importPaths (structs : List HostStruct) : List String :=
  let writes := structs.flatMap fun s => s.fields.map HostField.write
  (if writes.any Write.usesBinary then ["encoding/binary"] else []) ++
  (if writes.any Write.usesMath then ["math"] else []) ++
  (if structs.isEmpty then [] else ["unsafe"])

def document (package header : String) (structs : List HostStruct) (slots : List (String × Nat)) : Doc :=
  let body := structs.flatMap (fun s => structDoc s.name s.layout s.fields) ++ sizeChecks (structs.map (·.name))
  (if header.isEmpty then [] else Doc.line header ++ Doc.blank) ++
  Doc.line ("package " ++ package) ++
  Doc.blank ++
  importDoc (importPaths structs) ++
  body ++
  (if slots.isEmpty then [] else (if body.isEmpty then [] else Doc.blank) ++ slotDoc slots)

def generate (u : SourceUnit) (layouts : LayoutTable) (package header : String) : Except ShaderError String := do
  let structs ← u.gpuStructs.mapM (hostStruct layouts)
  let slots ← u.gpuBindings.mapM slotRows
  .ok (Text.trimEnd ((document package header structs slots.flatten).render "\t") ++ "\n")

end ViewLang.Gpu.Host
