import ViewLang.Gpu.Error
import ViewLang.Gpu.ValueType
import ViewLang.Syntax.Unit

namespace ViewLang.Gpu

inductive Overflow
  | add
  | multiply
deriving Repr, DecidableEq

def Overflow.message : Overflow → String
  | add => "attempt to add with overflow"
  | multiply => "attempt to multiply with overflow"

def fitting (op : Overflow) (n : Nat) : Except Overflow Nat := if n < UInt32.size then .ok n else .error op

def roundUp (value align : Nat) : Except Overflow Nat :=
  if align = 0 then .ok value else fitting .multiply ((value + align - 1) / align * align)

structure Slot where
  name : String
  size : Nat
  align : Nat
deriving Repr, DecidableEq

structure PlacedField where
  name : String
  offset : Nat
  size : Nat
  align : Nat
deriving Repr, DecidableEq

structure StructLayout where
  fields : List PlacedField
  size : Nat
  align : Nat
deriving Repr, DecidableEq

namespace StructLayout

def place (offset : Nat) : List Slot → Except Overflow (List PlacedField × Nat)
  | [] => .ok ([], offset)
  | s :: ss => do
    let start ← roundUp offset s.align
    let stop ← fitting .add (start + s.size)
    let (rest, last) ← place stop ss
    .ok (⟨s.name, start, s.size, s.align⟩ :: rest, last)

def maxAlign (slots : List Slot) : Nat := slots.foldl (fun n s => max n s.align) 1

def compute (slots : List Slot) : Except Overflow StructLayout := do
  let (fields, stop) ← place 0 slots
  let size ← roundUp stop (maxAlign slots)
  .ok ⟨fields, size, maxAlign slots⟩

def field? (l : StructLayout) (name : String) : Option PlacedField := l.fields.find? (·.name == name)

end StructLayout

inductive LayoutFault
  | shader (e : ShaderError)
  | overflow (o : Overflow)
deriving Repr, DecidableEq

abbrev LayoutTable := List (String × StructLayout)

/-- Declarations by name. Of two with one name the later counts, in the place of the first. -/
def declTable (structs : List GpuStruct) : List (String × GpuStruct) :=
  structs.foldl (fun table s =>
    if (table.lookup s.name.value).isSome then
      table.map fun (name, old) => if name = s.name.value then (name, s) else (name, old)
    else table ++ [(s.name.value, s)]) []

def fieldTypeName (ty : Located TypeExpr) : Except ShaderError String :=
  match ty.value with
  | .named name => .ok name
  | .slice _ => .error ⟨.unknownType ty.value.render .runtimeSized, ty.span⟩
  | _ => .error ⟨.unknownType ty.value.render .notGpuType, ty.span⟩

namespace LayoutTable

def fieldSlot (decls : List (String × GpuStruct))
    (inner : LayoutTable → String → Except LayoutFault (Nat × Nat × LayoutTable)) (table : LayoutTable)
    (f : GpuField) : Except LayoutFault (Slot × LayoutTable) := do
  let name ← (fieldTypeName f.ty).mapError .shader
  match ValueType.ofName? name with
  | some t => .ok (⟨f.name.value, t.size, t.align⟩, table)
  | none =>
    if (decls.lookup name).isSome then
      let (size, align, table) ← inner table name
      .ok (⟨f.name.value, size, align⟩, table)
    else .error (.shader ⟨.unknownType name .notGpuType, f.ty.span⟩)

def fieldSlots (decls : List (String × GpuStruct))
    (inner : LayoutTable → String → Except LayoutFault (Nat × Nat × LayoutTable)) :
    LayoutTable → List GpuField → Except LayoutFault (List Slot × LayoutTable)
  | table, [] => .ok ([], table)
  | table, f :: fs => do
    let (slot, table) ← fieldSlot decls inner table f
    let (slots, table) ← fieldSlots decls inner table fs
    .ok (slot :: slots, table)

/-- Size and alignment of a struct, laid out unless the table has it. `active` are the structs being laid out, and
the first argument bounds their number: deeper than there are structs, one contains itself. -/
def resolve (decls : List (String × GpuStruct)) :
    Nat → List String → LayoutTable → String → Except LayoutFault (Nat × Nat × LayoutTable)
  | 0, _, _, name => .error (.shader ⟨.unknownType name .containsItself, Span.none⟩)
  | n + 1, active, table, name =>
    match table.lookup name with
    | some l => .ok (l.size, l.align, table)
    | none =>
      match decls.lookup name with
      | none => .error (.shader ⟨.unknownType name .notGpuType, Span.none⟩)
      | some decl =>
        if name ∈ active then .error (.shader ⟨.unknownType name .containsItself, decl.name.span⟩)
        else do
          let (slots, table) ← fieldSlots decls (fun t x => resolve decls n (name :: active) t x) table decl.fields
          let layout ← (StructLayout.compute slots).mapError .overflow
          .ok (layout.size, layout.align, table ++ [(name, layout)])

def resolveAll (decls : List (String × GpuStruct)) : LayoutTable → List String → Except LayoutFault LayoutTable
  | table, [] => .ok table
  | table, name :: names => do
    let (_, _, table) ← resolve decls (decls.length + 1) [] table name
    resolveAll decls table names

def build (structs : List GpuStruct) : Except LayoutFault LayoutTable :=
  let decls := declTable structs
  resolveAll decls [] (decls.map (·.1))

end LayoutTable
end ViewLang.Gpu
