import Mathlib.Data.List.Forall2
import ViewLang.Code
import ViewLang.Gpu.ValueType

namespace ViewLang.Gpu.Host

inductive GoType
  | scalar (kind : Scalar)
  | byte
  | array (n : Nat) (elem : GoType)
  | named (name : String)
deriving Repr, DecidableEq

namespace GoType

def text : GoType → String
  | scalar kind => kind.go
  | byte => "byte"
  | array n elem => "[" ++ toString n ++ "]" ++ elem.text
  | named name => name

def ofValueType (t : ValueType) : GoType := if t.isScalar then scalar t.scalar else array t.components (scalar t.scalar)

def ofName (name : String) : GoType :=
  match ValueType.ofName? name with
  | some t => ofValueType t
  | none => named name

end GoType

abbrev GoField := String × GoType

inductive Operand
  | field (name : String)
  | element
deriving Repr, DecidableEq

def Operand.text : Operand → String
  | field name => "v." ++ name
  | element => "x"

inductive Word
  | bits (o : Operand)
  | converted (o : Operand)
  | plain (o : Operand)
deriving Repr, DecidableEq

def Word.text : Word → String
  | bits o => "math.Float32bits(" ++ o.text ++ ")"
  | converted o => "uint32(" ++ o.text ++ ")"
  | plain o => o.text

inductive Index
  | fixed (n : Nat)
  | scaled
  | shifted (n : Nat)
deriving Repr, DecidableEq

def Index.text : Index → String
  | fixed n => toString n
  | scaled => "i*4"
  | shifted n => toString n ++ "+i*4"

structure Put where
  index : Index
  word : Word
deriving Repr, DecidableEq

def Put.text (p : Put) : String :=
  "binary.LittleEndian.PutUint32(buf[" ++ p.index.text ++ ":], " ++ p.word.text ++ ")"

inductive Step
  | put (p : Put)
  | each (field : String) (p : Put)
  | copy (start : Nat) (field : String)
deriving Repr, DecidableEq

def Step.doc : Step → Doc
  | put p => Doc.line p.text
  | each field p => Doc.block ("for i, x := range v." ++ field ++ " \x7b") (Doc.line p.text) "\x7d"
  | copy start field => Doc.line ("copy(buf[" ++ toString start ++ ":], v." ++ field ++ ".Bytes())")

structure SizeCheck where
  type : String
  constant : String
  message : String
deriving Repr, DecidableEq

def SizeCheck.doc (c : SizeCheck) : Doc :=
  Doc.block ("if unsafe.Sizeof(" ++ c.type ++ "\x7b\x7d) != " ++ c.constant ++ " \x7b")
    (Doc.line ("panic(\"" ++ c.message ++ "\")")) "\x7d"

/-- The declarations of a host file. `bytes` is the method `Bytes` of a type: it makes a buffer of a size that a
constant names, takes the steps, and returns the buffer. -/
inductive GoDecl
  | constant (name : String) (value : Nat)
  | struct (name : String) (fields : List GoField)
  | bytes (receiver size : String) (body : List Step)
  | init (checks : List SizeCheck)
deriving Repr, DecidableEq

/-- The line of a field. Blanks may stand before the type, so that types stand below one another. -/
def FieldLine (f : GoField) (l : Line) : Prop :=
  ∃ n, l = .text 0 (f.1 ++ String.ofList (List.replicate (n + 1) ' ') ++ f.2.text)

inductive GoDecl.Written : GoDecl → Doc → Prop
  | constant (name : String) (value : Nat) :
    Written (constant name value) (Doc.line ("const " ++ name ++ " = " ++ toString value))
  | empty (name : String) : Written (struct name []) (Doc.line ("type " ++ name ++ " struct\x7b\x7d"))
  | struct (name : String) {fields : List GoField} {lines : Doc} (rows : List.Forall₂ FieldLine fields lines) :
    Written (struct name fields) (Doc.block ("type " ++ name ++ " struct \x7b") lines "\x7d")
  | bytes (receiver size : String) (body : List Step) :
    Written (bytes receiver size body)
      (Doc.block ("func (v *" ++ receiver ++ ") Bytes() []byte \x7b")
        (Doc.line ("buf := make([]byte, " ++ size ++ ")") ++ body.flatMap Step.doc ++ Doc.line "return buf") "\x7d")
  | init (checks : List SizeCheck) :
    Written (init checks) (Doc.block "func init() \x7b" (checks.flatMap SizeCheck.doc) "\x7d")

/-- Lines read as declarations, with blank lines and comments between them. -/
inductive ReadsAs : Doc → List GoDecl → Prop
  | nil : ReadsAs [] []
  | blank {doc : Doc} {file : List GoDecl} (rest : ReadsAs doc file) : ReadsAs (Doc.blank ++ doc) file
  | comment (text : String) {doc : Doc} {file : List GoDecl} (rest : ReadsAs doc file) :
    ReadsAs (Doc.line ("//" ++ text) ++ doc) file
  | cons {decl : GoDecl} {lines doc : Doc} {file : List GoDecl} (first : decl.Written lines)
    (rest : ReadsAs doc file) : ReadsAs (lines ++ doc) (decl :: file)

theorem ReadsAs.note {doc : Doc} {file : List GoDecl} (text : String) (rest : ReadsAs doc file) :
    ReadsAs (Doc.line ("// " ++ text) ++ doc) file := by
  have slashes : "// " ++ text = "//" ++ (" " ++ text) := by
    rw [← String.append_assoc]
    rfl
  rw [slashes]
  exact .comment _ rest

theorem ReadsAs.append {doc more : Doc} {file others : List GoDecl} (left : ReadsAs doc file)
    (right : ReadsAs more others) : ReadsAs (doc ++ more) (file ++ others) := by
  induction left with
  | nil => exact right
  | blank _ ih => exact .blank ih
  | comment text _ ih => exact .comment text ih
  | cons first _ ih =>
    rw [List.append_assoc]
    exact .cons first ih

theorem ReadsAs.flatMap {α : Type} {doc : α → Doc} {file : α → List GoDecl} {xs : List α}
    (each : ∀ x ∈ xs, ReadsAs (doc x) (file x)) : ReadsAs (xs.flatMap doc) (xs.flatMap file) := by
  induction xs with
  | nil => exact .nil
  | cons x xs ih =>
    obtain ⟨first, rest⟩ := List.forall_mem_cons.mp each
    exact first.append (ih rest)

section

variable (file : List GoDecl)

def structsOf : List (String × List GoField) :=
  file.filterMap fun
    | .struct name fields => some (name, fields)
    | _ => none

def constantsOf : List (String × Nat) :=
  file.filterMap fun
    | .constant name value => some (name, value)
    | _ => none

def methodsOf : List (String × String × List Step) :=
  file.filterMap fun
    | .bytes receiver size body => some (receiver, size, body)
    | _ => none

def sizeChecksOf : List SizeCheck :=
  file.flatMap fun
    | .init checks => checks
    | _ => []

end

end ViewLang.Gpu.Host
