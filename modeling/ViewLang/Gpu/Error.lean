import ViewLang.Diagnostic

namespace ViewLang.Gpu

inductive TypeFault
  | notGpuType
  | containsItself
  | runtimeSized
  | noLayout
deriving Repr, DecidableEq

def TypeFault.text : TypeFault → String
  | notGpuType => "not a GPU type"
  | containsItself => "struct contains itself"
  | runtimeSized => "runtime-sized arrays are only allowed as storage bindings"
  | noLayout => "struct has no layout"

inductive Target
  | struct_
  | field
  | function
  | parameter
  | result
  | binding
deriving Repr, DecidableEq

def Target.text : Target → String
  | struct_ => "struct"
  | field => "field"
  | function => "function"
  | parameter => "parameter"
  | result => "result"
  | binding => "binding"

inductive Construct
  | multiReturn
  | multiAssign
  | bareVariable
  | exprStmt
  | defineTarget
  | loopClause
  | rangeLoop
  | andNot
  | string
  | make
  | slice
  | funcLiteral
  | mixedKeys
  | keyedArray
  | keyedBuiltin
  | unknownField (field type : String)
  | noSlot (space binding : String)
  | bindingSlot
deriving Repr, DecidableEq

def Construct.text : Construct → String
  | multiReturn => "multi-value return"
  | multiAssign => "multi-value assignment"
  | bareVariable => "variable without type or value"
  | exprStmt => "expression statement"
  | defineTarget => "declaration of a non-identifier"
  | loopClause => "statement in a loop clause"
  | rangeLoop => "`range` loop"
  | andNot => "the `&^` operator"
  | string => "string"
  | make => "`make`"
  | slice => "slice expression"
  | funcLiteral => "function literal"
  | mixedKeys => "mixed keyed and positional fields"
  | keyedArray => "keyed array element"
  | keyedBuiltin => "keyed fields on a built-in type"
  | unknownField field type => "unknown field `" ++ field ++ "` of `" ++ type ++ "`"
  | noSlot space binding => space ++ " binding `" ++ binding ++ "` without `@group` and `@binding`"
  | bindingSlot => "binding slot"

inductive Cause
  | unknownType (name : String) (fault : TypeFault)
  | badDecorator (name : String) (target : Target)
  | channelOp
  | badConstruct (construct : Construct)
  | unknownFunction (name : String)
  | noAddressSpace (binding : String)
deriving Repr, DecidableEq

namespace Cause

def code : Cause → Code
  | unknownType .. => .unknownType
  | badDecorator .. => .badDecorator
  | channelOp => .channelOp
  | badConstruct _ => .badConstruct
  | unknownFunction _ => .unknownFunction
  | noAddressSpace _ => .noAddressSpace

def message : Cause → String
  | unknownType name fault => "unknown shader type `" ++ name ++ "`: " ++ fault.text
  | badDecorator name target => "unsupported decorator `@" ++ name ++ "` on " ++ target.text
  | channelOp => "channel operations cannot run in shader code"
  | badConstruct construct => construct.text ++ " cannot be expressed in shader code"
  | unknownFunction name => "unknown function `" ++ name ++ "` in shader code"
  | noAddressSpace binding => "binding `" ++ binding ++ "` has no address space"

def help? : Cause → Option String
  | unknownType .. => some "use f32, i32, u32, a vecN, a matNxN or a `@gpu` struct"
  | channelOp => some "receive on the Go side and pass the value through a uniform"
  | noAddressSpace _ =>
    some "add one of `@uniform`, `@storage`, `@storage(read_write)`, `@workgroup` or `@private`"
  | _ => none

end Cause

structure ShaderError where
  cause : Cause
  span : Span
deriving Repr, DecidableEq

namespace ShaderError

def message (e : ShaderError) : String := e.cause.message

def code (e : ShaderError) : Code := e.cause.code

def diagnostic (e : ShaderError) : Diagnostic :=
  { Diagnostic.plain .error e.message with
    code := some e.code
    labels := if e.span = Span.none then [] else [⟨e.span, e.code.description, true⟩]
    help := e.cause.help? }

end ShaderError
end ViewLang.Gpu
