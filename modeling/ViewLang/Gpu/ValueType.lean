namespace ViewLang.Gpu

inductive Scalar
  | float
  | sint
  | uint
deriving Repr, DecidableEq

namespace Scalar

def wgsl : Scalar → String
  | float => "f32"
  | sint => "i32"
  | uint => "u32"

def go : Scalar → String
  | float => "float32"
  | sint => "int32"
  | uint => "uint32"

end Scalar

structure ValueType where
  name : String
  wgsl : String
  host : String
  size : Nat
  align : Nat
  scalar : Scalar
deriving Repr, DecidableEq

namespace ValueType

def components (t : ValueType) : Nat := t.size / 4

def isScalar (t : ValueType) : Bool := t.components == 1

def table : List ValueType :=
  [⟨"f32", "f32", "float32", 4, 4, .float⟩,
    ⟨"i32", "i32", "int32", 4, 4, .sint⟩,
    ⟨"u32", "u32", "uint32", 4, 4, .uint⟩,
    ⟨"vec2", "vec2<f32>", "[2]float32", 8, 8, .float⟩,
    ⟨"vec2f", "vec2<f32>", "[2]float32", 8, 8, .float⟩,
    ⟨"vec2i", "vec2<i32>", "[2]int32", 8, 8, .sint⟩,
    ⟨"vec2u", "vec2<u32>", "[2]uint32", 8, 8, .uint⟩,
    ⟨"vec3", "vec3<f32>", "[3]float32", 12, 16, .float⟩,
    ⟨"vec3f", "vec3<f32>", "[3]float32", 12, 16, .float⟩,
    ⟨"vec3i", "vec3<i32>", "[3]int32", 12, 16, .sint⟩,
    ⟨"vec3u", "vec3<u32>", "[3]uint32", 12, 16, .uint⟩,
    ⟨"vec4", "vec4<f32>", "[4]float32", 16, 16, .float⟩,
    ⟨"vec4f", "vec4<f32>", "[4]float32", 16, 16, .float⟩,
    ⟨"vec4i", "vec4<i32>", "[4]int32", 16, 16, .sint⟩,
    ⟨"vec4u", "vec4<u32>", "[4]uint32", 16, 16, .uint⟩,
    ⟨"mat2", "mat2x2<f32>", "[4]float32", 16, 8, .float⟩,
    ⟨"mat2x2", "mat2x2<f32>", "[4]float32", 16, 8, .float⟩,
    ⟨"mat3", "mat3x3<f32>", "[12]float32", 48, 16, .float⟩,
    ⟨"mat3x3", "mat3x3<f32>", "[12]float32", 48, 16, .float⟩,
    ⟨"mat4", "mat4x4<f32>", "[16]float32", 64, 16, .float⟩,
    ⟨"mat4x4", "mat4x4<f32>", "[16]float32", 64, 16, .float⟩]

def ofName? (name : String) : Option ValueType := table.find? (·.name == name)

end ValueType
end ViewLang.Gpu
