import ViewLang.Gpu.Error
import ViewLang.Syntax.Unit

namespace ViewLang.Gpu

inductive AddressSpace
  | uniform
  | storage (readWrite : Bool)
  | workgroup
  | private_
deriving Repr, DecidableEq

namespace AddressSpace

def text : AddressSpace → String
  | uniform => "uniform"
  | storage false => "storage, read"
  | storage true => "storage, read_write"
  | workgroup => "workgroup"
  | private_ => "private"

def isResource : AddressSpace → Bool
  | uniform => true
  | storage _ => true
  | _ => false

def isStorage : AddressSpace → Bool
  | storage _ => true
  | _ => false

end AddressSpace

structure BindingInfo where
  space : AddressSpace
  slot : Option (Nat × Nat)
deriving Repr, DecidableEq

namespace BindingInfo

structure Partial where
  space : Option AddressSpace
  group : Option Nat
  slot : Option Nat
deriving Repr, DecidableEq

def badDecorator (d : Decorator) : ShaderError := ⟨.badDecorator d.name.value .binding, d.span⟩

def integerArg (d : Decorator) : Except ShaderError Nat :=
  match d.args.map Expr.primary? with
  | [some (.int text)] =>
    if text.value.toList.all Char.isDigit then
      let n := text.value.toList.foldl (fun n c => 10 * n + (c.toNat - '0'.toNat)) 0
      if n < UInt32.size then .ok n else .error (badDecorator d)
    else .error (badDecorator d)
  | _ => .error (badDecorator d)

def storageAccess (d : Decorator) : Except ShaderError Bool :=
  match d.args with
  | [] => .ok false
  | [arg] =>
    match arg.ident?.map (·.value) with
    | some "read" => .ok false
    | some "read_write" => .ok true
    | _ => .error (badDecorator d)
  | _ => .error (badDecorator d)

def addDecorator (p : Partial) (d : Decorator) : Except ShaderError Partial :=
  match d.name.value with
  | "uniform" => .ok { p with space := some .uniform }
  | "storage" => do
    let readWrite ← storageAccess d
    .ok { p with space := some (.storage readWrite) }
  | "workgroup" => .ok { p with space := some .workgroup }
  | "private" => .ok { p with space := some .private_ }
  | "group" => do
    let n ← integerArg d
    .ok { p with group := some n }
  | "binding" => do
    let n ← integerArg d
    .ok { p with slot := some n }
  | _ => .error (badDecorator d)

def addDecorators : Partial → List Decorator → Except ShaderError Partial
  | p, [] => .ok p
  | p, d :: ds => do
    let p ← addDecorator p d
    addDecorators p ds

def misplaced? (ds : List Decorator) : Option Decorator :=
  ds.find? fun d => d.name.value == "group" || d.name.value == "binding"

def resolve (b : GpuBinding) : Except ShaderError BindingInfo := do
  let p ← addDecorators ⟨none, none, none⟩ b.decorators
  match p.space with
  | none => .error ⟨.noAddressSpace b.name.value, b.name.span⟩
  | some space =>
    match space.isResource, p.group, p.slot with
    | true, some group, some slot => .ok ⟨space, some (group, slot)⟩
    | true, _, _ => .error ⟨.badConstruct (.noSlot space.text b.name.value), b.span⟩
    | false, none, none => .ok ⟨space, none⟩
    | false, _, _ =>
      match misplaced? b.decorators with
      | some d => .error (badDecorator d)
      | none => .error ⟨.badConstruct .bindingSlot, b.span⟩

end BindingInfo
end ViewLang.Gpu
