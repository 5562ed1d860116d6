import ViewLang.Code
import ViewLang.Gpu.Binding
import ViewLang.Gpu.Layout
import ViewLang.Text.Blank

namespace ViewLang.Gpu.Wgsl

def builtinFunctions : List String :=
  ["abs", "acos", "all", "any", "arrayLength", "asin", "atan", "atan2", "atomicAdd", "atomicLoad", "atomicMax",
    "atomicMin", "atomicStore", "bool", "ceil", "clamp", "cos", "cosh", "cross", "degrees", "determinant",
    "distance", "dot", "exp", "exp2", "f32", "faceForward", "floor", "fma", "fract", "i32", "inverseSqrt", "length",
    "log", "log2", "max", "min", "mix", "normalize", "pow", "radians", "reflect", "refract", "round", "saturate",
    "select", "sign", "sin", "sinh", "smoothstep", "sqrt", "step", "storageBarrier", "tan", "tanh", "transpose",
    "trunc", "u32", "workgroupBarrier"]

def allowed : Target → List String
  | .struct_ => ["gpu"]
  | .field => ["location", "builtin", "interpolate", "invariant", "align", "size"]
  | .function => ["vertex", "fragment", "compute", "workgroup_size"]
  | .parameter => ["location", "builtin", "interpolate", "invariant"]
  | .result => ["location", "builtin", "interpolate", "invariant"]
  | .binding => []

structure Env where
  structs : List GpuStruct
  layouts : LayoutTable
  functions : List String

namespace Env

def hasStruct (env : Env) (name : String) : Bool := (env.layouts.lookup name).isSome

end Env

abbrev Result := Except ShaderError

def refuse {α : Type} (construct : Construct) (span : Span) : Result α := .error ⟨.badConstruct construct, span⟩

def plainType (env : Env) (span : Span) : TypeExpr → Result String
  | .named name =>
    match ValueType.ofName? name with
    | some t => .ok t.wgsl
    | none => if env.hasStruct name then .ok name else .error ⟨.unknownType name .notGpuType, span⟩
  | .slice elem => .error ⟨.unknownType (TypeExpr.slice elem).render .runtimeSized, span⟩
  | .chan .. => .error ⟨.channelOp, span⟩
  | ty => .error ⟨.unknownType ty.render .notGpuType, span⟩

def bindingType (env : Env) (runtimeArray : Bool) (ty : Located TypeExpr) : Result String :=
  match ty.value, runtimeArray with
  | .slice elem, true => do
    let elem ← plainType env ty.span elem
    .ok ("array<" ++ elem ++ ">")
  | other, _ => plainType env ty.span other

def typeName (env : Env) (ty : Located TypeExpr) : Result String := plainType env ty.span ty.value

def callee (env : Env) (name : Name) : Result String :=
  match ValueType.ofName? name.value with
  | some t => .ok t.wgsl
  | none =>
    if builtinFunctions.contains name.value || env.functions.contains name.value || env.hasStruct name.value then
      .ok name.value
    else .error ⟨.unknownFunction name.value, name.span⟩

def unaryText (op : UnaryOp) (operand : String) : String :=
  match op with
  | .plus => operand
  | .bitNot => "~" ++ operand
  | op => op.text ++ operand

abbrev Entries := List (Option Name × Result String)

def Entries.values (es : Entries) : Result (List String) := es.mapM (·.2)

def unknownKey? (fields : List GpuField) (es : Entries) : Option Name :=
  (es.filterMap (·.1)).find? fun key => !fields.any (·.name.value == key.value)

def fieldArg (env : Env) (es : Entries) (f : GpuField) : Result String :=
  match es.find? (fun e => e.1.map (·.value) == some f.name.value) with
  | some e => e.2
  | none => do
    let ty ← typeName env f.ty
    .ok (ty ++ "()")

def keyedComposite (env : Env) (ty : Located TypeExpr) (typeText : String) (es : Entries) (span : Span) :
    Result String :=
  match env.structs.find? (fun s => some s.name.value == ty.value.baseName?) with
  | none => refuse .keyedBuiltin span
  | some decl =>
    match unknownKey? decl.fields es with
    | some key => refuse (.unknownField key.value typeText) key.span
    | none => do
      let args ← decl.fields.mapM (fieldArg env es)
      .ok (typeText ++ "(" ++ ", ".intercalate args ++ ")")

def composite (env : Env) (ty : Located TypeExpr) (es : Entries) (span : Span) : Result String :=
  let keyed := (es.filter (·.1.isSome)).length
  if keyed ≠ 0 ∧ keyed ≠ es.length then refuse .mixedKeys span
  else match ty.value with
    | .slice elem =>
      if keyed ≠ 0 then refuse .keyedArray span
      else do
        let elem ← plainType env ty.span elem
        let values ← es.values
        .ok ("array<" ++ elem ++ ", " ++ toString es.length ++ ">(" ++ ", ".intercalate values ++ ")")
    | _ => do
      let typeText ← typeName env ty
      if keyed = 0 then
        let values ← es.values
        .ok (typeText ++ "(" ++ ", ".intercalate values ++ ")")
      else keyedComposite env ty typeText es span

mutual

def expr (env : Env) : Expr → Result String
  | ⟨head, tail, _⟩ => do
    let first ← primary env head
    let rest ← links env tail
    .ok (first ++ rest)

def links (env : Env) : List Link → Result String
  | [] => .ok ""
  | ⟨op, operand⟩ :: ls => do
    if op.value = .andNot then refuse .andNot op.span
    let text ← primary env operand
    let rest ← links env ls
    .ok (" " ++ op.value.text ++ " " ++ text ++ rest)

def exprs (env : Env) : List Expr → Result (List String)
  | [] => .ok []
  | e :: es => do
    let text ← expr env e
    let rest ← exprs env es
    .ok (text :: rest)

def entries (env : Env) : List Entry → Entries
  | [] => []
  | ⟨key, value⟩ :: es => (key, expr env value) :: entries env es

def primary (env : Env) : Primary → Result String
  | .int text => .ok text.value
  | .float text => .ok text.value
  | .string text => refuse .string text.span
  | .template t => refuse .string t.span
  | .composite ty es span => composite env ty (entries env es) span
  | .make ty _ span => if ty.value.isChan then .error ⟨.channelOp, span⟩ else refuse .make span
  | .index target index _ => do
    let target ← primary env target
    let index ← expr env index
    .ok (target ++ "[" ++ index ++ "]")
  | .slice target _ _ span => do
    let _ ← primary env target
    refuse .slice span
  | .select b path _ => do
    let b ← base env b
    .ok (path.foldl (fun text segment => text ++ "." ++ segment.value) b)
  | .call b path args span => do
    let _ ← base env b
    let name ← match b, path with
      | .name n, [] => callee env n
      | b, path => .error ⟨.unknownFunction ((b.qualified? path).getD "<expression>"), span⟩
    let args ← exprs env args
    .ok (name ++ "(" ++ ", ".intercalate args ++ ")")
  | .func _ _ _ span => refuse .funcLiteral span
  | .receive _ span => .error ⟨.channelOp, span⟩
  | .unary op operand _ => do
    let operand ← primary env operand
    .ok (unaryText op operand)
  | .paren inner => do
    let inner ← expr env inner
    .ok ("(" ++ inner ++ ")")

def base (env : Env) : Base → Result String
  | .name n => .ok n.value
  | .operand p => primary env p

end

def varText (d : VarDecl) (ty : Option String) (name : String) (value : Option String) : Result String :=
  match ty, value with
  | some ty, some value => .ok ("var " ++ name ++ ": " ++ ty ++ " = " ++ value)
  | some ty, none => .ok ("var " ++ name ++ ": " ++ ty)
  | none, some value => .ok ("var " ++ name ++ " = " ++ value)
  | none, none => refuse .bareVariable d.span

def varTexts (env : Env) (d : VarDecl) (ty : Option String) : List Name → List Expr → Result (List String)
  | [], _ => .ok []
  | name :: names, [] => do
    let first ← varText d ty name.value none
    let rest ← varTexts env d ty names []
    .ok (first :: rest)
  | name :: names, value :: values => do
    let value ← expr env value
    let first ← varText d ty name.value (some value)
    let rest ← varTexts env d ty names values
    .ok (first :: rest)

def varDecl (env : Env) (d : VarDecl) : Result (List String) := do
  if d.values.length ≠ 0 ∧ d.values.length ≠ d.names.length then refuse .multiAssign d.span
  let ty ← d.ty.mapM (typeName env)
  varTexts env d ty d.names d.values

def assign (env : Env) (targets : List Expr) (op : AssignOp) (values : List Expr) (span : Span) : Result String :=
  match targets with
  | [target] =>
    if op.isPostfix then do
      let target ← expr env target
      .ok (target ++ op.text)
    else match values with
      | [value] => do
        let value ← expr env value
        if op = .define then
          match target.ident? with
          | some name => .ok ("var " ++ name.value ++ " = " ++ value)
          | none => refuse .defineTarget target.span
        else
          let target ← expr env target
          .ok (target ++ " " ++ op.text ++ " " ++ value)
      | _ => refuse .multiAssign span
  | _ => refuse .multiAssign span

def callStmt (env : Env) (targets : List Expr) (span : Span) : Result String :=
  match targets with
  | [e] => if e.isCall then expr env e else refuse .exprStmt span
  | _ => refuse .exprStmt span

def simple (env : Env) : SimpleStmt → Result String
  | .exprs targets span => callStmt env targets span
  | .assign targets op values span => assign env targets op.value values span
  | .send _ _ span => .error ⟨.channelOp, span⟩

def clause (env : Env) : SimpleStmt → Result String
  | .send _ _ span => refuse .loopClause span
  | s => simple env s

def loopHead (env : Env) (span : Span) : LoopHeader → Result String
  | .infinite => .ok "loop \x7b"
  | .cond e => do
    let e ← expr env e
    .ok ("while " ++ e ++ " \x7b")
  | .classic init cond post => do
    let init ← init.mapM (clause env)
    let cond ← cond.mapM (expr env)
    let post ← post.mapM (clause env)
    .ok ("for (" ++ init.getD "" ++ "; " ++ cond.getD "" ++ "; " ++ post.getD "" ++ ") \x7b")
  | .range .. => refuse .rangeLoop span

mutual

def stmts (env : Env) : List Stmt → Result Doc
  | [] => .ok []
  | s :: ss => do
    let first ← stmt env s
    let rest ← stmts env ss
    .ok (first ++ rest)

def block (env : Env) : Block → Result Doc
  | ⟨ss, _⟩ => stmts env ss

def stmt (env : Env) : Stmt → Result Doc
  | .var d => do
    let texts ← varDecl env d
    .ok (texts.map fun text => .text 0 (text ++ ";"))
  | .simple s => do
    let text ← simple env s
    .ok (Doc.line (text ++ ";"))
  | .ret [] _ => .ok (Doc.line "return;")
  | .ret [value] _ => do
    let value ← expr env value
    .ok (Doc.line ("return " ++ value ++ ";"))
  | .ret _ span => refuse .multiReturn span
  | .cond s => ifStmt env s
  | .loop header body span => do
    let head ← loopHead env span header
    let body ← block env body
    .ok (Doc.block head body "\x7d")
  | .branch kind _ => .ok (Doc.line (kind.text ++ ";"))

/-- A conditional. What its first clause declares lives in a block around it and its branches. -/
def ifStmt (env : Env) : IfStmt → Result Doc
  | ⟨init, cond, body, otherwise, _⟩ => do
    let init ← init.mapM (simple env)
    let cond ← expr env cond
    let body ← block env body
    let otherwise ← elseBranch env otherwise
    let chain := Doc.line ("if " ++ cond ++ " \x7b") ++ Doc.indent body ++ otherwise ++ Doc.line "\x7d"
    match init with
    | none => .ok chain
    | some s => .ok (Doc.block "\x7b" (Doc.line (s ++ ";") ++ chain) "\x7d")

def elseBranch (env : Env) : Else → Result Doc
  | .none => .ok []
  | .block b => do
    let b ← block env b
    .ok (Doc.line "\x7d else \x7b" ++ Doc.indent b)
  | .chain ⟨none, cond, body, otherwise, _⟩ => do
    let cond ← expr env cond
    let body ← block env body
    let otherwise ← elseBranch env otherwise
    .ok (Doc.line ("\x7d else if " ++ cond ++ " \x7b") ++ Doc.indent body ++ otherwise)
  | .chain s => do
    let inner ← ifStmt env s
    .ok (Doc.line "\x7d else \x7b" ++ Doc.indent inner)

end

def checkDecorator (target : Target) (d : Decorator) : Result Unit :=
  if (allowed target).contains d.name.value then .ok ()
  else .error ⟨.badDecorator d.name.value target, d.span⟩

def attributeText (env : Env) (target : Target) (d : Decorator) : Result String := do
  checkDecorator target d
  if d.args.isEmpty then .ok ("@" ++ d.name.value ++ " ")
  else
    let args ← exprs env d.args
    .ok ("@" ++ d.name.value ++ "(" ++ ", ".intercalate args ++ ") ")

def attributes (env : Env) (target : Target) (ds : List Decorator) : Result String := do
  let texts ← ds.mapM (attributeText env target)
  .ok (String.join texts)

def member (env : Env) (target : Target) (f : GpuField) : Result String := do
  let attrs ← attributes env target f.decorators
  let ty ← typeName env f.ty
  .ok (attrs ++ f.name.value ++ ": " ++ ty)

def structDecl (env : Env) (s : GpuStruct) : Result Doc := do
  let _ ← s.decorators.mapM (checkDecorator .struct_)
  let members ← s.fields.mapM (member env .field)
  .ok (Doc.block ("struct " ++ s.name.value ++ " \x7b") (members.map fun m => .text 0 (m ++ ",")) "\x7d")

def bindingDecl (env : Env) (b : GpuBinding) : Result Doc := do
  let info ← BindingInfo.resolve b
  let ty ← bindingType env info.space.isStorage b.ty
  let slot := match info.slot with
    | some (group, slot) => "@group(" ++ toString group ++ ") @binding(" ++ toString slot ++ ") "
    | none => ""
  .ok (Doc.line (slot ++ "var<" ++ info.space.text ++ "> " ++ b.name.value ++ ": " ++ ty ++ ";"))

def resultText (env : Env) : Option GpuResult → Result String
  | none => .ok ""
  | some r => do
    let attrs ← attributes env .result r.decorators
    let ty ← typeName env r.ty
    .ok (" -> " ++ attrs ++ ty)

def functionDecl (env : Env) (f : GpuFunction) : Result Doc := do
  let stage ← attributes env .function f.decorators
  let params ← f.params.mapM (member env .parameter)
  let result ← resultText env f.result
  let body ← block env f.body
  let head := "fn " ++ f.name.value ++ "(" ++ ", ".intercalate params ++ ")" ++ result ++ " \x7b"
  .ok ((if stage.isEmpty then [] else Doc.line (Text.trimEnd stage)) ++ Doc.block head body "\x7d")

def document (env : Env) (u : SourceUnit) : Result Doc := do
  let structs ← u.gpuStructs.mapM (structDecl env)
  let bindings ← u.gpuBindings.mapM (bindingDecl env)
  let functions ← u.gpuFunctions.mapM (functionDecl env)
  .ok (structs.flatMap (· ++ Doc.blank) ++ bindings.flatten ++ (if bindings.isEmpty then [] else Doc.blank) ++
    Doc.blank.intercalate functions)

def environment (u : SourceUnit) (layouts : LayoutTable) : Env :=
  ⟨u.gpuStructs, layouts, u.gpuFunctions.map (·.name.value)⟩

def generate (u : SourceUnit) (layouts : LayoutTable) : Result String := do
  let doc ← document (environment u layouts) u
  .ok (doc.render "    ")

end ViewLang.Gpu.Wgsl
