import ViewLang.Analysis
import ViewLang.Go.File
import ViewLang.Gpu.Host
import ViewLang.Gpu.Wgsl
import ViewLang.Grammar.Unit

namespace ViewLang

/-- What keeps a source from being compiled. Errors of scope are no reason: they are part of the output. -/
inductive CompileError
  | rejected (r : Rejection)
  | shader (e : Gpu.ShaderError)
  | overflow (o : Gpu.Overflow)
deriving Repr, DecidableEq

namespace CompileError

def ofLayoutFault : Gpu.LayoutFault → CompileError
  | .shader e => .shader e
  | .overflow o => .overflow o

def message : CompileError → String
  | rejected r => r.render
  | shader e => e.message
  | overflow o => o.message

end CompileError

structure ShaderOutput where
  wgsl : String
  host : Option String
deriving Repr, DecidableEq

structure Output where
  go : String
  shader : Option ShaderOutput
  diagnostics : List Diagnostic
deriving Repr, DecidableEq

def Output.hasErrors (o : Output) : Bool := o.diagnostics.any (·.isError)

def hostOutput (config : Config) (package : String) (u : SourceUnit) (layouts : Gpu.LayoutTable) :
    Except Gpu.ShaderError (Option String) :=
  if config.host then (Gpu.Host.generate u layouts package config.header).map some else .ok none

def shaderOutput (config : Config) (package : String) (u : SourceUnit) : Except CompileError (Option ShaderOutput) :=
  if u.hasGpu then do
    let layouts ← (Gpu.LayoutTable.build u.gpuStructs).mapError .ofLayoutFault
    let wgsl ← (Gpu.Wgsl.generate u layouts).mapError .shader
    let host ← (hostOutput config package u layouts).mapError .shader
    .ok (some ⟨wgsl, host⟩)
  else .ok none

/-- Everything generated from a parsed unit. A given package name replaces the one of the unit. -/
def SourceUnit.compile (config : Config) (package : Option String) (u : SourceUnit) : Except CompileError Output := do
  let package := package.getD u.package.value
  let shader ← shaderOutput config package u
  .ok ⟨Go.generate config package u, shader, analyze u⟩

def compile (config : Config) (file source : String) (package : Option String) : Except CompileError Output := do
  let u ← (parse file source).mapError .rejected
  u.compile config package

end ViewLang
