import ViewLang.Cli.Args
import ViewLang.Cli.FileTree
import ViewLang.ConfigFile
import ViewLang.Syntax.Outline

namespace ViewLang.Cli

structure Written where
  go : String
  wgsl : Option String
  host : Option String
deriving Repr, DecidableEq

def configPaths (platformDir : String) : List String :=
  ["weft/config.toml", Path.join platformDir "weft/config.toml"]

abbrev ReadFile := String → Except FileError String

def isThere (read : ReadFile) (path : String) : Bool :=
  match read path with
  | .ok _ => true
  | .error e => e.isUnreadable

def loadConfigFile (decode : ConfigFile.Decoder) (read : ReadFile) (path : String) : Except Failure Config :=
  if isThere read path then do
    let text ← (read path).mapError .file
    (ConfigFile.read decode text).mapError .config
  else .error (.config (.missing path))

def loadConfig (decode : ConfigFile.Decoder) (read : ReadFile) (platformDir : String) (named : Option String) :
    Except Failure Config :=
  match named <|> (configPaths platformDir).find? (isThere read) with
  | some path => loadConfigFile decode read path
  | none => .ok Config.default

def readInputs (decode : ConfigFile.Decoder) (read : ReadFile) (platformDir : String) (args : Args) :
    Except Failure (Config × String) := do
  let config ← loadConfig decode read platformDir args.config
  let source ← (read args.input).mapError .file
  .ok (config, source)

def printed (args : Args) (source : String) : String :=
  if args.dumpAst then
    match parse args.input source with
    | .ok u => u.outline
    | .error _ => ""
  else ""

def compileInput (args : Args) (config : Config) (source : String) : Except Failure Output := do
  let o ← (compile config args.input source args.package).mapError .compile
  if o.hasErrors && !args.allowErrors then .error (.semantic o.diagnostics) else .ok o

def outputStem (args : Args) : String :=
  match Path.fileName? args.input with
  | some name => Path.stem name
  | none => "out"

def outputPath (args : Args) (ending : String) : String := Path.join args.outDir (outputStem args ++ ending)

def goPath (args : Args) : String := outputPath args ".gen.go"

def wgslPath (args : Args) : String := outputPath args ".wgsl"

def hostPath (args : Args) : String := outputPath args "_gpu.gen.go"

def written (args : Args) (o : Output) : Written :=
  ⟨goPath args, o.shader.map fun _ => wgslPath args, o.shader >>= fun s => s.host.map fun _ => hostPath args⟩

def generatedFiles (args : Args) (o : Output) : List (String × String) :=
  (goPath args, o.go) ::
    match o.shader with
    | none => []
    | some s => (wgslPath args, s.wgsl) :: (s.host.map fun text => (hostPath args, text)).toList

def writeOutput (args : Args) (files : FileTree) (o : Output) : FileTree × Except FileError Written :=
  match files.makeDirectories args.outDir with
  | (files, .error e) => (files, .error e)
  | (files, .ok ()) =>
    match files.writeAll (generatedFiles args o) with
    | (files, .error e) => (files, .error e)
    | (files, .ok ()) => (files, .ok (written args o))

structure Outcome where
  files : FileTree
  printed : String
  result : Except Failure Written

def runWith (decode : ConfigFile.Decoder) (platformDir : String) (args : Args) (files : FileTree) : Outcome :=
  match readInputs decode files.read platformDir args with
  | .error e => ⟨files, "", .error e⟩
  | .ok (config, source) =>
    match compileInput args config source with
    | .error e => ⟨files, printed args source, .error e⟩
    | .ok o =>
      let (files, result) := writeOutput args files o
      ⟨files, printed args source, result.mapError .file⟩

def run : String → Args → FileTree → Outcome := runWith ConfigFile.toml

end ViewLang.Cli
