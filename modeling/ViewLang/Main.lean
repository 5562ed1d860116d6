import ViewLang.Cli.Run

namespace ViewLang.Cli

def UsageError.message : UsageError → String
  | noInput => "error: the input file is missing"
  | unknown => "error: unexpected argument"
  | noValue => "error: an option lacks its value"
  | repeated => "error: an option is given twice"
  | needlessValue => "error: an option takes no value"
  | helpWanted =>
    "Usage: weft [-o DIR] [-c FILE] [--package NAME] [--log-level LEVEL] [--allow-errors] [--dump-ast] INPUT"
  | versionWanted => "weft 0.1.0"

def UsageError.exitCode : UsageError → UInt32
  | helpWanted | versionWanted => 0
  | _ => 2

def reportText (file source : String) : Report → String
  | .diagnostic d =>
    d.renderLocated file (LineIndex.ofText source) ++
      match d.help with
      | some help => "\n  help: " ++ help
      | none => ""
  | .bare _ message => "error: " ++ message

def fileError : IO.Error → FileError
  | .noFileOrDirectory .. => .missing
  | .alreadyExists .. => .exists_
  | .permissionDenied _ code details => .system details code.toNat
  | e => .system (toString e) 0

def readFile (path : String) : IO (Except FileError String) := do
  match ← (IO.FS.readBinFile path).toBaseIO with
  | .error e => return .error (fileError e)
  | .ok content =>
    match String.fromUTF8? content with
    | some text => return .ok text
    | none => return .error .notText

def platformDir : IO String := do
  match ← IO.getEnv "XDG_CONFIG_HOME" with
  | some dir => if Path.isAbsolute dir then return dir
  | none => pure ()
  return Path.join ((← IO.getEnv "HOME").getD "") ".config"

def ensureDirectory (path : String) : IO Unit := do
  match ← (IO.FS.createDir path).toBaseIO with
  | .ok () => pure ()
  | .error (.alreadyExists ..) => IO.FS.createDirAll path
  | .error e => throw e

def makeDirectories (path : String) : IO Unit := do
  match ← (ensureDirectory path).toBaseIO with
  | .ok () => pure ()
  | .error (.noFileOrDirectory ..) =>
    let parent := Path.parent path
    if !parent.isEmpty then IO.FS.createDirAll parent
    ensureDirectory path
  | .error e => throw e

def writeFiles (args : Args) (o : Output) : IO Unit := do
  if !args.outDir.isEmpty then makeDirectories args.outDir
  for (path, text) in generatedFiles args o do
    IO.FS.writeFile path text

def tell (args : Args) (source : String) (f : Failure) : IO UInt32 := do
  for r in f.reports do
    IO.eprintln (reportText args.input source r)
  return 1

def runOnDisk (args : Args) : IO UInt32 := do
  let dir ← platformDir
  let paths := args.input :: (args.config.map fun path => [path]).getD (configPaths dir)
  let texts ← paths.mapM fun path => return (path, ← readFile path)
  let read : ReadFile := fun path => (texts.lookup path).getD (.error .missing)
  match readInputs ConfigFile.toml read dir args with
  | .error e => tell args "" e
  | .ok (config, source) =>
    IO.print (printed args source)
    match compileInput args config source with
    | .error e => tell args source e
    | .ok o =>
      match ← (writeFiles args o).toBaseIO with
      | .ok () => return 0
      | .error e => tell args source (.file (fileError e))

end ViewLang.Cli

def main (args : List String) : IO UInt32 := do
  match ViewLang.Cli.Args.parse args with
  | .ok args => ViewLang.Cli.runOnDisk args
  | .error e =>
    if e.exitCode = 0 then IO.println e.message else IO.eprintln e.message
    return e.exitCode
