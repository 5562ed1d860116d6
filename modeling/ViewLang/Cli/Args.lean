namespace ViewLang.Cli

inductive Setting
  | outDir
  | config
  | package
  | logLevel
deriving Repr, DecidableEq

inductive Flag
  | allowErrors
  | dumpAst
deriving Repr, DecidableEq

inductive Switch
  | setting (s : Setting)
  | flag (f : Flag)
  | help
  | version
deriving Repr, DecidableEq

def longOptions : List (String × Switch) :=
  [("out-dir", .setting .outDir), ("config", .setting .config), ("package", .setting .package),
    ("log-level", .setting .logLevel), ("allow-errors", .flag .allowErrors), ("dump-ast", .flag .dumpAst),
    ("help", .help), ("version", .version)]

def shortOptions : List (Char × Switch) :=
  [('o', .setting .outDir), ('c', .setting .config), ('h', .help), ('V', .version)]

inductive UsageError
  | noInput
  | unknown
  | noValue
  | repeated
  | needlessValue
  | helpWanted
  | versionWanted
deriving Repr, DecidableEq

structure Args where
  input : String
  outDir : String
  config : Option String
  package : Option String
  logLevel : String
  allowErrors : Bool
  dumpAst : Bool
deriving Repr, DecidableEq

namespace Args

structure Reading where
  input : Option String
  settings : List (Setting × String)
  flags : List Flag
  pending : Option (Setting × Option String)
deriving Repr, DecidableEq

namespace Reading

def start : Reading := ⟨none, [], [], none⟩

def set (r : Reading) (s : Setting) (value : String) : Except UsageError Reading :=
  if (r.settings.lookup s).isSome then .error .repeated
  else .ok { r with settings := r.settings ++ [(s, value)] }

def settle (r : Reading) : Except UsageError Reading :=
  match r.pending with
  | none => .ok r
  | some (_, none) => .error .noValue
  | some (s, some value) => { r with pending := none }.set s value

def switch (r : Reading) (o : Switch) (attached : Option String) : Except UsageError Reading := do
  let r ← r.settle
  match o, attached with
  | .setting s, some value => r.set s value
  | .setting s, none => .ok { r with pending := some (s, none) }
  | .flag f, _ => if r.flags.contains f then .error .repeated else .ok { r with flags := r.flags ++ [f] }
  | .help, _ => .error .helpWanted
  | .version, _ => .error .versionWanted

def long (r : Reading) (text : List Char) : Except UsageError Reading :=
  let name := text.takeWhile (· != '=')
  let attached := match text.dropWhile (· != '=') with
    | [] => none
    | _ :: value => some (String.ofList value)
  match longOptions.lookup (String.ofList name), attached with
  | none, _ => .error .unknown
  | some (.setting s), attached => r.switch (.setting s) attached
  | some _, some _ => .error .needlessValue
  | some o, none => r.switch o none

/-- The letters of an argument after one dash. What stands after an option that takes a value is that value. -/
def short (r : Reading) : List Char → Except UsageError Reading
  | [] => .ok r
  | c :: cs =>
    match shortOptions.lookup c, cs with
    | none, _ => .error .unknown
    | some (.setting s), [] => r.switch (.setting s) none
    | some (.setting s), '=' :: value => r.switch (.setting s) (some (String.ofList value))
    | some (.setting s), value => r.switch (.setting s) (some (String.ofList value))
    | some o, cs => do
      let r ← r.switch o none
      r.short cs

def positional (r : Reading) (text : String) : Except UsageError Reading :=
  match r.input with
  | some _ => .error .unknown
  | none => do
    let r ← r.settle
    .ok { r with input := some text }

def plain (r : Reading) (text : String) : Except UsageError Reading :=
  match r.pending with
  | some (s, none) => .ok { r with pending := some (s, some text) }
  | _ => r.positional text

def positionals : Reading → List String → Except UsageError Reading
  | r, [] => .ok r
  | r, arg :: args => do
    let r ← r.positional arg
    positionals r args

def readAll : Reading → List String → Except UsageError Reading
  | r, [] => .ok r
  | r, arg :: args =>
    match arg.toList with
    | ['-', '-'] => positionals r args
    | '-' :: '-' :: text => do
      let r ← r.long text
      readAll r args
    | '-' :: c :: cs => do
      let r ← r.short (c :: cs)
      readAll r args
    | _ => do
      let r ← r.plain arg
      readAll r args

def finish (r : Reading) : Except UsageError Args := do
  let r ← r.settle
  match r.input with
  | none => .error .noInput
  | some input =>
    .ok {
      input
      outDir := (r.settings.lookup .outDir).getD "."
      config := r.settings.lookup .config
      package := r.settings.lookup .package
      logLevel := (r.settings.lookup .logLevel).getD "info"
      allowErrors := r.flags.contains .allowErrors
      dumpAst := r.flags.contains .dumpAst }

end Reading

def parse (args : List String) : Except UsageError Args := do
  let r ← Reading.start.readAll args
  r.finish

end Args
end ViewLang.Cli
