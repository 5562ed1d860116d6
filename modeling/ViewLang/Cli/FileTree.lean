import ViewLang.Cli.Path
import ViewLang.Failure

namespace ViewLang.Cli

inductive Entry
  | directory
  | file (content : ByteArray)

instance : DecidableEq Entry
  | .directory, .directory => .isTrue rfl
  | .directory, .file _ => .isFalse nofun
  | .file _, .directory => .isFalse nofun
  | .file a, .file b =>
    match ByteArray.instDecidableEq a b with
    | .isTrue same => .isTrue (congrArg Entry.file same)
    | .isFalse differ => .isFalse fun same => differ (Entry.file.inj same)

abbrev Place := List String

structure FileTree where
  entries : List (Place × Entry)

namespace FileTree

def empty : FileTree := ⟨[]⟩

def entry? (t : FileTree) (p : Place) : Option Entry := if p = [] then some .directory else t.entries.lookup p

def set (t : FileTree) (p : Place) (e : Entry) : FileTree :=
  if (t.entries.lookup p).isSome then ⟨t.entries.map fun (q, old) => if q = p then (q, e) else (q, old)⟩
  else ⟨t.entries ++ [(p, e)]⟩

def maxName : Nat := 255

def maxPath : Nat := 4095

/-- Where steps lead from a place. Each needs a directory to start from. -/
def walk (t : FileTree) : Place → List String → Except FileError Place
  | p, [] => .ok p
  | p, step :: steps =>
    if t.entry? p ≠ some .directory then .error .notDirectory
    else if step = "." then walk t p steps
    else if step = ".." then
      if p = [] then .error .missing else walk t p.dropLast steps
    else if step.utf8ByteSize > maxName then .error .nameTooLong
    else if (t.entry? (p ++ [step])).isNone then .error .missing
    else walk t (p ++ [step]) steps

def checkPath (path : String) : Except FileError Unit :=
  if path.contains '\x00' then .error .nulInName
  else if path.isEmpty then .error .missing
  else if path.utf8ByteSize > maxPath then .error .nameTooLong
  else if Path.isAbsolute path then .error .missing
  else .ok ()

def locate (t : FileTree) (path : String) : Except FileError Place := do
  checkPath path
  t.walk [] (Path.segments path ++ if Path.endsWithSlash path then ["."] else [])

def locateNew (t : FileTree) (steps : List String) : Except FileError (Place × String) := do
  let dir ← t.walk [] steps.dropLast
  if t.entry? dir ≠ some .directory then .error .notDirectory
  else
    match steps.getLast? with
    | none | some "." | some ".." => .error .exists_
    | some name => if name.utf8ByteSize > maxName then .error .nameTooLong else .ok (dir, name)

def read (t : FileTree) (path : String) : Except FileError String := do
  let p ← t.locate path
  match t.entry? p with
  | none => .error .missing
  | some .directory => .error .isDirectory
  | some (.file content) =>
    match String.fromUTF8? content with
    | some text => .ok text
    | none => .error .notText

def write (t : FileTree) (path text : String) : Except FileError FileTree := do
  checkPath path
  let (dir, name) ← t.locateNew (Path.segments path)
  match t.entry? (dir ++ [name]) with
  | some .directory => .error .isDirectory
  | _ => .ok (t.set (dir ++ [name]) (.file text.toUTF8))

def makeDirectory (t : FileTree) (steps : List String) : Except FileError FileTree := do
  let (dir, name) ← t.locateNew steps
  if (t.entry? (dir ++ [name])).isSome then .error .exists_
  else .ok (t.set (dir ++ [name]) .directory)

def isDirectory (t : FileTree) (steps : List String) : Bool :=
  match t.walk [] steps with
  | .ok p => t.entry? p == some .directory
  | .error _ => false

def ensure (t : FileTree) (steps : List String) : FileTree × Except FileError Unit :=
  match t.makeDirectory steps with
  | .ok t => (t, .ok ())
  | .error e => (t, if t.isDirectory steps then .ok () else .error e)

/-- Make the directory that steps lead to, and those around it, whose names are given innermost first. What was
made before a failure stays. -/
def makeAll (t : FileTree) (steps : List String) (around : List String) : FileTree × Except FileError Unit :=
  match t.makeDirectory steps with
  | .ok t => (t, .ok ())
  | .error .missing =>
    match around with
    | [] => t.ensure steps
    | name :: outer =>
      match t.makeAll (name :: outer).reverse outer with
      | (t, .ok ()) => t.ensure steps
      | failed => failed
  | .error e => (t, if t.isDirectory steps then .ok () else .error e)

/-- Make the directory that steps lead to. Dots do not count among the directories around it, so a dot at the end
asks for a directory that is not made first. -/
def makeSteps (t : FileTree) (steps : List String) : FileTree × Except FileError Unit :=
  t.makeAll steps (Path.around steps).reverse

/-- Make the directory of a path and those around it. The empty path is the working directory. -/
def makeDirectories (t : FileTree) (path : String) : FileTree × Except FileError Unit :=
  if path.isEmpty then (t, .ok ())
  else
    match checkPath path with
    | .error e => (t, .error e)
    | .ok () => t.makeSteps (Path.segments path)

/-- Write files one after the other. What was written before a failure stays. -/
def writeAll (t : FileTree) : List (String × String) → FileTree × Except FileError Unit
  | [] => (t, .ok ())
  | (path, text) :: rest =>
    match t.write path text with
    | .ok t => writeAll t rest
    | .error e => (t, .error e)

def ofFiles (files : List (String × ByteArray)) : FileTree :=
  files.foldl (fun t (path, content) =>
    let (t, _) := t.makeSteps (Path.segments path).dropLast
    t.set (Path.segments path) (.file content)) empty

def changedSince (t before : FileTree) : List (Place × Entry) :=
  t.entries.filter fun (p, e) => before.entry? p ≠ some e

end FileTree
end ViewLang.Cli
