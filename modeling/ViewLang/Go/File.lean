import ViewLang.Go.Component
import ViewLang.Text.Blank

namespace ViewLang.Go

structure ImportLine where
  path : String
  line : String
deriving Repr, DecidableEq

namespace ImportLine

def plain (path : String) : ImportLine := ⟨path, quote path⟩

def lastSegment (path : String) : String := (path.splitOn "/").getLast?.getD path

def runtime (config : Config) : ImportLine :=
  ⟨config.runtimeImport,
    if lastSegment config.runtimeImport = config.runtimeAlias then quote config.runtimeImport
    else config.runtimeAlias ++ " " ++ quote config.runtimeImport⟩

def isExternal (i : ImportLine) : Bool := (i.path.toList.takeWhile (· != '/')).contains '.'

def le (a b : ImportLine) : Bool := a.path < b.path || (a.path == b.path && !(b.line < a.line))

def sorted (is : List ImportLine) : List ImportLine := (is.mergeSort le).eraseReps

end ImportLine

def imports (config : Config) (u : SourceUnit) (uses : Uses) : List ImportLine :=
  let own := u.imports.map (·.value)
  ((own.filter fun path => !(uses.runtime && path == config.runtimeImport)).map ImportLine.plain) ++
  (if uses.fmt && !own.contains "fmt" then [ImportLine.plain "fmt"] else []) ++
  (if uses.runtime then [ImportLine.runtime config] else [])

def importDoc (is : List ImportLine) : Doc :=
  let std := ImportLine.sorted (is.filter fun i => !i.isExternal)
  let external := ImportLine.sorted (is.filter (·.isExternal))
  match [std, external].filter (!·.isEmpty) with
  | [] => []
  | [[i]] => Doc.line ("import " ++ i.line) ++ Doc.blank
  | groups =>
    Doc.block "import (" (Doc.blank.intercalate (groups.map fun group => group.map fun i => .text 0 i.line)) ")" ++
      Doc.blank

def fieldRows (runtime : String) (fields : List Field) : List (String × String) × Bool :=
  let (texts, uses) := types runtime (fields.map (·.ty.value))
  ((fields.map (·.name.value)).zip texts, uses)

def typeDef (runtime : String) (d : TypeDef) : Emitted :=
  let (rows, uses) := fieldRows runtime d.fields
  ⟨structDoc d.name.value rows ++ Doc.blank, ⟨false, uses⟩⟩

def declarations (runtime : String) (u : SourceUnit) : Emitted :=
  Emitted.concat (u.types.map (typeDef runtime) ++ u.components.map (component runtime u))

def document (config : Config) (package : String) (u : SourceUnit) : Doc :=
  let body := declarations config.runtimeAlias u
  (if config.header.isEmpty then [] else Doc.line config.header ++ Doc.blank) ++
  Doc.line ("package " ++ package) ++
  Doc.blank ++
  importDoc (imports config u body.uses) ++
  body.doc

def generate (config : Config) (package : String) (u : SourceUnit) : String :=
  Text.trimEnd ((document config package u).render "\t") ++ "\n"

end ViewLang.Go
