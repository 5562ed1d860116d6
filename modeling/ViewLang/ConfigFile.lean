import ViewLang.Failure
import ViewLang.Text.Letter
import ViewLang.Toml.Document

namespace ViewLang.ConfigFile

inductive Group
  | named (t : Toml.Table)
  | listed (vs : List Toml.Value)

namespace Group

/-- The group under a key. A date there is a group without settings. -/
def of? : Option Toml.Value → Option Group
  | none => some (named [])
  | some (.table _ t) => some (named t)
  | some (.array vs) => some (listed vs)
  | some (.tables ts) => some (listed (ts.map (.table .header)))
  | some (.datetime _) => some (named [])
  | some _ => none

def get? (key : String) (place : Nat) : Group → Option Toml.Value
  | named t => t.lookup key
  | listed vs => vs[place]?

/-- A text setting, with its default; `none` if it is of another type. -/
def text? (g : Group) (key : String) (place : Nat) (default : String) : Option String :=
  match g.get? key place with
  | none => some default
  | some (.string s) => some s
  | some _ => none

def flag? (g : Group) (key : String) (place : Nat) (default : Bool) : Option Bool :=
  match g.get? key place with
  | none => some default
  | some (.boolean b) => some b
  | some _ => none

/-- What the group has under names besides its settings can be held. What stands after listed settings is not
looked at. -/
def othersFit (settings : List String) : Group → Bool
  | named t => Toml.Table.fits (t.filter fun (key, _) => !settings.contains key)
  | listed _ => true

end Group

def decode? (t : Toml.Table) : Option Config := do
  let codegen ← Group.of? (t.lookup "codegen")
  let shader ← Group.of? (t.lookup "shader")
  guard ((Group.named t).othersFit ["codegen", "shader"])
  guard (codegen.othersFit ["runtime_import", "runtime_alias", "header"])
  guard (shader.othersFit ["host"])
  let d := Config.default
  some {
    runtimeImport := ← codegen.text? "runtime_import" 0 d.runtimeImport
    runtimeAlias := ← codegen.text? "runtime_alias" 1 d.runtimeAlias
    header := ← codegen.text? "header" 2 d.header
    host := ← shader.flag? "host" 0 d.host }

def isIdentifier (s : String) : Bool :=
  match s.toList with
  | [] => false
  | c :: cs => (Text.isAlphabetic c || c == '_') && cs.all fun c => Text.isAlphanumeric c || c == '_'

def validate (c : Config) : Except ConfigError Config :=
  if !isIdentifier c.runtimeAlias then .error (.badAlias c.runtimeAlias)
  else if c.runtimeImport.isEmpty then .error .noImport
  else .ok c

abbrev Decoder := String → Option Config

def toml : Decoder := fun text => Toml.parse? text >>= decode?

def read (decode : Decoder) (text : String) : Except ConfigError Config :=
  match decode text with
  | none => .error .malformed
  | some c => validate c

end ViewLang.ConfigFile
