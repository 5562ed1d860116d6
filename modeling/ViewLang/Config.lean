namespace ViewLang

structure Config where
  runtimeImport : String
  runtimeAlias : String
  header : String
  host : Bool
deriving Repr, DecidableEq

def Config.default : Config :=
  ⟨"github.com/weft-lang/weft/runtime", "rt", "// Code generated by weft. DO NOT EDIT.", true⟩

end ViewLang
