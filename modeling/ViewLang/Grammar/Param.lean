import ViewLang.Grammar.Type
import ViewLang.Syntax.Unit

namespace ViewLang.Grammar

open Reader

structure ParamEntry where
  decorators : List Decorator
  name : Name
  ty : Option (Located TypeExpr × Bool)

structure DecoratedParam where
  decorators : List Decorator
  param : Param

def paramEntry (decorators : Reader (List Decorator)) : Reader ParamEntry := do
  let decorators ← decorators
  let name ← ident
  let ellipsis := (← eat? (.symbol .ellipsis)).isSome
  let following ← peek?
  if ellipsis || !(following == some (.symbol .comma) || following == some (.symbol .rightParen)) then
    let ty ← type
    pure ⟨decorators, name, some (ty, ellipsis)⟩
  else pure ⟨decorators, name, none⟩

/-- Give every name its type: its own, or that of the next entry that has one, without its `...`. The second
component is the type that an untyped name in front would take. -/
def shareTypes : List ParamEntry → Option (List DecoratedParam × Option (Located TypeExpr))
  | [] => some ([], none)
  | e :: es => do
    let (params, next) ← shareTypes es
    match e.ty, next with
    | some (ty, ellipsis), _ => some (⟨e.decorators, ⟨e.name, ty, ellipsis⟩⟩ :: params, some ty)
    | none, some ty => some (⟨e.decorators, ⟨e.name, ty, false⟩⟩ :: params, some ty)
    | none, none => none

def misplacedVariadic? (params : List DecoratedParam) : Option DecoratedParam :=
  params.dropLast.find? (·.param.variadic)

def paramList (decorators : Reader (List Decorator)) : Reader (List DecoratedParam) := do
  let _ ← expect (.symbol .leftParen) "`(`"
  let (entries, _) ← commaList (.symbol .rightParen) "`,` or `)`" (paramEntry decorators)
  match shareTypes entries with
  | none => fail "parameter type"
  | some (params, _) =>
    match misplacedVariadic? params with
    | none => pure params
    | some p => fun ts => .error ⟨.variadicNotLast p.param.name.span, ts.length, []⟩

def plainParams : Reader (List Param) := do
  let params ← paramList (pure [])
  pure (params.map (·.param))

def resultList : Reader (List (Located TypeExpr)) := do
  match ← eat? (.symbol .leftParen) with
  | some _ =>
    let (results, _) ← commaList (.symbol .rightParen) "`,` or `)`" type
    pure results
  | none =>
    if startsType (← peek?) then
      let result ← type
      pure [result]
    else pure []

end ViewLang.Grammar
