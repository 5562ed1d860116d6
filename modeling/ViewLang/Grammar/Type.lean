import ViewLang.Grammar.Basic
import ViewLang.Syntax.Type

namespace ViewLang.Grammar

open Reader

def startsType : Option Token → Bool
  | some (.ident _) => true
  | some (.symbol .star) => true
  | some (.symbol .leftBracket) => true
  | some (.symbol .arrow) => true
  | some (.keyword .chan) => true
  | some (.keyword .func) => true
  | _ => false

def wrapType (start : Span) (wrap : TypeExpr → TypeExpr) (inner : Located TypeExpr) : Located TypeExpr :=
  ⟨wrap inner.value, start.union inner.span⟩

def typeName : Reader Name := do
  let first ← ident
  match ← at? (.symbol .dot), ← second? with
  | true, some (.ident _) =>
    skip
    let member ← ident
    pure ⟨first.value ++ "." ++ member.value, first.span.union member.span⟩
  | _, _ => pure first

/-- A name with its type argument. `[` before `]` starts no argument. -/
def namedType (inner : Reader (Located TypeExpr)) : Reader (Located TypeExpr) := do
  let name ← typeName
  let opens ← at? (.symbol .leftBracket)
  let empty := (← second?) == some (.symbol .rightBracket)
  if opens && !empty then
    skip
    let arg ← within inner
    let close ← expect (.symbol .rightBracket) "`]` closing the type argument"
    pure ⟨.generic name.value arg.value, name.span.union close⟩
  else pure ⟨.named name.value, name.span⟩

def funcType (inner : Reader (Located TypeExpr)) (start : Span) : Reader (Located TypeExpr) := do
  let _ ← expect (.symbol .leftParen) "`(`"
  let (params, close) ← commaList (.symbol .rightParen) "`)`" inner
  let span := start.union close
  let params := params.map (·.value)
  let following ← peek?
  if following == some (.symbol .leftParen) then
    skip
    let (results, close) ← commaList (.symbol .rightParen) "`)`" inner
    pure ⟨.func params (results.map (·.value)), span.union close⟩
  else if startsType following then
    let result ← inner
    pure ⟨.func params [result.value], span.union result.span⟩
  else pure ⟨.func params [], span⟩

def typeStep (inner : Reader (Located TypeExpr)) : Reader (Located TypeExpr) := do
  match ← next? with
  | some ⟨.symbol .star, start⟩ =>
    skip
    wrapType start .pointer <$> within inner
  | some ⟨.symbol .leftBracket, start⟩ =>
    skip
    let _ ← expect (.symbol .rightBracket) "`]` of slice type"
    wrapType start .slice <$> within inner
  | some ⟨.keyword .chan, start⟩ =>
    skip
    wrapType start (.chan false) <$> within inner
  | some ⟨.symbol .arrow, start⟩ =>
    skip
    let _ ← expect (.keyword .chan) "`chan` after `<-`"
    wrapType start (.chan true) <$> within inner
  | some ⟨.keyword .func, start⟩ =>
    skip
    within (funcType inner start)
  | some ⟨.ident _, _⟩ => namedType inner
  | _ => fail "type"

def typeUpTo : Nat → Reader (Located TypeExpr)
  | 0 => fail "type"
  | n + 1 => fun ts => typeStep (typeUpTo n) ts

/-- A type. Each level of nesting takes a token, so the tokens left bound the depth. -/
def type : Reader (Located TypeExpr) := sized fun n => typeUpTo (n + 1)

end ViewLang.Grammar
