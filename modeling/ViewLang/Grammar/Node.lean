import ViewLang.Grammar.Stmt

namespace ViewLang.Grammar

open Reader

def nodeBlock (inner : Reader Node) : Reader (List Node × Span) := do
  let start ← expect (.symbol .leftBrace) "`\x7b`"
  let (nodes, close) ← items skipSemicolons (.symbol .rightBrace) inner
  pure (nodes, start.union close)

def elementArgs (span : Span) : Reader (List Entry × Span) := do
  match ← eat? (.symbol .leftParen) with
  | none => pure ([], span)
  | some _ =>
    let (args, close) ← commaList (.symbol .rightParen) "`,` or `)`" (nested entry)
    pure (args, span.union close)

def element (inner : Reader Node) : Reader Element := do
  let tag ← ident
  let (args, span) ← elementArgs tag.span
  if ← at? (.symbol .leftBrace) then
    let (children, extent) ← nodeBlock inner
    pure ⟨tag, args, children, span.union extent⟩
  else pure ⟨tag, args, [], span⟩

def nodeIf (inner : Reader Node) : Reader NodeIf := do
  let start ← expect (.keyword .if_) "`if`"
  let cond ← expr false
  let (body, extent) ← nodeBlock inner
  let span := start.union extent
  match ← eat? (.keyword .else_) with
  | none => pure ⟨cond, body, [], span⟩
  | some _ =>
    if ← at? (.keyword .if_) then
      let chained ← inner
      pure ⟨cond, body, [chained], span.union chained.span⟩
    else
      let (otherwise, extent) ← nodeBlock inner
      pure ⟨cond, body, otherwise, span.union extent⟩

def nodeFor (inner : Reader Node) : Reader NodeFor := do
  let start ← expect (.keyword .for_) "`for`"
  match ← nested rangeClause? with
  | none => fail "`range` clause"
  | some (key, value, iterable) =>
    let (children, extent) ← nodeBlock inner
    pure ⟨key, value, iterable, children, start.union extent⟩

def nodeStep (inner : Reader Node) : Reader Node := do
  match ← peek? with
  | some (.string _) => .text <$> stringLiteral
  | some .templateStart => .template <$> template
  | some (.keyword .if_) => .cond <$> nodeIf inner
  | some (.keyword .for_) => .loop <$> nodeFor inner
  | some (.ident _) => .element <$> element inner
  | _ => fail "element, text or template"

def nodeUpTo : Nat → Reader Node
  | 0 => fail "element, text or template"
  | n + 1 => fun ts => nodeStep (nodeUpTo n) ts

def node : Reader Node := sized fun n => nodeUpTo (n + 1)

end ViewLang.Grammar
