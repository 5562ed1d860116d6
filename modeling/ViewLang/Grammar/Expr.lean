import ViewLang.Grammar.Param

namespace ViewLang.Grammar

open Reader

/-- Readers of the constructs that nest. The flag of an operand tells whether `Name {` opens a composite literal. -/
structure Rules where
  primary : Bool → Reader Primary
  block : Reader Block
  ifStmt : Reader IfStmt

def startsExpr : Option Token → Bool
  | some (.ident _) => true
  | some (.int _) => true
  | some (.float _) => true
  | some (.string _) => true
  | some .templateStart => true
  | some (.keyword .func) => true
  | some (.keyword .make) => true
  | some (.symbol .leftParen) => true
  | some (.symbol .leftBracket) => true
  | some (.symbol .minus) => true
  | some (.symbol .plus) => true
  | some (.symbol .bang) => true
  | some (.symbol .amp) => true
  | some (.symbol .star) => true
  | some (.symbol .caret) => true
  | some (.symbol .arrow) => true
  | _ => false

def binaryOp? : Token → Option BinaryOp
  | .symbol .plus => some .add
  | .symbol .minus => some .sub
  | .symbol .star => some .mul
  | .symbol .slash => some .div
  | .symbol .percent => some .rem
  | .symbol .eqEq => some .eq
  | .symbol .notEq => some .ne
  | .symbol .lt => some .lt
  | .symbol .ltEq => some .le
  | .symbol .gt => some .gt
  | .symbol .gtEq => some .ge
  | .symbol .andAnd => some .and
  | .symbol .orOr => some .or
  | .symbol .amp => some .bitAnd
  | .symbol .pipe => some .bitOr
  | .symbol .caret => some .bitXor
  | .symbol .shl => some .shl
  | .symbol .shr => some .shr
  | .symbol .andNot => some .andNot
  | _ => none

def unaryOp? : Token → Option UnaryOp
  | .symbol .minus => some .neg
  | .symbol .plus => some .plus
  | .symbol .bang => some .not
  | .symbol .amp => some .ref
  | .symbol .star => some .deref
  | .symbol .caret => some .bitNot
  | _ => none

def link? (r : Rules) (composite : Bool) : Reader (Option Link) := do
  match ← next? with
  | none => pure none
  | some t =>
    match binaryOp? t.value with
    | none => pure none
    | some op =>
      skip
      let operand ← within (r.primary composite)
      pure (some ⟨⟨op, t.span⟩, operand⟩)

def exprWith (r : Rules) (composite : Bool) : Reader Expr := do
  let head ← r.primary composite
  let tail ← whileSome (link? r composite)
  pure ⟨head, tail, tail.foldl (fun span link => span.union link.operand.span) head.span⟩

def exprListWith (r : Rules) (composite : Bool) : Reader (List Expr) := do
  let first ← exprWith r composite
  let more ← whileSome do
    match ← eat? (.symbol .comma) with
    | none => pure none
    | some _ => some <$> within (exprWith r composite)
  pure (first :: more)

def callArgs (r : Rules) : Reader (List Expr × Span) :=
  commaList (.symbol .rightParen) "`,` or `)`" (exprWith r true)

def indexRest (r : Rules) (target : Primary) : Reader Primary := do
  let low ← if ← at? (.symbol .colon) then pure none else some <$> exprWith r true
  match ← eat? (.symbol .colon) with
  | some _ =>
    let high ← if ← at? (.symbol .rightBracket) then pure none else some <$> exprWith r true
    let close ← expect (.symbol .rightBracket) "`]`"
    pure (.slice target low high (target.span.union close))
  | none =>
    match low with
    | none => fail "index"
    | some index =>
      let close ← expect (.symbol .rightBracket) "`]`"
      pure (.index target index (target.span.union close))

def entry (r : Rules) : Reader Entry := do
  match ← peek?, ← second? with
  | some (.ident _), some (.symbol .colon) =>
    let key ← ident
    skip
    let value ← exprWith r true
    pure ⟨some key, value⟩
  | _, _ =>
    let value ← exprWith r true
    pure ⟨none, value⟩

def compositeBody (r : Rules) (ty : Located TypeExpr) : Reader Primary := do
  let _ ← expect (.symbol .leftBrace) "`\x7b` of composite literal"
  let (entries, close) ← commaList (.symbol .rightBrace) "`,` or `\x7d`" (entry r)
  pure (.composite ty entries (ty.span.union close))

def compositeType? : Primary → Option (Located TypeExpr)
  | .select base path span =>
    if path.length ≤ 1 then (base.qualified? path).map fun name => ⟨.named name, span⟩ else none
  | _ => none

def selectField (operand : Primary) (field : Name) : Primary :=
  let span := operand.span.union field.span
  match operand with
  | .select base path _ => .select base (path ++ [field]) span
  | other => .select (.operand other) [field] span

def callOperand (operand : Primary) (args : List Expr) (close : Span) : Primary :=
  let span := operand.span.union close
  match operand with
  | .select base path _ => .call base path args span
  | other => .call (.operand other) [] args span

def suffix? (r : Rules) (composite : Bool) (operand : Primary) : Reader (Option Primary) := do
  match ← peek? with
  | some (.symbol .dot) =>
    skip
    let field ← within ident
    pure (some (selectField operand field))
  | some (.symbol .leftParen) =>
    skip
    let (args, close) ← within (callArgs r)
    pure (some (callOperand operand args close))
  | some (.symbol .leftBracket) =>
    skip
    some <$> within (indexRest r operand)
  | some (.symbol .leftBrace) =>
    match composite, compositeType? operand with
    | true, some ty => some <$> within (compositeBody r ty)
    | _, _ => pure none
  | _ => pure none

def suffixesUpTo (r : Rules) (composite : Bool) : Nat → Primary → Reader Primary
  | 0, operand => pure operand
  | n + 1, operand => do
    match ← suffix? r composite operand with
    | none => pure operand
    | some longer => suffixesUpTo r composite n longer

def suffixes (r : Rules) (composite : Bool) (operand : Primary) : Reader Primary :=
  sized fun n => suffixesUpTo r composite (n + 1) operand

def makeArg? (r : Rules) : Reader (Option Expr) := do
  match ← eat? (.symbol .comma) with
  | none => pure none
  | some _ =>
    if ← at? (.symbol .rightParen) then pure none
    else some <$> exprWith r true

def makeExpr (r : Rules) : Reader Primary := do
  let start ← expect (.keyword .make) "`make`"
  within do
    let _ ← expect (.symbol .leftParen) "`(`"
    let ty ← type
    let args ← whileSome (makeArg? r)
    let close ← expect (.symbol .rightParen) "`)`"
    pure (.make ty args (start.union close))

def funcLiteral (r : Rules) : Reader Primary := do
  let start ← expect (.keyword .func) "`func`"
  within do
    let params ← plainParams
    let results ← resultList
    let body ← r.block
    pure (.func params results body (start.union body.span))

def fragment (r : Rules) : Reader Fragment := do
  match ← peek? with
  | none => fail "closing backtick"
  | some (.templateText text) =>
    skip
    pure (.text text)
  | some .interpOpen =>
    skip
    let value ← exprWith r true
    let _ ← expect .interpClose "`\x7d` closing the interpolation"
    pure (.interp value)
  | some _ => fail "template text or interpolation"

def templateWith (r : Rules) : Reader Template := do
  let start ← expect .templateStart "template"
  within do
    let (fragments, close) ← items (pure ()) .templateEnd (fragment r)
    pure ⟨fragments, start.union close⟩

def operandWith (r : Rules) (first : Located Token) : Reader Primary :=
  match first.value with
  | .int text => do
    skip
    pure (.int ⟨text, first.span⟩)
  | .float text => do
    skip
    pure (.float ⟨text, first.span⟩)
  | .string text => do
    skip
    pure (.string ⟨text, first.span⟩)
  | .templateStart => .template <$> templateWith r
  | .keyword .func => funcLiteral r
  | .keyword .make => makeExpr r
  | .symbol .leftParen => do
    skip
    let inner ← within (exprWith r true)
    let _ ← expect (.symbol .rightParen) "`)`"
    pure (.paren inner)
  | .symbol .leftBracket => do
    let ty ← type
    within (compositeBody r ty)
  | .ident _ => .ident <$> ident
  | _ => fail "expression"

def primaryStep (r : Rules) (composite : Bool) : Reader Primary := do
  match ← next? with
  | none => fail "expression"
  | some first =>
    match unaryOp? first.value with
    | some op =>
      skip
      let operand ← within (r.primary composite)
      pure (.unary op operand (first.span.union operand.span))
    | none =>
      if first.value = .symbol .arrow then
        skip
        let channel ← within ident
        pure (.receive channel (first.span.union channel.span))
      else
        let operand ← operandWith r first
        suffixes r composite operand

end ViewLang.Grammar
