import ViewLang.Grammar.Expr
import ViewLang.Vocabulary

namespace ViewLang.Grammar

open Reader

def lastSpan (span : Span) (es : List Expr) : Span := (es.getLast?.map (·.span)).getD span

def exprStmt (targets : List Expr) (start : Span) : SimpleStmt := .exprs targets (start.union (lastSpan start targets))

def assignOp? : Token → Option AssignOp
  | .symbol .define => some .define
  | .symbol .assign => some .assign
  | .symbol .plusAssign => some .add
  | .symbol .minusAssign => some .sub
  | .symbol .starAssign => some .mul
  | .symbol .slashAssign => some .div
  | .symbol .plusPlus => some .inc
  | .symbol .minusMinus => some .dec
  | _ => none

def assignRest (r : Rules) (composite : Bool) (targets : List Expr) (start : Span) (op : Located AssignOp) :
    Reader SimpleStmt := do
  if op.value.isPostfix then pure (.assign targets op [] (start.union op.span))
  else
    let values ← within (exprListWith r composite)
    pure (.assign targets op values (start.union (lastSpan op.span values)))

def simpleStmt (r : Rules) (composite : Bool) : Reader SimpleStmt := do
  let targets ← exprListWith r composite
  let start := (targets.head?.map (·.span)).getD Span.none
  match ← next? with
  | none => pure (exprStmt targets start)
  | some t =>
    match assignOp? t.value, targets with
    | some op, _ =>
      skip
      assignRest r composite targets start ⟨op, t.span⟩
    | none, [channel] =>
      if t.value = .symbol .arrow then
        skip
        let value ← within (exprWith r composite)
        pure (.send channel value (start.union value.span))
      else pure (exprStmt targets start)
    | none, _ => pure (exprStmt targets start)

def varDecl (r : Rules) : Reader VarDecl := do
  let start ← expect (.keyword .var) "`var`"
  within do
    let names ← identList
    let ty ← if startsType (← peek?) then some <$> type else pure none
    let values ← match ← eat? (.symbol .assign) with
      | some _ => exprListWith r true
      | none => pure []
    match values.getLast?, ty with
    | some value, _ => pure ⟨names, ty, values, start.union value.span⟩
    | none, some t => pure ⟨names, ty, values, start.union t.span⟩
    | none, none => fail "variable type or `=`"

def returnStmt (r : Rules) : Reader Stmt := do
  let start ← expect (.keyword .return_) "`return`"
  let values ← if startsExpr (← peek?) then within (exprListWith r true) else pure []
  pure (.ret values (start.union (lastSpan start values)))

def branchStmt : Reader Stmt := do
  match ← eat? (.keyword .break_) with
  | some span => pure (.branch .break_ span)
  | none =>
    let span ← expect (.keyword .continue_) "`break` or `continue`"
    pure (.branch .continue_ span)

def asCondition : SimpleStmt → Reader Expr
  | .exprs [e] _ => pure e
  | _ => fail "condition"

def ifHeader (r : Rules) : Reader (Option SimpleStmt × Expr) := do
  let first ← simpleStmt r false
  match ← eat? (.symbol .semicolon) with
  | some _ =>
    let cond ← exprWith r false
    pure (some first, cond)
  | none =>
    let cond ← asCondition first
    pure (none, cond)

def ifStep (r : Rules) : Reader IfStmt := do
  let start ← expect (.keyword .if_) "`if`"
  let (init, cond) ← ifHeader r
  let body ← r.block
  let span := start.union body.span
  match ← eat? (.keyword .else_) with
  | none => pure ⟨init, cond, body, .none, span⟩
  | some _ =>
    if ← at? (.keyword .if_) then
      let nested ← r.ifStmt
      pure ⟨init, cond, body, .chain nested, span.union nested.span⟩
    else
      let block ← r.block
      pure ⟨init, cond, body, .block block, span.union block.span⟩

def rangeVars? : Reader (Option (Option Name × Option Name)) := fun ts =>
  match identList ts with
  | .ok (names, ⟨mark, _⟩ :: ⟨.keyword .range, _⟩ :: rest) =>
    if mark = .symbol .define ∨ mark = .symbol .assign then
      match names with
      | [key] => .ok (some (some key, none), rest)
      | [key, value] => .ok (some (some key, some value), rest)
      | _ => .ok (none, ts)
    else .ok (none, ts)
  | _ => .ok (none, ts)

def rangeClause? (r : Rules) : Reader (Option (Option Name × Option Name × Expr)) := do
  match ← eat? (.keyword .range) with
  | some _ =>
    let iterable ← within (exprWith r false)
    pure (some (none, none, iterable))
  | none =>
    match ← rangeVars? with
    | none => pure none
    | some (key, value) =>
      let iterable ← within (exprWith r false)
      pure (some (key, value, iterable))

def classicRest (r : Rules) (init : Option SimpleStmt) : Reader LoopHeader := do
  let cond ← if ← at? (.symbol .semicolon) then pure none else some <$> exprWith r false
  let _ ← expect (.symbol .semicolon) "`;` after loop condition"
  let post ← if ← at? (.symbol .leftBrace) then pure none else some <$> simpleStmt r false
  pure (.classic init cond post)

def forHeader (r : Rules) : Reader LoopHeader := do
  if ← at? (.symbol .leftBrace) then pure .infinite
  else match ← rangeClause? r with
    | some (key, value, iterable) => pure (.range key value iterable)
    | none =>
      let init ← if ← at? (.symbol .semicolon) then pure none else some <$> simpleStmt r false
      match ← eat? (.symbol .semicolon), init with
      | some _, _ => classicRest r init
      | none, some stmt => .cond <$> asCondition stmt
      | none, none => fail "loop condition"

def forStmt (r : Rules) : Reader Stmt := do
  let start ← expect (.keyword .for_) "`for`"
  let header ← forHeader r
  let body ← r.block
  pure (.loop header body (start.union body.span))

def looksLikeNode (stmt : SimpleStmt) (following : Option Token) : Bool :=
  match stmt with
  | .exprs [e] _ => !e.isCall || following == some (.symbol .leftBrace)
  | .exprs _ _ => true
  | _ => false

def plainStmt (r : Rules) : Reader Stmt := fun ts =>
  match simpleStmt r true ts with
  | .error e => .error e
  | .ok (stmt, rest) =>
    if looksLikeNode stmt (rest.head?.map (·.value)) then fail "statement" ts else .ok (.simple stmt, rest)

def isReservedIdent : Option Token → Bool
  | some (.ident name) => Vocabulary.isReserved name
  | _ => false

/-- A statement. One that starts with a reserved name is refused, for it is a node. -/
def statementWith (r : Rules) : Reader Stmt := do
  let first ← peek?
  if isReservedIdent first then fail "statement"
  else match first with
    | some (.keyword .var) => .var <$> varDecl r
    | some (.keyword .return_) => returnStmt r
    | some (.keyword .break_) => branchStmt
    | some (.keyword .continue_) => branchStmt
    | some (.keyword .if_) => .cond <$> r.ifStmt
    | some (.keyword .for_) => forStmt r
    | _ => plainStmt r

def blockStep (r : Rules) : Reader Block := do
  let start ← expect (.symbol .leftBrace) "`\x7b`"
  let (stmts, close) ← items skipSemicolons (.symbol .rightBrace) (statementWith r)
  pure ⟨stmts, start.union close⟩

def rules : Nat → Rules
  | 0 => ⟨fun _ => fail "expression", fail "block", fail "`if`"⟩
  | n + 1 => ⟨fun c ts => primaryStep (rules n) c ts, fun ts => blockStep (rules n) ts, fun ts => ifStep (rules n) ts⟩

def nested {α : Type} (p : Rules → Reader α) : Reader α := sized fun n => p (rules (n + 1))

def expr (composite : Bool) : Reader Expr := nested fun r => exprWith r composite

def template : Reader Template := nested templateWith

def block : Reader Block := nested (·.block)

def statement : Reader Stmt := nested statementWith

end ViewLang.Grammar
