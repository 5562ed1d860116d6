import ViewLang.Proofs.Grammar.Loops

namespace ViewLang.Grammar

open Reader
open Canonical (NameStyle plain sym word commaSep)

section

variable {r r' : Rules} {m : Nat} (again : Rereads r r' m) (style : NameStyle) {rest : Tokens}

def StmtYields (r : Rules) : Stmt → Prop
  | .var d => VarYields r d
  | .simple s =>
    SimpleYields r true s ∧ looksLikeNode s (some (.symbol .semicolon)) = false ∧
      isReservedIdent (front (Canonical.simple .whole s)) = false
  | .ret values _ => values = [] ∨ ExprsYield r true values
  | .cond s => Yields r.ifStmt s
  | .loop header body _ => LoopYields r header ∧ Yields r.block body
  | .branch _ _ => True

theorem looksLikeNode_semicolon {s : SimpleStmt} {t : Option Token} (h : looksLikeNode s t = false) :
    looksLikeNode s (some (.symbol .semicolon)) = false := by
  unfold looksLikeNode at h ⊢
  split at h
  · rw [Bool.or_eq_false_iff] at h
    simp [h.1]
  · cases h
  · rfl

theorem branchStmt_yields {s : Stmt} (h : Yields branchStmt s) : ∃ kind span, s = .branch kind span := by
  obtain ⟨ts, rest, h⟩ := h
  obtain ⟨found, mid, -, h⟩ := bind_ok.mp h
  cases found with
  | some span =>
    obtain ⟨rfl, rfl⟩ := pure_ok.mp h
    exact ⟨_, _, rfl⟩
  | none =>
    obtain ⟨span, mid₁, -, h⟩ := bind_ok.mp h
    obtain ⟨rfl, rfl⟩ := pure_ok.mp h
    exact ⟨_, _, rfl⟩

theorem isCall_bare (e : Expr) : (Bare.expr e).isCall = e.isCall := by
  obtain ⟨head, tail, s⟩ := e
  cases tail with
  | cons l ls =>
    cases l
    rfl
  | nil => cases head <;> rfl

theorem looksLikeNode_bare (s : SimpleStmt) (t : Option Token) :
    looksLikeNode (Bare.simple s) t = looksLikeNode s t := by
  cases s with
  | exprs targets span =>
    rcases targets with _ | ⟨e, _ | ⟨e', es⟩⟩
    · rfl
    · simp [Bare.simple, Bare.exprs, looksLikeNode, isCall_bare]
    · rfl
  | assign targets op values span => rfl
  | send channel value span => rfl

theorem simple_front (s : SimpleStmt) :
    ∃ us, Canonical.simple style s = commaSep (Canonical.exprs style (simpleTargets s)) ++ us := by
  cases s with
  | exprs targets span => exact ⟨[], by simp [Canonical.simple, simpleTargets]⟩
  | assign targets op values span => exact ⟨_, by rw [Canonical.simple, simpleTargets]⟩
  | send channel value span => exact ⟨_, by rw [Canonical.simple, simpleTargets]; simp [Canonical.exprs_eq_map]; rfl⟩

theorem plainStmt_ok {s : Stmt} {ts : Tokens} (h : plainStmt r ts = .ok (s, rest)) :
    ∃ simple, simpleStmt r true ts = .ok (simple, rest) ∧ looksLikeNode simple (front rest) = false ∧
      s = .simple simple := by
  unfold plainStmt at h
  cases read : simpleStmt r true ts with
  | error e =>
    rw [read] at h
    cases h
  | ok x =>
    obtain ⟨simple, rest'⟩ := x
    rw [read] at h
    dsimp only at h
    split at h
    · cases fail_ok.mp h
    · rename_i notNode
      rw [Bool.not_eq_true] at notNode
      cases h
      exact ⟨simple, rfl, notNode, rfl⟩

theorem plainStmt_of_ok {s : SimpleStmt} {ts : Tokens} (read : simpleStmt r true ts = .ok (s, rest))
    (notNode : looksLikeNode s (front rest) = false) : plainStmt r ts = .ok (.simple s, rest) := by
  unfold plainStmt
  rw [read]
  exact if_neg (by rw [Bool.not_eq_true]; exact notNode)

theorem statementWith_plain {ts : Tokens} (starts : startsExpr (front ts) = true)
    (free : isReservedIdent (front ts) = false) : statementWith r ts = plainStmt r ts := by
  unfold statementWith
  rw [bind_of_ok peek?_apply, free, if_neg Bool.false_ne_true]
  generalize front ts = first at starts
  split
  all_goals first | rfl | cases starts

theorem skipSemicolons_stays {us : Tokens} (starts : front us ≠ some (.symbol .semicolon)) :
    skipSemicolons us = .ok ((), us) := by
  cases us with
  | nil => rfl
  | cons t us =>
    have other : (t.value == .symbol .semicolon) = false := by simpa using starts
    rw [skipSemicolons, List.dropWhile_cons_of_neg (by rw [other]; exact Bool.false_ne_true)]

theorem skipSemicolons_passes {us : Tokens} (starts : front us ≠ some (.symbol .semicolon)) :
    skipSemicolons (sym .semicolon :: us) = .ok ((), us) := skipSemicolons_stays starts

include again

theorem Rereads.simple_unreserved {s : SimpleStmt} {c : Bool} {ts : Tokens} (h : simpleStmt r c ts = .ok (s, rest))
    (free : isReservedIdent (front ts) = false) : isReservedIdent (front (Canonical.simple .whole s)) = false := by
  obtain ⟨⟨mid, read⟩, -⟩ := simpleStmt_ok h
  obtain ⟨e, more, mid₁, targets, first, -⟩ := exprListWith_ok read
  obtain ⟨mid₂, head, -⟩ := exprWith_ok first
  obtain ⟨t, opens, unreserved⟩ := again.unreserved head free
  obtain ⟨us, tokens⟩ := simple_front .whole s
  have : front (Canonical.simple .whole s) = some t := by
    rw [tokens, targets, Canonical.exprs, commaSep, Canonical.expr_eq, List.append_assoc, List.append_assoc]
    exact front_append opens _
  rw [this]
  exact unreserved

theorem Rereads.statement_yields {s : Stmt} (h : Yields (statementWith r) s) : StmtYields r s := by
  obtain ⟨ts, rest, h⟩ := h
  obtain ⟨first, mid, peeked, h⟩ := bind_ok.mp h
  rw [peek?_apply, Except.ok.injEq, Prod.mk.injEq] at peeked
  obtain ⟨firstIs, rfl⟩ := peeked
  split at h
  · cases fail_ok.mp h
  · rename_i free
    split at h
    · obtain ⟨d, read, rfl⟩ := map_ok.mp h
      exact varDecl_yields ⟨_, _, read⟩
    · obtain ⟨values, span, rfl, yields⟩ := returnStmt_yields ⟨_, _, h⟩
      exact yields
    · obtain ⟨kind, span, rfl⟩ := branchStmt_yields ⟨_, _, h⟩
      trivial
    · obtain ⟨kind, span, rfl⟩ := branchStmt_yields ⟨_, _, h⟩
      trivial
    · obtain ⟨s, read, rfl⟩ := map_ok.mp h
      exact ⟨_, _, read⟩
    · obtain ⟨header, body, span, rfl, yields⟩ := forStmt_yields ⟨_, _, h⟩
      exact yields
    · obtain ⟨s, read, notNode, rfl⟩ := plainStmt_ok h
      refine ⟨simpleStmt_yields ⟨_, _, read⟩, looksLikeNode_semicolon notNode, again.simple_unreserved read ?_⟩
      rw [firstIs]
      simpa using free

theorem Rereads.plain {s : SimpleStmt} (h : StmtYields r (.simple s))
    (short : (Canonical.stmt style (.simple s)).length < m) :
    Reads (statementWith r') (Canonical.stmt style (.simple s)) (Bare.stmt (.simple s)) endsStmt := by
  obtain ⟨yields, notNode, free⟩ := h
  -- The style is chosen so that no reserved name comes first.
  obtain ⟨chosen, tokens, unreserved⟩ : ∃ chosen, Canonical.stmt style (.simple s) = Canonical.simple chosen s ∧
      isReservedIdent (front (Canonical.simple chosen s)) = false := by
    rw [Canonical.stmt]
    split
    · exact ⟨.whole, rfl, free⟩
    · rename_i unreserved
      exact ⟨style, rfl, by simpa using unreserved⟩
  intro rest ended
  rw [tokens] at short ⊢
  have read := again.simple chosen yields short rest (endsSimple_of_endsStmt ended true)
  obtain ⟨t, first, starts⟩ := again.simple_opens chosen yields short
  have opens := front_append first rest
  rw [first] at unreserved
  rw [statementWith_plain (by rw [opens]; exact starts) (by rw [opens]; exact unreserved)]
  have isEnd : front rest = some (.symbol .semicolon) := of_decide_eq_true ended
  exact plainStmt_of_ok read (by rw [isEnd, looksLikeNode_bare]; exact notNode)

theorem Rereads.statement {s : Stmt} (h : StmtYields r s) (short : (Canonical.stmt style s).length < m) :
    Reads (statementWith r') (Canonical.stmt style s) (Bare.stmt s) endsStmt := by
  intro rest ended
  cases s with
  | simple s => exact again.plain style h short rest ended
  | var d =>
    have read := again.varDecl style h short rest ended
    cases d
    exact map_of_ok Stmt.var read
  | ret values s => exact again.ret style h s short rest ended
  | cond s =>
    have endedIf : endsIf (front rest) = true := by
      rw [of_decide_eq_true ended]
      rfl
    have read := again.ifStmt h style short rest endedIf
    cases s
    exact map_of_ok Stmt.cond read
  | loop header body s => exact again.loop style h.1 h.2 s short rest
  | branch kind s => cases kind <;> rfl

/-- A statement starts with a keyword or as an expression may. -/
theorem Rereads.statement_starts {s : Stmt} {ts : Tokens} (h : statementWith r' ts = .ok (s, rest)) :
    (∃ k, front ts = some (.keyword k)) ∨ startsExpr (front ts) = true := by
  obtain ⟨first, mid, peeked, h⟩ := bind_ok.mp h
  rw [peek?_apply, Except.ok.injEq, Prod.mk.injEq] at peeked
  obtain ⟨firstIs, rfl⟩ := peeked
  split at h
  · cases fail_ok.mp h
  · split at h
    case h_7 =>
      obtain ⟨simple, read, -⟩ := plainStmt_ok h
      obtain ⟨⟨mid, targets⟩, -⟩ := simpleStmt_ok read
      exact .inr (again.exprs_start targets)
    all_goals exact .inl ⟨_, firstIs⟩

theorem Rereads.statement_opens {s : Stmt} (h : StmtYields r s) (short : (Canonical.stmt style s).length < m) :
    ∃ t, front (Canonical.stmt style s) = some t ∧ t ≠ .symbol .semicolon ∧ t ≠ .symbol .rightBrace := by
  have starts := again.statement_starts (again.statement style h short [sym .semicolon] rfl)
  cases tokens : Canonical.stmt style s with
  | nil => simp [tokens, startsExpr] at starts
  | cons t us =>
    refine ⟨t.value, rfl, ?_⟩
    rw [tokens, List.cons_append, front_cons] at starts
    rcases starts with ⟨k, isKeyword⟩ | starts
    · rw [Option.some.inj isKeyword]
      exact ⟨by simp, by simp⟩
    · exact ⟨ne_of_allowed starts rfl, ne_of_allowed starts rfl⟩

theorem Rereads.blockStep {b : Block} (h : Yields (blockStep r) b) (short : (Canonical.block style b).length ≤ m) :
    Reads (blockStep r') (Canonical.block style b) (Bare.block b) fun _ => true := by
  obtain ⟨ts, rest, h⟩ := h
  obtain ⟨start, mid, -, h⟩ := bind_ok.mp h
  obtain ⟨⟨ss, close⟩, mid₁, listed, h⟩ := bind_ok.mp h
  obtain ⟨rfl, rfl⟩ := pure_ok.mp h
  have each : ∀ s ∈ ss, StmtYields r s := fun s member => again.statement_yields (itemsUpTo_yields listed s member)
  rw [Canonical.block, Canonical.stmts_eq_flatMap, List.length_cons, List.length_append] at short
  have shortEach : ∀ s ∈ ss, (Canonical.stmt style s).length < m := by
    intro s member
    have := length_le_flatMap_of_mem (fun s => Canonical.stmt style s ++ [sym .semicolon]) member
    rw [List.length_append] at this
    omega
  intro rest _
  have read : items skipSemicolons (.symbol .rightBrace) (statementWith r')
      (ss.flatMap (fun s => Canonical.stmt style s ++ [sym .semicolon]) ++ sym .rightBrace :: rest) =
        .ok ((ss.map Bare.stmt, Span.none), rest) := by
    refine items_reads (fun t => decide (t ≠ some (.symbol .semicolon)))
      (fun s member => again.statement style (each s member) (shortEach s member)) ?_ rfl ?_ ?_ ?_
    · intro s member
      obtain ⟨t, first, notSemicolon, notBrace⟩ := again.statement_opens style (each s member) (shortEach s member)
      exact ⟨t, first, by simpa using notSemicolon, notBrace⟩
    · exact fun _ _ => rfl
    · exact fun us starts => skipSemicolons_stays (of_decide_eq_true starts)
    · exact fun us starts => skipSemicolons_passes (of_decide_eq_true starts)
  simp [Grammar.blockStep, Canonical.block, Canonical.stmts_eq_flatMap, Bare.block, Bare.stmts_eq_map, read]

end

theorem rules_starts {m : Nat} {c : Bool} {ts rest : Tokens} {p : Primary}
    (h : (rules m).primary c ts = .ok (p, rest)) : startsExpr (front ts) = true := by
  cases m with
  | zero => cases fail_ok.mp h
  | succ m => exact primaryStep_starts h

theorem rules_name {m : Nat} {c : Bool} {n : String} {s : Span} {ts rest : Tokens} {p : Primary}
    (h : (rules m).primary c (⟨.ident n, s⟩ :: ts) = .ok (p, rest)) (ended : endsPrimary c (front ts) = true) :
    rest = ts := by
  cases m with
  | zero => cases fail_ok.mp h
  | succ m =>
    have alone := (primaryStep_name ended).symm.trans h
    cases alone
    rfl

/-- What is read at one depth is read again from its canonical tokens, if the depth exceeds their number. -/
theorem rules_reread (n m : Nat) : Rereads (rules n) (rules m) m := by
  induction n generalizing m with
  | zero =>
    refine ⟨?_, ?_, ?_, rules_starts, rules_name, ?_⟩
    · rintro c p ⟨ts, rest, h⟩
      cases fail_ok.mp h
    · rintro b ⟨ts, rest, h⟩
      cases fail_ok.mp h
    · rintro s ⟨ts, rest, h⟩
      cases fail_ok.mp h
    · intro c ts p rest h
      cases fail_ok.mp h
  | succ n ih =>
    cases m with
    | zero =>
      refine ⟨?_, ?_, ?_, rules_starts, rules_name, fun h => primaryStep_unreserved h⟩
      · exact fun _ _ short => absurd short (Nat.not_lt_zero _)
      · exact fun _ _ short => absurd short (Nat.not_lt_zero _)
      · exact fun _ _ short => absurd short (Nat.not_lt_zero _)
    | succ m =>
      -- What stands inside is written with fewer tokens, so that it is read at the depth below.
      refine ⟨?_, ?_, ?_, rules_starts, rules_name, fun h => primaryStep_unreserved h⟩
      · exact fun h style short => (ih m).primaryStep h (Nat.le_of_lt_succ short)
      · exact fun h style short => (ih m).blockStep style h (Nat.le_of_lt_succ short)
      · exact fun h style short => (ih m).ifStep style h (Nat.le_of_lt_succ short)

/-- A block that was read has canonical tokens that are read as the same block, all of them. -/
theorem block_reads_canonical {ts rest : Tokens} {b : Block} (h : block ts = .ok (b, rest)) :
    block (Canonical.block .parted b) = .ok (Bare.block b, []) := by
  have read := (rules_reread (ts.length + 1) ((Canonical.block .parted b).length + 1)).block ⟨ts, rest, h⟩ .parted
    (Nat.lt_succ_self _) [] rfl
  rw [List.append_nil] at read
  exact read

/-- `{ for k, v = range rows { less := func(a, b int) bool { return a < b } out = geo.P{x: less(k, v,)} } }`. The range
clause assigns, two parameters share a type, the result has no parentheses, a comma ends the arguments, and no `;`
stands anywhere. -/
def rangeOverRows : Tokens :=
  [sym .leftBrace, word .for_, plain (.ident "k"), sym .comma, plain (.ident "v"), sym .assign, word .range,
    plain (.ident "rows"), sym .leftBrace, plain (.ident "less"), sym .define, word .func, sym .leftParen,
    plain (.ident "a"), sym .comma, plain (.ident "b"), plain (.ident "int"), sym .rightParen, plain (.ident "bool"),
    sym .leftBrace, word .return_, plain (.ident "a"), sym .lt, plain (.ident "b"), sym .rightBrace,
    plain (.ident "out"), sym .assign, plain (.ident "geo"), sym .dot, plain (.ident "P"), sym .leftBrace,
    plain (.ident "x"), sym .colon, plain (.ident "less"), sym .leftParen, plain (.ident "k"), sym .comma,
    plain (.ident "v"), sym .comma, sym .rightParen, sym .rightBrace, sym .rightBrace, sym .rightBrace]

theorem block_reads_canonical_range :
    ∃ b, block rangeOverRows = .ok (b, []) ∧ rangeOverRows.length < (Canonical.block .parted b).length ∧
      block (Canonical.block .parted b) = .ok (Bare.block b, []) := by
  obtain ⟨b, read, longer⟩ : ∃ b, block rangeOverRows = .ok (b, []) ∧
      rangeOverRows.length < (Canonical.block .parted b).length := ⟨_, rfl, by decide +kernel⟩
  exact ⟨b, read, longer, block_reads_canonical read⟩

end ViewLang.Grammar
