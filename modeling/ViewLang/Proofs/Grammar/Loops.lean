import ViewLang.Proofs.Grammar.Statements

namespace ViewLang.Grammar

open Reader
open Canonical (NameStyle plain sym word)

section

variable {r r' : Rules} {m : Nat} {c : Bool} (again : Rereads r r' m) (style : NameStyle) {rest : Tokens}

def LoopYields (r : Rules) : LoopHeader → Prop
  | .infinite => True
  | .cond e => Yields (exprWith r false) e
  | .classic init cond post =>
    (∀ s ∈ init, SimpleYields r false s) ∧ (∀ e ∈ cond, Yields (exprWith r false) e) ∧
      ∀ s ∈ post, SimpleYields r false s
  | .range key value iterable => (key = none → value = none) ∧ Yields (exprWith r false) iterable

theorem classicRest_eq (r : Rules) (init : Option SimpleStmt) : classicRest r init = (do
    let cond ← unlessAt (.symbol .semicolon) (exprWith r false)
    let _ ← expect (.symbol .semicolon) "`;` after loop condition"
    let post ← unlessAt (.symbol .leftBrace) (simpleStmt r false)
    pure (.classic init cond post)) := by
  simp only [classicRest, unlessAt, ite_bind, bind_assoc]

theorem forHeader_eq (r : Rules) : forHeader r = (do
    if ← at? (.symbol .leftBrace) then pure .infinite
    else match ← rangeClause? r with
      | some (key, value, iterable) => pure (.range key value iterable)
      | none =>
        let init ← unlessAt (.symbol .semicolon) (simpleStmt r false)
        match ← eat? (.symbol .semicolon), init with
        | some _, _ => classicRest r init
        | none, some stmt => .cond <$> asCondition stmt
        | none, none => fail "loop condition") := by
  simp only [unlessAt, bind_assoc, ← ite_bind]
  rfl

theorem rangeVars?_ok {key value : Option Name} {ts : Tokens} (h : rangeVars? ts = .ok (some (key, value), rest)) :
    key ≠ none := by
  unfold rangeVars? at h
  split at h
  · split at h
    · split at h
      · cases h
        nofun
      · cases h
        nofun
      · cases h
    · cases h
  · cases h

theorem rangeClause?_yields {key value : Option Name} {e : Expr}
    (h : Yields (rangeClause? r) (some (key, value, e))) : LoopYields r (.range key value e) := by
  obtain ⟨ts, rest, h⟩ := h
  obtain ⟨range, mid, -, h⟩ := bind_ok.mp h
  cases range with
  | some _ =>
    obtain ⟨iterable, mid₁, read, h⟩ := bind_ok.mp h
    obtain ⟨same, rfl⟩ := pure_ok.mp h
    cases same
    exact ⟨fun _ => rfl, _, _, within_ok.mp read⟩
  | none =>
    obtain ⟨vars, mid₁, found, h⟩ := bind_ok.mp h
    cases vars with
    | none => cases h
    | some vars =>
      obtain ⟨iterable, mid₂, read, h⟩ := bind_ok.mp h
      obtain ⟨same, rfl⟩ := pure_ok.mp h
      cases same
      exact ⟨fun none => absurd none (rangeVars?_ok found), _, _, within_ok.mp read⟩

theorem forHeader_yields {header : LoopHeader} (h : Yields (forHeader r) header) : LoopYields r header := by
  obtain ⟨ts, rest, h⟩ := h
  rw [forHeader_eq] at h
  obtain ⟨opens, mid, -, h⟩ := bind_ok.mp h
  split at h
  · obtain ⟨rfl, rfl⟩ := pure_ok.mp h
    trivial
  · obtain ⟨range, mid₁, clause, h⟩ := bind_ok.mp h
    cases range with
    | some range =>
      obtain ⟨rfl, rfl⟩ := pure_ok.mp h
      exact rangeClause?_yields ⟨_, _, clause⟩
    | none =>
      obtain ⟨init, mid₂, readInit, h⟩ := bind_ok.mp h
      have initYields : ∀ s ∈ init, SimpleYields r false s := fun s member =>
        simpleStmt_yields (unlessAt_yields readInit s member)
      obtain ⟨semicolon, mid₃, -, h⟩ := bind_ok.mp h
      cases semicolon with
      | some _ =>
        rw [classicRest_eq] at h
        obtain ⟨cond, mid₄, readCond, h⟩ := bind_ok.mp h
        obtain ⟨_, mid₅, -, h⟩ := bind_ok.mp h
        obtain ⟨post, mid₆, readPost, h⟩ := bind_ok.mp h
        obtain ⟨rfl, rfl⟩ := pure_ok.mp h
        refine ⟨initYields, unlessAt_yields readCond, fun s member => ?_⟩
        exact simpleStmt_yields (unlessAt_yields readPost s member)
      | none =>
        cases init with
        | none => cases fail_ok.mp h
        | some s =>
          obtain ⟨e, read, rfl⟩ := map_ok.mp h
          obtain ⟨span, rfl⟩ := asCondition_ok read
          exact (initYields _ rfl).1.2 _ List.mem_cons_self

theorem forStmt_yields {s : Stmt} (h : Yields (forStmt r) s) :
    ∃ header body span, s = .loop header body span ∧ LoopYields r header ∧ Yields r.block body := by
  obtain ⟨ts, rest, h⟩ := h
  obtain ⟨start, mid, -, h⟩ := bind_ok.mp h
  obtain ⟨header, mid₁, readHeader, h⟩ := bind_ok.mp h
  obtain ⟨body, mid₂, readBody, h⟩ := bind_ok.mp h
  obtain ⟨rfl, rfl⟩ := pure_ok.mp h
  exact ⟨header, body, _, rfl, forHeader_yields ⟨_, _, readHeader⟩, _, _, readBody⟩

end

section

variable {r r' : Rules} {m : Nat} {c : Bool} (again : Rereads r r' m) (style : NameStyle) {rest : Tokens}

theorem endsExpr_of_moreIdents {ts us : Tokens} {names : List Name} (listed : moreIdents ts = (names, us))
    (ended : endsExprs c (front us) = true) : endsExpr c (front ts) = true := by
  unfold moreIdents at listed
  split at listed
  · rfl
  · cases listed
    exact endsExpr_of_endsExprs ended

include again

/-- Names with commas between them are read as expressions, up to the same token. -/
theorem Rereads.moreNames {ts us mid : Tokens} {names : List Name} {more : List Expr} {n : Nat} (rounds : ts.length < n)
    (listed : moreIdents ts = (names, us)) (ended : endsExprs c (front us) = true)
    (h : whileSomeUpTo (commaExpr? r' c) n ts = .ok (more, mid)) : mid = us := by
  induction n generalizing ts names more with
  | zero => omega
  | succ n ih =>
    obtain ⟨found, mid', read, onward⟩ := bind_ok.mp h
    unfold moreIdents at listed
    split at listed
    · rename_i s n' s' ts'
      rw [Prod.mk.injEq] at listed
      replace listed : moreIdents ts' = ((moreIdents ts').1, us) := by rw [← listed.2]
      rw [commaExpr?, bind_of_ok (eat?_cons_self _ _)] at read
      obtain ⟨e, readExpr, rfl⟩ := map_ok.mp read
      have same := again.name_alone (within_ok.mp readExpr) (endsExpr_of_moreIdents listed ended)
      subst same
      obtain ⟨others, mid'', readOthers, last⟩ := bind_ok.mp onward
      obtain ⟨-, rfl⟩ := pure_ok.mp last
      simp only [List.length_cons] at rounds
      exact ih (by omega) listed readOthers
    · cases listed
      rw [commaExpr?_stops (ne_comma_of_endsExprs ended)] at read
      cases read
      exact (pure_ok.mp onward).2.symm

theorem Rereads.rangeVars?_none {s : SimpleStmt} {ts : Tokens} (h : simpleStmt r' c ts = .ok (s, rest)) :
    rangeVars? ts = .ok (none, ts) := by
  obtain ⟨targets, mid, read, -⟩ := bind_ok.mp h
  unfold rangeVars?
  split
  · rename_i names mark s₁ s₂ us listed
    split
    · rename_i isMark
      -- The names would be read as targets, and what they are assigned would start with `range`.
      exfalso
      obtain ⟨⟨n, s₃⟩, ts', named, same⟩ := bind_ok.mp listed
      rw [ident_ok] at named
      subst named
      rw [Except.ok.injEq, Prod.mk.injEq] at same
      have ended : endsExprs c (some mark) = true := by
        rcases isMark with rfl | rfl <;> rfl
      obtain ⟨op, isOp, notPostfix⟩ : ∃ op, assignOp? mark = some op ∧ op.isPostfix = false := by
        rcases isMark with rfl | rfl
        · exact ⟨_, rfl, rfl⟩
        · exact ⟨_, rfl, rfl⟩
      have names : moreIdents ts' = ((moreIdents ts').1, ⟨mark, s₁⟩ :: ⟨.keyword .range, s₂⟩ :: us) := by
        rw [← same.2]
      obtain ⟨e, more, mid', -, first, others⟩ := exprListWith_ok read
      rw [again.name_alone first (endsExpr_of_moreIdents names ended)] at others
      rw [again.moreNames (Nat.lt_succ_self _) names ended others] at read
      rw [simpleStmt_assign read isOp, assignRest, notPostfix, if_neg Bool.false_ne_true] at h
      obtain ⟨values, mid'', readValues, -⟩ := bind_ok.mp h
      have starts := again.exprs_start (within_ok.mp readValues)
      cases starts
    · rfl
  · rfl

theorem Rereads.rangeClause?_none {s : SimpleStmt} {ts : Tokens} (h : simpleStmt r' c ts = .ok (s, rest)) :
    rangeClause? r' ts = .ok (none, ts) := by
  obtain ⟨targets, mid, read, -⟩ := bind_ok.mp h
  have noRange : eat? (.keyword .range) ts = .ok (none, ts) := by
    apply eat?_of_ne
    intro isRange
    have starts := again.exprs_start read
    rw [isRange] at starts
    cases starts
  simp [rangeClause?, noRange, again.rangeVars?_none h]

theorem Rereads.simple_opens {s : SimpleStmt} (h : SimpleYields r c s) (short : (Canonical.simple style s).length < m) :
    ∃ t, front (Canonical.simple style s) = some t ∧ startsExpr (some t) = true := by
  have read := again.simple style h short [] rfl
  obtain ⟨targets, mid, first, -⟩ := bind_ok.mp read
  have starts := again.exprs_start first
  rw [List.append_nil] at starts
  exact exists_of_allowed starts rfl

theorem Rereads.clause {o : Option SimpleStmt} (each : ∀ s ∈ o, SimpleYields r c s)
    (short : (Canonical.clause style o).length < m) {t : Token} (stops : startsExpr (some t) = false)
    (ended : endsSimple c (some t) = true) (rest : Tokens) :
    unlessAt t (simpleStmt r' c) (Canonical.clause style o ++ plain t :: rest) =
      .ok (Bare.clause o, plain t :: rest) := by
  have shortEach : ∀ s ∈ o, (Canonical.simple style s).length < m := by
    rintro s member
    cases member
    exact short
  rw [Canonical.clause_eq, Bare.clause_eq_map]
  refine unlessAt_reads (fun s member => again.simple style (each s member) (shortEach s member)) ?_ ended rest
  intro s member
  obtain ⟨u, first, starts⟩ := again.simple_opens style (each s member) (shortEach s member)
  exact ⟨u, first, ne_of_allowed starts stops⟩

theorem Rereads.classic {init : Option SimpleStmt} {cond : Option Expr} {post : Option SimpleStmt}
    (h : LoopYields r (.classic init cond post))
    (short : (Canonical.loopHeader style (.classic init cond post)).length < m) (rest : Tokens) :
    forHeader r' (Canonical.loopHeader style (.classic init cond post) ++ sym .leftBrace :: rest) =
      .ok (Bare.loopHeader (.classic init cond post), sym .leftBrace :: rest) := by
  obtain ⟨initYields, condYields, postYields⟩ := h
  simp only [Canonical.loopHeader, List.length_append, List.length_cons] at short
  have readPost := again.clause style postYields (by omega) (t := .symbol .leftBrace) rfl rfl rest
  have readCond := again.optional style condYields (by omega) (t := .symbol .semicolon) rfl rfl
    (Canonical.clause style post ++ sym .leftBrace :: rest)
  have readInit := again.clause style initYields (by omega) (t := .symbol .semicolon) rfl rfl
    (Canonical.optional style cond ++ sym .semicolon :: (Canonical.clause style post ++ sym .leftBrace :: rest))
  have noRange : ∀ us, rangeClause? r' (Canonical.clause style init ++ sym .semicolon :: us) =
      .ok (none, Canonical.clause style init ++ sym .semicolon :: us) := by
    intro us
    cases init with
    | none => rfl
    | some s =>
      rw [Canonical.clause] at short
      exact again.rangeClause?_none (again.simple style (initYields s rfl) (by omega) _ rfl)
  have noBrace : ∀ us, front (Canonical.clause style init ++ sym .semicolon :: us) ≠ some (.symbol .leftBrace) := by
    intro us
    cases init with
    | none => simp [Canonical.clause]
    | some s =>
      rw [Canonical.clause] at short
      obtain ⟨t, first, starts⟩ := again.simple_opens style (initYields s rfl) (by omega)
      exact front_append_ne first (ne_of_allowed starts rfl) _
  simp [forHeader_eq, classicRest_eq, Canonical.loopHeader, Bare.loopHeader, noBrace, noRange, readInit, readCond,
    readPost]

theorem Rereads.range {key value : Option Name} {e : Expr} (h : LoopYields r (.range key value e))
    (short : (Canonical.loopHeader style (.range key value e)).length < m) (rest : Tokens) :
    forHeader r' (Canonical.loopHeader style (.range key value e) ++ sym .leftBrace :: rest) =
      .ok (Bare.loopHeader (.range key value e), sym .leftBrace :: rest) := by
  obtain ⟨keyFirst, iterable⟩ := h
  simp only [Canonical.loopHeader, List.length_append, List.length_cons] at short
  have read := again.expr style iterable (by omega) (sym .leftBrace :: rest) rfl
  have noRange : ∀ n us, eat? (.keyword .range) (Canonical.name n :: us) = .ok (none, Canonical.name n :: us) :=
    fun _ _ => rfl
  cases key with
  | none =>
    cases keyFirst rfl
    simp [forHeader_eq, rangeClause?, Canonical.loopHeader, Canonical.rangeVars, Bare.loopHeader, read]
  | some key =>
    cases value with
    | none =>
      have vars : ∀ us, rangeVars? (Canonical.name key :: sym .define :: word .range :: us) =
          .ok (some (some key.bare, none), us) := fun _ => rfl
      simp [forHeader_eq, rangeClause?, Canonical.loopHeader, Canonical.rangeVars, Bare.loopHeader, noRange, vars, read]
    | some value =>
      have vars : ∀ us, rangeVars? (Canonical.name key :: sym .comma :: Canonical.name value :: sym .define ::
          word .range :: us) = .ok (some (some key.bare, some value.bare), us) := fun _ => rfl
      simp [forHeader_eq, rangeClause?, Canonical.loopHeader, Canonical.rangeVars, Bare.loopHeader, noRange, vars, read]

theorem Rereads.forHeader {header : LoopHeader} (h : LoopYields r header)
    (short : (Canonical.loopHeader style header).length < m) (rest : Tokens) :
    forHeader r' (Canonical.loopHeader style header ++ sym .leftBrace :: rest) =
      .ok (Bare.loopHeader header, sym .leftBrace :: rest) := by
  cases header with
  | infinite => simp [forHeader_eq, Canonical.loopHeader, Bare.loopHeader]
  | cond e =>
    have read := again.condition style h short (sym .leftBrace :: rest) rfl
    obtain ⟨t, first, starts⟩ := again.expr_opens style h short
    have notBrace : t ≠ .symbol .leftBrace := ne_of_allowed starts rfl
    have init : unlessAt (.symbol .semicolon) (simpleStmt r' false) (Canonical.expr style e ++ sym .leftBrace :: rest) =
        .ok (some (.exprs [Bare.expr e] Span.none), sym .leftBrace :: rest) :=
      unlessAt_some (front_append_ne first (ne_of_allowed starts rfl) _) read
    have noSemicolon : eat? (.symbol .semicolon) (sym .leftBrace :: rest) = .ok (none, sym .leftBrace :: rest) := rfl
    simp [forHeader_eq, Canonical.loopHeader, Bare.loopHeader, front_append first, notBrace,
      again.rangeClause?_none read, init, noSemicolon, asCondition]
  | classic init cond post => exact again.classic style h short rest
  | range key value e => exact again.range style h short rest

theorem Rereads.loop {header : LoopHeader} {body : Block} (h : LoopYields r header) (bodyRead : Yields r.block body)
    (s : Span) (short : (Canonical.stmt style (.loop header body s)).length < m) (rest : Tokens) :
    forStmt r' (Canonical.stmt style (.loop header body s) ++ rest) = .ok (Bare.stmt (.loop header body s), rest) := by
  simp only [Canonical.stmt, List.length_cons, List.length_append] at short
  have readBody := again.block bodyRead style (by omega) rest rfl
  obtain ⟨us, same⟩ := block_cons style body
  have readHeader := again.forHeader style h (by omega) (us ++ rest)
  rw [same, List.cons_append] at readBody
  simp [forStmt, Canonical.stmt, Bare.stmt, same, readHeader, readBody]

end

end ViewLang.Grammar
