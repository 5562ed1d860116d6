import ViewLang.Proofs.Grammar.Operands

namespace ViewLang.Grammar

open Reader
open Canonical (NameStyle plain sym word name commaEach commaSep)

def endsSimple (composite : Bool) (t : Option Token) : Bool :=
  endsExprs composite t && (t.bind assignOp?).isNone && decide (t ≠ some (.symbol .arrow))

def endsStmt (t : Option Token) : Bool := decide (t = some (.symbol .semicolon))

theorem endsSimple_of_endsStmt {t : Option Token} (ended : endsStmt t = true) (c : Bool) : endsSimple c t = true := by
  rw [of_decide_eq_true ended]
  rfl

@[simp] theorem assignOp?_symbol (op : AssignOp) : assignOp? (.symbol op.symbol) = some op := by
  cases op <;> rfl

theorem endsExprs_symbol (c : Bool) (op : AssignOp) : endsExprs c (some (.symbol op.symbol)) = true := by
  cases op <;> rfl

section

variable {r r' : Rules} {m : Nat} {c : Bool} (again : Rereads r r' m) (style : NameStyle) {rest : Tokens}

def simpleTargets : SimpleStmt → List Expr
  | .exprs targets _ => targets
  | .assign targets _ _ _ => targets
  | .send channel _ _ => [channel]

def ValuesYield (r : Rules) (c : Bool) : SimpleStmt → Prop
  | .exprs _ _ => True
  | .assign _ op values _ => if op.value.isPostfix then values = [] else ExprsYield r c values
  | .send _ value _ => Yields (exprWith r c) value

def SimpleYields (r : Rules) (c : Bool) (s : SimpleStmt) : Prop :=
  ExprsYield r c (simpleTargets s) ∧ ValuesYield r c s

theorem simpleStmt_ok {s : SimpleStmt} {ts : Tokens} (h : simpleStmt r c ts = .ok (s, rest)) :
    (∃ mid, exprListWith r c ts = .ok (simpleTargets s, mid)) ∧ ValuesYield r c s := by
  obtain ⟨targets, mid, read, h⟩ := bind_ok.mp h
  obtain ⟨next, mid', -, h⟩ := bind_ok.mp h
  split at h
  · obtain ⟨rfl, rfl⟩ := pure_ok.mp h
    exact ⟨⟨_, read⟩, trivial⟩
  · rename_i t
    generalize assignOp? t.value = found at h
    split at h
    · obtain ⟨_, mid'', -, h⟩ := bind_ok.mp h
      unfold assignRest at h
      dsimp only at h
      split at h
      · rename_i isPostfix
        obtain ⟨rfl, rfl⟩ := pure_ok.mp h
        exact ⟨⟨_, read⟩, by simp [ValuesYield, isPostfix]⟩
      · rename_i notPostfix
        obtain ⟨values, mid₃, readValues, h⟩ := bind_ok.mp h
        obtain ⟨rfl, rfl⟩ := pure_ok.mp h
        have := exprListWith_yields ⟨_, _, within_ok.mp readValues⟩
        exact ⟨⟨_, read⟩, by simpa [ValuesYield, notPostfix] using this⟩
    · split at h
      · obtain ⟨_, mid'', -, h⟩ := bind_ok.mp h
        obtain ⟨value, mid₃, readValue, h⟩ := bind_ok.mp h
        obtain ⟨rfl, rfl⟩ := pure_ok.mp h
        exact ⟨⟨_, read⟩, _, _, within_ok.mp readValue⟩
      · obtain ⟨rfl, rfl⟩ := pure_ok.mp h
        exact ⟨⟨_, read⟩, trivial⟩
    · obtain ⟨rfl, rfl⟩ := pure_ok.mp h
      exact ⟨⟨_, read⟩, trivial⟩

theorem simpleStmt_yields {s : SimpleStmt} (h : Yields (simpleStmt r c) s) : SimpleYields r c s := by
  obtain ⟨ts, rest, h⟩ := h
  obtain ⟨⟨mid, read⟩, values⟩ := simpleStmt_ok h
  exact ⟨exprListWith_yields ⟨_, _, read⟩, values⟩

theorem simpleStmt_exprs {ts : Tokens} {targets : List Expr} (read : exprListWith r c ts = .ok (targets, rest))
    (noOp : (front rest).bind assignOp? = none) (noArrow : front rest ≠ some (.symbol .arrow)) :
    simpleStmt r c ts = .ok (exprStmt targets ((targets.head?.map (·.span)).getD Span.none), rest) := by
  unfold simpleStmt
  rw [bind_of_ok read, bind_of_ok next?_apply]
  cases rest with
  | nil => rfl
  | cons t us =>
    have noAssign : assignOp? t.value = none := noOp
    have notArrow : t.value ≠ .symbol .arrow := by simpa using noArrow
    rw [List.head?_cons]
    dsimp only
    rw [noAssign]
    rcases targets with _ | ⟨channel, _ | ⟨second, more⟩⟩
    · rfl
    · simp [notArrow]
    · rfl

theorem simpleStmt_assign {ts us : Tokens} {targets : List Expr} {t : Located Token} {op : AssignOp}
    (read : exprListWith r c ts = .ok (targets, t :: us)) (isOp : assignOp? t.value = some op) :
    simpleStmt r c ts =
      assignRest r c targets ((targets.head?.map (·.span)).getD Span.none) ⟨op, t.span⟩ us := by
  simp [simpleStmt, read, isOp]

theorem simpleStmt_send {ts us : Tokens} {channel value : Expr} {s : Span}
    (read : exprListWith r c ts = .ok ([channel], ⟨.symbol .arrow, s⟩ :: us))
    (readValue : exprWith r c us = .ok (value, rest)) :
    simpleStmt r c ts = .ok (.send channel value (channel.span.union value.span), rest) := by
  simp [simpleStmt, read, readValue, assignOp?]

theorem headSpan_bare (es : List Expr) : ((Bare.exprs es).head?.map (·.span)).getD Span.none = Span.none := by
  cases es with
  | nil => rfl
  | cons e es => simp [Bare.exprs_eq_map]

theorem lastSpan_bare (es : List Expr) : lastSpan Span.none (Bare.exprs es) = Span.none := by
  rw [lastSpan, Bare.exprs_eq_map, List.getLast?_map]
  cases es.getLast? <;> simp

include again

theorem Rereads.simple {s : SimpleStmt} (h : SimpleYields r c s) (short : (Canonical.simple style s).length < m) :
    Reads (simpleStmt r' c) (Canonical.simple style s) (Bare.simple s) (endsSimple c) := by
  intro rest ended
  simp only [endsSimple, Bool.and_eq_true, decide_eq_true_eq] at ended
  obtain ⟨⟨endedExprs, noOp⟩, noArrow⟩ := ended
  obtain ⟨targetsRead, valuesRead⟩ := h
  cases s with
  | exprs targets s =>
    rw [simpleTargets] at targetsRead
    have read := again.exprs style targetsRead short rest endedExprs
    rw [Canonical.simple, simpleStmt_exprs read (by simpa using noOp) noArrow, headSpan_bare]
    simp [exprStmt, Bare.simple, lastSpan_bare]
  | assign targets op values s =>
    rw [simpleTargets] at targetsRead
    simp only [Canonical.simple, List.length_append, List.length_cons] at short
    have read := again.exprs style targetsRead (by omega)
      (sym op.value.symbol :: (commaSep (Canonical.exprs style values) ++ rest)) (endsExprs_symbol c op.value)
    rw [Canonical.simple, List.append_assoc, List.cons_append, simpleStmt_assign read (assignOp?_symbol _),
      headSpan_bare]
    cases isPostfix : op.value.isPostfix with
    | true =>
      rw [ValuesYield, isPostfix, if_pos rfl] at valuesRead
      subst valuesRead
      simp [assignRest, isPostfix, Canonical.exprs, Bare.simple, Bare.exprs, Located.bare]
    | false =>
      rw [ValuesYield, isPostfix, if_neg Bool.false_ne_true] at valuesRead
      have readValues := again.exprs style valuesRead (by omega) rest endedExprs
      simp [assignRest, isPostfix, Bare.simple, readValues, lastSpan_bare, Located.bare]
  | send channel value s =>
    rw [simpleTargets] at targetsRead
    simp only [Canonical.simple, List.length_append, List.length_cons] at short
    have alone : commaSep (Canonical.exprs style [channel]) = Canonical.expr style channel := by
      simp [Canonical.exprs_eq_map]
    have read := again.exprs style targetsRead
      (by rw [alone]; omega) (sym .arrow :: (Canonical.expr style value ++ rest)) rfl
    have readValue := again.expr style valuesRead (by omega) rest (endsExpr_of_endsExprs endedExprs)
    rw [alone] at read
    rw [Canonical.simple, List.append_assoc, List.cons_append, simpleStmt_send read readValue]
    simp [Bare.simple]

end

section

variable {r r' : Rules} {m : Nat} {c : Bool} (again : Rereads r r' m) (style : NameStyle) {rest : Tokens}

def VarYields (r : Rules) (d : VarDecl) : Prop :=
  d.names ≠ [] ∧ (d.values = [] ∨ ExprsYield r true d.values) ∧ (d.values = [] → d.ty ≠ none)

def varEnd (names : List Name) (ty : Option (Located TypeExpr)) (values : List Expr) (start : Span) : Reader VarDecl :=
  match values.getLast?, ty with
  | some value, _ => pure ⟨names, ty, values, start.union value.span⟩
  | none, some t => pure ⟨names, ty, values, start.union t.span⟩
  | none, none => fail "variable type or `=`"

def typeIfAny : Reader (Option (Located TypeExpr)) := do
  if startsType (← peek?) then some <$> type else pure none

def valuesIfAny (r : Rules) : Reader (List Expr) := do
  match ← eat? (.symbol .assign) with
  | some _ => exprListWith r true
  | none => pure []

theorem varDecl_eq (r : Rules) : varDecl r = (do
    let start ← expect (.keyword .var) "`var`"
    within do
      let names ← identList
      let ty ← typeIfAny
      let values ← valuesIfAny r
      varEnd names ty values start) := by
  simp only [varDecl, typeIfAny, valuesIfAny, ite_bind, bind_assoc]
  refine congrArg _ (funext fun start => congrArg within (congrArg _ (funext fun names => congrArg _ (funext fun next =>
    congrArg _ (funext fun ty => congrArg _ (funext fun assign => ?_))))))
  cases assign <;> rfl

theorem varEnd_ok {names : List Name} {ty : Option (Located TypeExpr)} {values : List Expr} {start : Span} {d : VarDecl}
    {ts : Tokens} (h : varEnd names ty values start ts = .ok (d, rest)) :
    d.names = names ∧ d.values = values ∧ (values = [] → d.ty ≠ none) := by
  unfold varEnd at h
  cases last : values.getLast? with
  | some value =>
    rw [last] at h
    obtain ⟨rfl, rfl⟩ := pure_ok.mp h
    refine ⟨rfl, rfl, ?_⟩
    rintro rfl
    cases last
  | none =>
    rw [last] at h
    cases ty with
    | none => cases fail_ok.mp h
    | some t =>
      obtain ⟨rfl, rfl⟩ := pure_ok.mp h
      exact ⟨rfl, rfl, fun _ => nofun⟩

theorem identList_ne_nil {names : List Name} {ts : Tokens} (h : identList ts = .ok (names, rest)) : names ≠ [] := by
  obtain ⟨first, mid, -, h⟩ := bind_ok.mp h
  cases h
  exact List.cons_ne_nil _ _

theorem valuesIfAny_yields {values : List Expr} (h : Yields (valuesIfAny r) values) :
    values = [] ∨ ExprsYield r true values := by
  obtain ⟨ts, rest, h⟩ := h
  obtain ⟨assign, mid, -, h⟩ := bind_ok.mp h
  cases assign with
  | none => exact .inl (pure_ok.mp h).1.symm
  | some _ => exact .inr (exprListWith_yields ⟨_, _, h⟩)

theorem varDecl_yields {d : VarDecl} (h : Yields (varDecl r) d) : VarYields r d := by
  obtain ⟨ts, rest, h⟩ := h
  rw [varDecl_eq] at h
  obtain ⟨start, mid, -, h⟩ := bind_ok.mp h
  obtain ⟨names, mid₁, listed, h⟩ := bind_ok.mp (within_ok.mp h)
  obtain ⟨ty, mid₂, -, h⟩ := bind_ok.mp h
  obtain ⟨values, mid₃, given, h⟩ := bind_ok.mp h
  obtain ⟨rfl, rfl, typed⟩ := varEnd_ok h
  exact ⟨identList_ne_nil listed, valuesIfAny_yields ⟨_, _, given⟩, typed⟩

theorem moreIdents_reads (ns : List Name) (ended : front rest ≠ some (.symbol .comma)) :
    moreIdents (commaEach (ns.map fun n => [name n]) ++ rest) = (ns.map Located.bare, rest) := by
  induction ns with
  | nil =>
    unfold moreIdents
    split
    · rename_i same
      rw [List.map_nil, commaEach, List.flatMap_nil, List.nil_append] at same
      rw [same] at ended
      exact absurd rfl ended
    · rfl
  | cons n ns ih =>
    simp only [commaEach, List.map_cons, List.flatMap_cons, List.cons_append, List.nil_append] at ih ⊢
    rw [moreIdents, ih]
    rfl

theorem identList_cons (n : String) (s : Span) (ts : Tokens) :
    identList (⟨.ident n, s⟩ :: ts) = .ok (⟨n, s⟩ :: (moreIdents ts).1, (moreIdents ts).2) := rfl

theorem identList_reads {ns : List Name} (nonempty : ns ≠ []) (ended : front rest ≠ some (.symbol .comma)) :
    identList (Canonical.names ns ++ rest) = .ok (ns.map Located.bare, rest) := by
  obtain ⟨n, ns, rfl⟩ := List.exists_cons_of_ne_nil nonempty
  have more := moreIdents_reads ns ended
  simp [Canonical.names, commaSep, identList_cons, more, Located.bare]

theorem typeIfAny_reads {o : Option (Located TypeExpr)} (other : startsType (front rest) = false)
    (ended : endsType (front rest) = true) :
    typeIfAny (Canonical.optionalType style o ++ rest) = .ok (o.map Located.bare, rest) := by
  cases o with
  | none => simp [typeIfAny, Canonical.optionalType, other]
  | some t =>
    obtain ⟨u, first, starts⟩ := exists_of_allowed (startsType_type style t.value) rfl
    have read := type_reads style t.value rest ended
    simp [typeIfAny, Canonical.optionalType, front_append first, starts, read, Located.bare]

theorem varEnd_reads {ns : List Name} {ty : Option (Located TypeExpr)} {values : List Expr}
    (typed : values = [] → ty ≠ none) :
    varEnd ns (ty.map Located.bare) (Bare.exprs values) Span.none rest =
      .ok (⟨ns, ty.map Located.bare, Bare.exprs values, Span.none⟩, rest) := by
  have last : (Bare.exprs values).getLast? = values.getLast?.map Bare.expr := by
    rw [Bare.exprs_eq_map, List.getLast?_map]
  unfold varEnd
  rw [last]
  cases found : values.getLast? with
  | some value => simp
  | none =>
    obtain ⟨t, rfl⟩ := Option.ne_none_iff_exists'.mp (typed (List.getLast?_eq_none_iff.mp found))
    simp

include again

theorem Rereads.varValues {values : List Expr} (h : values = [] ∨ ExprsYield r true values)
    (short : (Canonical.assigned (Canonical.exprs style values)).length < m) (ended : endsStmt (front rest) = true) :
    valuesIfAny r' (Canonical.assigned (Canonical.exprs style values) ++ rest) = .ok (Bare.exprs values, rest) := by
  have isEnd : front rest = some (.symbol .semicolon) := of_decide_eq_true ended
  cases values with
  | nil =>
    have noAssign : eat? (.symbol .assign) rest = .ok (none, rest) := eat?_of_ne (by simp [isEnd])
    simp [valuesIfAny, Canonical.exprs, Canonical.assigned, Bare.exprs, noAssign]
  | cons e es =>
    have given := h.resolve_left (List.cons_ne_nil _ _)
    rw [Canonical.exprs, Canonical.assigned, List.length_cons] at short
    have read := again.exprs style given (by rw [Canonical.exprs]; omega) rest (by rw [isEnd]; rfl)
    rw [Canonical.exprs] at read
    simp [valuesIfAny, Canonical.exprs, Canonical.assigned, read]

theorem Rereads.varDecl {d : VarDecl} (h : VarYields r d) (short : (Canonical.varDecl style d).length < m) :
    Reads (varDecl r') (Canonical.varDecl style d) (Bare.varDecl d) endsStmt := by
  obtain ⟨ns, ty, values, s⟩ := d
  obtain ⟨nonempty, given, typed⟩ := h
  intro rest ended
  simp only [Canonical.varDecl, List.length_cons, List.length_append] at short
  have valuesRead := again.varValues style given (by dsimp only; omega) ended
  have follows : front (Canonical.assigned (Canonical.exprs style values) ++ rest) = some (.symbol .assign) ∨
      front (Canonical.assigned (Canonical.exprs style values) ++ rest) = some (.symbol .semicolon) := by
    cases values with
    | nil => exact .inr (of_decide_eq_true ended)
    | cons e es => exact .inl rfl
  have typeRead := typeIfAny_reads style (o := ty) (by rcases follows with h | h <;> rw [h] <;> rfl)
    (by rcases follows with h | h <;> rw [h] <;> rfl)
  have noComma : front (Canonical.optionalType style ty ++
      (Canonical.assigned (Canonical.exprs style values) ++ rest)) ≠ some (.symbol .comma) := by
    cases ty with
    | none => rcases follows with h | h <;> simp [Canonical.optionalType, h]
    | some t =>
      obtain ⟨u, first, starts⟩ := exists_of_allowed (startsType_type style t.value) rfl
      exact front_append_ne first (ne_of_allowed starts rfl) _
  have namesRead := identList_reads nonempty noComma
  dsimp only at namesRead valuesRead
  simp [varDecl_eq, Canonical.varDecl, namesRead, typeRead, valuesRead, varEnd_reads typed, Bare.varDecl]

theorem Rereads.ret {values : List Expr} (h : values = [] ∨ ExprsYield r true values) (s : Span)
    (short : (Canonical.stmt style (.ret values s)).length < m) :
    Reads (returnStmt r') (Canonical.stmt style (.ret values s)) (Bare.stmt (.ret values s)) endsStmt := by
  intro rest ended
  have isEnd : front rest = some (.symbol .semicolon) := of_decide_eq_true ended
  rw [Canonical.stmt, List.length_cons] at short
  rcases h with rfl | given
  · simp [returnStmt, Canonical.stmt, Canonical.exprs, Bare.stmt, Bare.exprs, isEnd, startsExpr, lastSpan]
  · have read := again.exprs style given (by omega) rest (by rw [isEnd]; rfl)
    simp [returnStmt, Canonical.stmt, Bare.stmt, again.exprs_start read, read, lastSpan_bare]

end

theorem returnStmt_yields {r : Rules} {s : Stmt} (h : Yields (returnStmt r) s) :
    ∃ values span, s = .ret values span ∧ (values = [] ∨ ExprsYield r true values) := by
  obtain ⟨ts, rest, h⟩ := h
  obtain ⟨start, mid, -, h⟩ := bind_ok.mp h
  obtain ⟨first, mid₁, -, h⟩ := bind_ok.mp h
  split at h
  · obtain ⟨values, mid₂, read, h⟩ := bind_ok.mp h
    obtain ⟨rfl, rfl⟩ := pure_ok.mp h
    exact ⟨values, _, rfl, .inr (exprListWith_yields ⟨_, _, within_ok.mp read⟩)⟩
  · obtain ⟨values, mid₂, none, h⟩ := bind_ok.mp h
    obtain ⟨rfl, rfl⟩ := pure_ok.mp none
    obtain ⟨rfl, rfl⟩ := pure_ok.mp h
    exact ⟨[], _, rfl, .inl rfl⟩

section

variable {r r' : Rules} {m : Nat} {c : Bool} (again : Rereads r r' m) (style : NameStyle) {rest : Tokens}

def HeaderYields (r : Rules) (init : Option SimpleStmt) (cond : Expr) : Prop :=
  (∀ s ∈ init, SimpleYields r false s) ∧ Yields (exprWith r false) cond

def ElseYields (r : Rules) : Else → Prop
  | .none => True
  | .block b => Yields r.block b
  | .chain s => Yields r.ifStmt s

theorem asCondition_ok {s : SimpleStmt} {e : Expr} {ts : Tokens} (h : asCondition s ts = .ok (e, rest)) :
    ∃ span, s = .exprs [e] span := by
  unfold asCondition at h
  split at h
  · obtain ⟨rfl, rfl⟩ := pure_ok.mp h
    exact ⟨_, rfl⟩
  · cases fail_ok.mp h

theorem ifHeader_yields {init : Option SimpleStmt} {cond : Expr} (h : Yields (ifHeader r) (init, cond)) :
    HeaderYields r init cond := by
  obtain ⟨ts, rest, h⟩ := h
  obtain ⟨first, mid, read, h⟩ := bind_ok.mp h
  have firstYields := simpleStmt_yields ⟨_, _, read⟩
  obtain ⟨semicolon, mid₁, -, h⟩ := bind_ok.mp h
  cases semicolon with
  | some _ =>
    obtain ⟨cond, mid₂, readCond, h⟩ := bind_ok.mp h
    obtain ⟨same, rfl⟩ := pure_ok.mp h
    cases same
    refine ⟨?_, _, _, readCond⟩
    rintro s member
    cases member
    exact firstYields
  | none =>
    obtain ⟨cond, mid₂, readCond, h⟩ := bind_ok.mp h
    obtain ⟨same, rfl⟩ := pure_ok.mp h
    cases same
    obtain ⟨span, rfl⟩ := asCondition_ok readCond
    exact ⟨nofun, firstYields.1.2 _ List.mem_cons_self⟩

theorem ifStep_yields {s : IfStmt} (h : Yields (ifStep r) s) :
    HeaderYields r s.init s.cond ∧ Yields r.block s.body ∧ ElseYields r s.otherwise := by
  obtain ⟨ts, rest, h⟩ := h
  obtain ⟨start, mid, -, h⟩ := bind_ok.mp h
  obtain ⟨⟨init, cond⟩, mid₁, header, h⟩ := bind_ok.mp h
  obtain ⟨body, mid₂, block, h⟩ := bind_ok.mp h
  obtain ⟨otherwise, mid₃, -, h⟩ := bind_ok.mp h
  have headerYields := ifHeader_yields ⟨_, _, header⟩
  cases otherwise with
  | none =>
    obtain ⟨rfl, rfl⟩ := pure_ok.mp h
    exact ⟨headerYields, ⟨_, _, block⟩, trivial⟩
  | some _ =>
    obtain ⟨chained, mid₄, -, h⟩ := bind_ok.mp h
    split at h
    · obtain ⟨nested, mid₅, read, h⟩ := bind_ok.mp h
      obtain ⟨rfl, rfl⟩ := pure_ok.mp h
      exact ⟨headerYields, ⟨_, _, block⟩, _, _, read⟩
    · obtain ⟨other, mid₅, read, h⟩ := bind_ok.mp h
      obtain ⟨rfl, rfl⟩ := pure_ok.mp h
      exact ⟨headerYields, ⟨_, _, block⟩, _, _, read⟩

theorem block_cons (b : Block) : ∃ ts, Canonical.block style b = sym .leftBrace :: ts := by
  cases b
  exact ⟨_, rfl⟩

theorem ifStmt_cons (s : IfStmt) : ∃ ts, Canonical.ifStmt style s = word .if_ :: ts := by
  cases s
  exact ⟨_, rfl⟩

include again

/-- An expression in a header is read as a statement first. -/
theorem Rereads.condition {e : Expr} (h : Yields (exprWith r c) e) (short : (Canonical.expr style e).length < m) :
    Reads (simpleStmt r' c) (Canonical.expr style e) (.exprs [Bare.expr e] Span.none) (endsSimple c) := by
  have alone : Canonical.simple style (.exprs [e] Span.none) = Canonical.expr style e := by
    simp [Canonical.simple, Canonical.exprs_eq_map]
  have read := again.simple style (s := .exprs [e] Span.none)
    ⟨⟨List.cons_ne_nil _ _, List.forall_mem_singleton.mpr h⟩, trivial⟩ (by rw [alone]; exact short)
  rw [alone] at read
  simpa [Bare.simple, Bare.exprs_eq_map] using read

theorem Rereads.ifHeader {init : Option SimpleStmt} {cond : Expr} (h : HeaderYields r init cond)
    (shortInit : (Canonical.clause style init).length < m) (shortCond : (Canonical.expr style cond).length < m)
    (opens : front rest = some (.symbol .leftBrace)) :
    ifHeader r' (Canonical.clause style init ++ ((if init.isSome then [sym .semicolon] else []) ++
      (Canonical.expr style cond ++ rest))) = .ok ((Bare.clause init, Bare.expr cond), rest) := by
  cases init with
  | none =>
    have read := again.condition style h.2 shortCond rest (by rw [opens]; rfl)
    have noSemicolon : eat? (.symbol .semicolon) rest = .ok (none, rest) := eat?_of_ne (by simp [opens])
    simp [Grammar.ifHeader, Canonical.clause, Bare.clause, read, noSemicolon, asCondition]
  | some s =>
    have read := again.simple style (h.1 s rfl) shortInit
      (sym .semicolon :: (Canonical.expr style cond ++ rest)) rfl
    have readCond := again.expr style h.2 shortCond rest (by rw [opens]; rfl)
    simp [Grammar.ifHeader, Canonical.clause, Bare.clause, read, readCond]

theorem Rereads.ifStep {s : IfStmt} (h : Yields (ifStep r) s) (short : (Canonical.ifStmt style s).length ≤ m) :
    Reads (ifStep r') (Canonical.ifStmt style s) (Bare.ifStmt s) endsIf := by
  obtain ⟨header, body, otherwise⟩ := ifStep_yields h
  obtain ⟨init, cond, b, e, span⟩ := s
  intro rest ended
  simp only [Canonical.ifStmt, List.length_cons, List.length_append] at short
  have opens : front (Canonical.block style b ++ (Canonical.orElse style e ++ rest)) = some (.symbol .leftBrace) := by
    obtain ⟨us, same⟩ := block_cons style b
    rw [same]
    rfl
  have readHeader := again.ifHeader style header (by dsimp only; omega) (by dsimp only; omega) opens
  have readBody := again.block body style (by dsimp only; omega) (Canonical.orElse style e ++ rest) rfl
  dsimp only at readHeader readBody
  cases e with
  | none =>
    have noElse : eat? (.keyword .else_) rest = .ok (none, rest) := eat?_of_ne (of_decide_eq_true ended)
    simp only [Canonical.orElse, List.nil_append] at readHeader readBody
    simp [Grammar.ifStep, Canonical.ifStmt, Canonical.orElse, Bare.ifStmt, Bare.orElse, readHeader, readBody, noElse]
  | block other =>
    simp only [Canonical.orElse, List.length_cons] at short
    have readOther := again.block otherwise style (by omega) rest rfl
    obtain ⟨us, same⟩ := block_cons style other
    have notIf : front (Canonical.block style other ++ rest) ≠ some (.keyword .if_) := by simp [same]
    simp only [Canonical.orElse, List.cons_append] at readHeader readBody
    simp [Grammar.ifStep, Canonical.ifStmt, Canonical.orElse, Bare.ifStmt, Bare.orElse, readHeader, readBody, notIf,
      readOther]
  | chain nested =>
    simp only [Canonical.orElse, List.length_cons] at short
    have readNested := again.ifStmt otherwise style (by omega) rest ended
    obtain ⟨us, same⟩ := ifStmt_cons style nested
    have isIf : front (Canonical.ifStmt style nested ++ rest) = some (.keyword .if_) := by simp [same]
    simp only [Canonical.orElse, List.cons_append] at readHeader readBody
    simp [Grammar.ifStep, Canonical.ifStmt, Canonical.orElse, Bare.ifStmt, Bare.orElse, readHeader, readBody, isIf,
      readNested]

end

end ViewLang.Grammar
