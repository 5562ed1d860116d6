import ViewLang.Proofs.Grammar.Types

namespace ViewLang.Grammar

open Reader
open Canonical (NameStyle plain sym word commaEach commaSep)

def endsPrimary (composite : Bool) : Option Token → Bool
  | some (.symbol .dot) => false
  | some (.symbol .leftParen) => false
  | some (.symbol .leftBracket) => false
  | some (.symbol .leftBrace) => !composite
  | _ => true

def endsExpr (composite : Bool) (t : Option Token) : Bool := endsPrimary composite t && (t.bind binaryOp?).isNone

def endsExprs (composite : Bool) (t : Option Token) : Bool :=
  endsExpr composite t && decide (t ≠ some (.symbol .comma))

def endsEntry (t : Option Token) : Bool := endsExpr true t && decide (t ≠ some (.symbol .colon))

theorem endsPrimary_of_endsExpr {c : Bool} {t : Option Token} (ended : endsExpr c t = true) : endsPrimary c t = true :=
  (Bool.and_eq_true_iff.mp ended).1

theorem endsExpr_of_endsExprs {c : Bool} {t : Option Token} (ended : endsExprs c t = true) : endsExpr c t = true :=
  (Bool.and_eq_true_iff.mp ended).1

theorem ne_comma_of_endsExprs {c : Bool} {t : Option Token} (ended : endsExprs c t = true) :
    t ≠ some (.symbol .comma) :=
  of_decide_eq_true (Bool.and_eq_true_iff.mp ended).2

def endsIf (t : Option Token) : Bool := decide (t ≠ some (.keyword .else_))

@[simp] theorem binaryOp?_symbol (op : BinaryOp) : binaryOp? (.symbol op.symbol) = some op := by
  cases op <;> rfl

theorem endsPrimary_symbol (c : Bool) (op : BinaryOp) : endsPrimary c (some (.symbol op.symbol)) = true := by
  cases op <;> rfl

@[simp] theorem unaryOp?_symbol (op : UnaryOp) : unaryOp? (.symbol op.symbol) = some op := by
  cases op <;> rfl

structure Rereads (r r' : Rules) (m : Nat) : Prop where
  primary : ∀ {c p}, Yields (r.primary c) p → ∀ style, (Canonical.primary style p).length < m →
    Reads (r'.primary c) (Canonical.primary style p) (Bare.primary p) (endsPrimary c)
  block : ∀ {b}, Yields r.block b → ∀ style, (Canonical.block style b).length < m →
    Reads r'.block (Canonical.block style b) (Bare.block b) fun _ => true
  ifStmt : ∀ {s}, Yields r.ifStmt s → ∀ style, (Canonical.ifStmt style s).length < m →
    Reads r'.ifStmt (Canonical.ifStmt style s) (Bare.ifStmt s) endsIf
  starts : ∀ {c ts p rest}, r'.primary c ts = .ok (p, rest) → startsExpr (front ts) = true
  name : ∀ {c n s ts p rest}, r'.primary c (⟨.ident n, s⟩ :: ts) = .ok (p, rest) → endsPrimary c (front ts) = true →
    rest = ts
  unreserved : ∀ {c ts p rest}, r.primary c ts = .ok (p, rest) → isReservedIdent (front ts) = false →
    ∃ t, front (Canonical.primary .whole p) = some t ∧ isReservedIdent (some t) = false

section

variable {r r' : Rules} {m : Nat} {c : Bool} (again : Rereads r r' m) (style : NameStyle) {rest : Tokens}

theorem link?_yields {l : Link} (h : Yields (link? r c) (some l)) : Yields (r.primary c) l.operand := by
  obtain ⟨ts, rest, h⟩ := h
  obtain ⟨t, mid, -, h⟩ := bind_ok.mp h
  cases t with
  | none => cases h
  | some t =>
    dsimp only at h
    cases found : binaryOp? t.value with
    | none =>
      rw [found] at h
      cases h
    | some op =>
      rw [found] at h
      obtain ⟨_, mid', -, h⟩ := bind_ok.mp h
      obtain ⟨operand, mid'', read, h⟩ := bind_ok.mp h
      obtain ⟨same, rfl⟩ := pure_ok.mp h
      cases same
      exact ⟨_, _, within_ok.mp read⟩

theorem exprWith_ok {e : Expr} {ts : Tokens} (h : exprWith r c ts = .ok (e, rest)) :
    ∃ mid, r.primary c ts = .ok (e.head, mid) ∧ whileSome (link? r c) mid = .ok (e.tail, rest) := by
  obtain ⟨head, mid, first, h⟩ := bind_ok.mp h
  obtain ⟨tail, mid', links, h⟩ := bind_ok.mp h
  obtain ⟨rfl, rfl⟩ := pure_ok.mp h
  exact ⟨mid, first, links⟩

theorem exprWith_yields {e : Expr} (h : Yields (exprWith r c) e) :
    Yields (r.primary c) e.head ∧ ∀ l ∈ e.tail, Yields (r.primary c) l.operand := by
  obtain ⟨ts, rest, h⟩ := h
  obtain ⟨mid, first, links⟩ := exprWith_ok h
  exact ⟨⟨_, _, first⟩, fun l member => link?_yields (whileSomeUpTo_yields links l member)⟩

theorem link?_stops (ended : endsExpr c (front rest) = true) : link? r c rest = .ok (none, rest) := by
  cases rest with
  | nil => rfl
  | cons t ts =>
    have noOp : binaryOp? t.value = none := by
      simpa using (Bool.and_eq_true_iff.mp ended).2
    simp [link?, noOp]

theorem foldl_span_bare (ls : List Link) :
    (ls.map Bare.link).foldl (fun span l => span.union l.operand.span) Span.none = Span.none := by
  induction ls with
  | nil => rfl
  | cons l ls ih => simpa [Bare.link] using ih

include again

theorem Rereads.link {l : Link} (h : Yields (r.primary c) l.operand) (short : (Canonical.link style l).length ≤ m) :
    Reads (link? r' c) (Canonical.link style l) (some (Bare.link l)) (endsPrimary c) := by
  intro rest ended
  rw [Canonical.link, List.length_cons] at short
  have read := again.primary h style (by omega) rest ended
  simp [link?, Canonical.link, Bare.link, Located.bare, read]

theorem Rereads.expr {e : Expr} (h : Yields (exprWith r c) e) (short : (Canonical.expr style e).length < m) :
    Reads (exprWith r' c) (Canonical.expr style e) (Bare.expr e) (endsExpr c) := by
  intro rest ended
  obtain ⟨head, tail⟩ := exprWith_yields h
  rw [Canonical.expr_eq, Canonical.links_eq_flatMap, List.length_append] at short
  have links : whileSome (link? r' c) (e.tail.flatMap (Canonical.link style) ++ rest) =
      .ok (e.tail.map Bare.link, rest) := by
    refine whileSome_reads (fun l member => again.link style (tail l member) ?_)
      (fun l _ => ⟨_, rfl, endsPrimary_symbol c _⟩) (link?_stops ended) (endsPrimary_of_endsExpr ended)
    have := length_le_flatMap_of_mem (Canonical.link style) member
    omega
  have first := again.primary head style (by omega) (e.tail.flatMap (Canonical.link style) ++ rest)
    (front_flatMap (fun l _ => ⟨_, rfl, endsPrimary_symbol c _⟩) (endsPrimary_of_endsExpr ended))
  simp [exprWith, Canonical.expr_eq, Canonical.links_eq_flatMap, Bare.expr_eq, Bare.links_eq_map, first, links,
    foldl_span_bare]

theorem Rereads.expr_opens {e : Expr} (h : Yields (exprWith r c) e) (short : (Canonical.expr style e).length < m) :
    ∃ t, front (Canonical.expr style e) = some t ∧ startsExpr (some t) = true := by
  have read := again.expr style h short [] rfl
  obtain ⟨mid, first, -⟩ := exprWith_ok read
  rw [List.append_nil] at first
  exact exists_of_allowed (again.starts first) rfl

end

section

variable {r r' : Rules} {m : Nat} {c : Bool} (again : Rereads r r' m) (style : NameStyle) {rest : Tokens}

def commaExpr? (r : Rules) (c : Bool) : Reader (Option Expr) := do
  match ← eat? (.symbol .comma) with
  | none => pure none
  | some _ => some <$> within (exprWith r c)

theorem exprListWith_eq (r : Rules) (c : Bool) : exprListWith r c = (do
    let first ← exprWith r c
    let more ← whileSome (commaExpr? r c)
    pure (first :: more)) := rfl

def ExprsYield (r : Rules) (c : Bool) (es : List Expr) : Prop := es ≠ [] ∧ ∀ e ∈ es, Yields (exprWith r c) e

theorem exprListWith_ok {es : List Expr} {ts : Tokens} (h : exprListWith r c ts = .ok (es, rest)) :
    ∃ e more mid, es = e :: more ∧ exprWith r c ts = .ok (e, mid) ∧
      whileSome (commaExpr? r c) mid = .ok (more, rest) := by
  rw [exprListWith_eq] at h
  obtain ⟨e, mid, first, h⟩ := bind_ok.mp h
  obtain ⟨more, mid', others, h⟩ := bind_ok.mp h
  obtain ⟨rfl, rfl⟩ := pure_ok.mp h
  exact ⟨e, more, mid, rfl, first, others⟩

theorem commaExpr?_yields {e : Expr} (h : Yields (commaExpr? r c) (some e)) : Yields (exprWith r c) e := by
  obtain ⟨ts, rest, h⟩ := h
  obtain ⟨comma, mid, -, h⟩ := bind_ok.mp h
  cases comma with
  | none => cases h
  | some _ =>
    obtain ⟨a, read, same⟩ := map_ok.mp h
    cases same
    exact ⟨_, _, within_ok.mp read⟩

theorem exprListWith_yields {es : List Expr} (h : Yields (exprListWith r c) es) : ExprsYield r c es := by
  obtain ⟨ts, rest, h⟩ := h
  obtain ⟨e, more, mid, rfl, first, others⟩ := exprListWith_ok h
  refine ⟨List.cons_ne_nil _ _, List.forall_mem_cons.mpr ⟨⟨_, _, first⟩, fun e' member => ?_⟩⟩
  exact commaExpr?_yields (whileSomeUpTo_yields others e' member)

theorem commaExpr?_stops (noComma : front rest ≠ some (.symbol .comma)) :
    commaExpr? r c rest = .ok (none, rest) := by
  simp [commaExpr?, eat?_of_ne noComma]

include again

theorem Rereads.exprs_start {es : List Expr} {ts : Tokens} (h : exprListWith r' c ts = .ok (es, rest)) :
    startsExpr (front ts) = true := by
  obtain ⟨e, more, mid, -, first, -⟩ := exprListWith_ok h
  obtain ⟨mid', head, -⟩ := exprWith_ok first
  exact again.starts head

theorem Rereads.exprs {es : List Expr} (h : ExprsYield r c es)
    (short : (commaSep (Canonical.exprs style es)).length < m) :
    Reads (exprListWith r' c) (commaSep (Canonical.exprs style es)) (Bare.exprs es) (endsExprs c) := by
  intro rest ended
  obtain ⟨nonempty, each⟩ := h
  obtain ⟨e, es, rfl⟩ := List.exists_cons_of_ne_nil nonempty
  have endedExpr := endsExpr_of_endsExprs ended
  rw [List.forall_mem_cons] at each
  have tokens : commaSep (Canonical.exprs style (e :: es)) =
      Canonical.expr style e ++ es.flatMap fun e => sym .comma :: Canonical.expr style e := by
    simp [Canonical.exprs_eq_map, commaSep, commaEach, List.flatMap_map]
  rw [tokens, List.length_append] at short
  have first := again.expr style each.1 (by omega)
    (es.flatMap (fun e => sym .comma :: Canonical.expr style e) ++ rest)
    (front_flatMap (fun e _ => ⟨_, rfl, rfl⟩) endedExpr)
  have more : whileSome (commaExpr? r' c) (es.flatMap (fun e => sym .comma :: Canonical.expr style e) ++ rest) =
      .ok (es.map Bare.expr, rest) := by
    refine whileSome_reads ?_ (fun e _ => ⟨_, rfl, rfl⟩) (commaExpr?_stops (ne_comma_of_endsExprs ended)) endedExpr
    intro e' member rest ended
    have shorter := length_le_flatMap_of_mem (fun e => sym .comma :: Canonical.expr style e) member
    rw [List.length_cons] at shorter
    have read := again.expr style (each.2 e' member) (by omega) rest ended
    simp [commaExpr?, read]
  rw [tokens, List.append_assoc, Bare.exprs_eq_map]
  simp [exprListWith_eq, first, more]

theorem Rereads.callArgs {es : List Expr} (each : ∀ e ∈ es, Yields (exprWith r true) e)
    (short : (commaSep (Canonical.exprs style es)).length < m) (rest : Tokens) :
    callArgs r' (commaSep (Canonical.exprs style es) ++ sym .rightParen :: rest) =
      .ok ((Bare.exprs es, Span.none), rest) := by
  rw [Canonical.exprs_eq_map] at short ⊢
  rw [Bare.exprs_eq_map]
  have shortEach : ∀ e ∈ es, (Canonical.expr style e).length < m := fun e member =>
    Nat.lt_of_le_of_lt (length_le_commaSep_of_mem (List.mem_map_of_mem member)) short
  refine commaList_reads (fun e member => again.expr style (each e member) (shortEach e member)) ?_ rfl rfl (by decide)
  intro e member
  obtain ⟨t, first, starts⟩ := again.expr_opens style (each e member) (shortEach e member)
  exact ⟨t, first, ne_of_allowed starts rfl⟩

end

section

variable {r r' : Rules} {m : Nat} {c : Bool} (again : Rereads r r' m) (style : NameStyle) {rest : Tokens}

inductive Suffixed (r : Rules) (c : Bool) (p : Primary) : Primary → Prop
  | field (f : Name) : Suffixed r c p (selectField p f)
  | call {args : List Expr} (close : Span) :
    (∀ e ∈ args, Yields (exprWith r true) e) → Suffixed r c p (callOperand p args close)
  | index {i : Expr} (s : Span) : Yields (exprWith r true) i → Suffixed r c p (.index p i s)
  | slice {low high : Option Expr} (s : Span) : (∀ e ∈ low, Yields (exprWith r true) e) →
    (∀ e ∈ high, Yields (exprWith r true) e) → Suffixed r c p (.slice p low high s)
  | composite {n : String} {es : List Entry} {s : Span} (s' : Span) : c = true →
    compositeType? p = some ⟨.named n, s⟩ → (∀ e ∈ es, Yields (exprWith r true) e.value) →
    Suffixed r c p (.composite ⟨.named n, s⟩ es s')

theorem indexRest_eq (r : Rules) (target : Primary) : indexRest r target = (do
    let low ← unlessAt (.symbol .colon) (exprWith r true)
    match ← eat? (.symbol .colon) with
    | some _ =>
      let high ← unlessAt (.symbol .rightBracket) (exprWith r true)
      let close ← expect (.symbol .rightBracket) "`]`"
      pure (.slice target low high (target.span.union close))
    | none =>
      match low with
      | none => fail "index"
      | some index =>
        let close ← expect (.symbol .rightBracket) "`]`"
        pure (.index target index (target.span.union close))) := by
  simp only [unlessAt, bind_assoc, ← ite_bind]
  rfl

theorem indexRest_suffixed {target p : Primary} (h : Yields (indexRest r target) p) : Suffixed r c target p := by
  obtain ⟨ts, rest, h⟩ := h
  rw [indexRest_eq] at h
  obtain ⟨low, mid', readLow, h⟩ := bind_ok.mp h
  obtain ⟨colon, mid'', -, h⟩ := bind_ok.mp h
  cases colon with
  | some _ =>
    obtain ⟨high, mid₄, readHigh, h⟩ := bind_ok.mp h
    obtain ⟨close, mid₅, -, h⟩ := bind_ok.mp h
    obtain ⟨rfl, rfl⟩ := pure_ok.mp h
    exact .slice _ (unlessAt_yields readLow) (unlessAt_yields readHigh)
  | none =>
    cases low with
    | none => cases fail_ok.mp h
    | some i =>
      obtain ⟨close, mid₃, -, h⟩ := bind_ok.mp h
      obtain ⟨rfl, rfl⟩ := pure_ok.mp h
      exact .index _ (unlessAt_yields readLow i rfl)

include again

/-- An expression that may be missing, in front of a token that none starts with and that ends one. -/
theorem Rereads.optional {o : Option Expr} (each : ∀ e ∈ o, Yields (exprWith r c) e)
    (short : (Canonical.optional style o).length < m) {t : Token} (stops : startsExpr (some t) = false)
    (ended : endsExpr c (some t) = true) (rest : Tokens) :
    unlessAt t (exprWith r' c) (Canonical.optional style o ++ plain t :: rest) =
      .ok (Bare.optional o, plain t :: rest) := by
  have shortEach : ∀ e ∈ o, (Canonical.expr style e).length < m := by
    rintro e member
    cases member
    exact short
  rw [Canonical.optional_eq, Bare.optional_eq_map]
  refine unlessAt_reads (fun e member => again.expr style (each e member) (shortEach e member)) ?_ ended rest
  intro e member
  obtain ⟨u, first, starts⟩ := again.expr_opens style (each e member) (shortEach e member)
  exact ⟨u, first, ne_of_allowed starts stops⟩

theorem Rereads.index {i : Expr} (h : Yields (exprWith r true) i) (short : (Canonical.expr style i).length < m)
    (target : Primary) (rest : Tokens) :
    indexRest r' target (Canonical.expr style i ++ sym .rightBracket :: rest) =
      .ok (.index target (Bare.expr i) (target.span.union Span.none), rest) := by
  obtain ⟨t, first, starts⟩ := again.expr_opens style h short
  have notColon : front (Canonical.expr style i ++ sym .rightBracket :: rest) ≠ some (.symbol .colon) :=
    front_append_ne first (ne_of_allowed starts rfl) _
  have low := unlessAt_some notColon (again.expr style h short (sym .rightBracket :: rest) rfl)
  have noColon : eat? (.symbol .colon) (sym .rightBracket :: rest) = .ok (none, sym .rightBracket :: rest) := rfl
  simp [indexRest_eq, low, noColon]

theorem Rereads.slice {low high : Option Expr} (lowRead : ∀ e ∈ low, Yields (exprWith r true) e)
    (highRead : ∀ e ∈ high, Yields (exprWith r true) e) (shortLow : (Canonical.optional style low).length < m)
    (shortHigh : (Canonical.optional style high).length < m) (target : Primary) (rest : Tokens) :
    indexRest r' target (Canonical.optional style low ++ sym .colon ::
      (Canonical.optional style high ++ sym .rightBracket :: rest)) =
      .ok (.slice target (Bare.optional low) (Bare.optional high) (target.span.union Span.none), rest) := by
  have first := again.optional style lowRead shortLow (t := .symbol .colon) rfl rfl
  have second := again.optional style highRead shortHigh (t := .symbol .rightBracket) rfl rfl rest
  simp [indexRest_eq, first, second]

end

section

variable {r r' : Rules} {m : Nat} {c : Bool} (again : Rereads r r' m) (style : NameStyle) {rest : Tokens}

theorem entry_yields {e : Entry} (h : Yields (entry r) e) : Yields (exprWith r true) e.value := by
  obtain ⟨ts, rest, h⟩ := h
  obtain ⟨first, mid, -, h⟩ := bind_ok.mp h
  obtain ⟨second, mid', -, h⟩ := bind_ok.mp h
  split at h
  · obtain ⟨key, mid₃, -, h⟩ := bind_ok.mp h
    obtain ⟨_, mid₄, -, h⟩ := bind_ok.mp h
    obtain ⟨value, mid₅, read, h⟩ := bind_ok.mp h
    obtain ⟨rfl, rfl⟩ := pure_ok.mp h
    exact ⟨_, _, read⟩
  · obtain ⟨value, mid₅, read, h⟩ := bind_ok.mp h
    obtain ⟨rfl, rfl⟩ := pure_ok.mp h
    exact ⟨_, _, read⟩

theorem entry_unkeyed {ts : Tokens}
    (noKey : ∀ n, front ts = some (.ident n) → front ts.tail ≠ some (.symbol .colon)) :
    entry r ts = (exprWith r true >>= fun value => pure ⟨none, value⟩) ts := by
  rw [entry, bind_of_ok peek?_apply, bind_of_ok second?_apply]
  generalize front ts = first at noKey ⊢
  generalize front ts.tail = second at noKey ⊢
  split
  · exact absurd rfl (noKey _ rfl)
  · rfl

include again

theorem Rereads.name_alone {n : String} {s : Span} {e : Expr} {us : Tokens}
    (h : exprWith r' c (⟨.ident n, s⟩ :: us) = .ok (e, rest)) (ended : endsExpr c (front us) = true) : rest = us := by
  obtain ⟨mid, first, links⟩ := exprWith_ok h
  rw [again.name first (endsPrimary_of_endsExpr ended), whileSome_stop (link?_stops ended), Except.ok.injEq,
    Prod.mk.injEq] at links
  exact links.2.symm

theorem Rereads.entry {e : Entry} (h : Yields (exprWith r true) e.value)
    (short : (Canonical.entry style e).length < m) :
    Reads (entry r') (Canonical.entry style e) (Bare.entry e) endsEntry := by
  obtain ⟨key, value⟩ := e
  intro rest ended
  have endedExpr : endsExpr true (front rest) = true := (Bool.and_eq_true_iff.mp ended).1
  have noColon : front rest ≠ some (.symbol .colon) := of_decide_eq_true (Bool.and_eq_true_iff.mp ended).2
  cases key with
  | some key =>
    have shorter : (Canonical.expr style value).length < m := by
      simp only [Canonical.entry, List.length_cons] at short
      omega
    have read := again.expr style h shorter rest endedExpr
    simp [Grammar.entry, Canonical.entry, Bare.entry, Located.bare, read]
  | none =>
    have read := again.expr style h short rest endedExpr
    -- A value that is written as a name and a colon would end before the colon.
    have noKey : ∀ n, front (Canonical.expr style value ++ rest) = some (.ident n) →
        front (Canonical.expr style value ++ rest).tail ≠ some (.symbol .colon) := by
      intro n named colon
      cases tokens : Canonical.expr style value ++ rest with
      | nil => simp [tokens] at named
      | cons t us =>
        obtain ⟨u, s⟩ := t
        rw [tokens] at read named colon
        cases named
        have := again.name_alone read (by rw [List.tail_cons] at colon; rw [colon]; rfl)
        rw [this] at noColon
        exact noColon colon
    exact (entry_unkeyed noKey).trans (bind_of_ok read)

theorem Rereads.compositeBody {es : List Entry} (each : ∀ e ∈ es, Yields (exprWith r true) e.value)
    (short : (commaSep (Canonical.entries style es)).length < m) (ty : Located TypeExpr) (rest : Tokens) :
    compositeBody r' ty (sym .leftBrace :: (commaSep (Canonical.entries style es) ++ sym .rightBrace :: rest)) =
      .ok (.composite ty (Bare.entries es) (ty.span.union Span.none), rest) := by
  rw [Canonical.entries_eq_map] at short ⊢
  rw [Bare.entries_eq_map]
  have shortEach : ∀ e ∈ es, (Canonical.entry style e).length < m := fun e member =>
    Nat.lt_of_le_of_lt (length_le_commaSep_of_mem (List.mem_map_of_mem member)) short
  have read : commaList (.symbol .rightBrace) "`,` or `\x7d`" (Grammar.entry r')
      (commaSep (es.map (Canonical.entry style)) ++ sym .rightBrace :: rest) =
        .ok ((es.map Bare.entry, Span.none), rest) := by
    refine commaList_reads (fun e member => again.entry style (each e member) (shortEach e member)) ?_ rfl rfl
      (by decide)
    rintro ⟨key, value⟩ member
    cases key with
    | some key => exact ⟨_, rfl, nofun⟩
    | none =>
      obtain ⟨t, first, starts⟩ := again.expr_opens style (each _ member) (shortEach _ member)
      exact ⟨t, first, ne_of_allowed starts rfl⟩
  simp [Grammar.compositeBody, read]

end

end ViewLang.Grammar
