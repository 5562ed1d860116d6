import ViewLang.Proofs.Go.Chains
import ViewLang.Proofs.Go.ChannelFields
import ViewLang.Proofs.Grammar.Headers

namespace ViewLang

namespace Phrase

def bare : Phrase → Phrase
  | expr e => expr (Bare.expr e)
  | operator op => operator op
  | operand p => operand (Bare.primary p)
  | block b => block (Bare.block b)
  | stmt s => stmt (Bare.stmt s)
  | simple s => simple (Bare.simple s)
  | cond s => cond (Bare.ifStmt s)
  | header h => header (Bare.loopHeader h)

theorem phrases_bare_base (b : Base) : (Bare.base b).phrases = b.phrases.map bare := by
  cases b <;> simp [Bare.base, Base.phrases, bare]

theorem phrases_bare (p : Primary) : (Bare.primary p).phrases = p.phrases.map bare := by
  cases p with
  | template t =>
    obtain ⟨fs, s⟩ := t
    simp only [Bare.primary, Bare.template, Primary.phrases, Bare.fragments_eq_map, List.flatMap_map, List.map_flatMap]
    refine List.flatMap_congr fun f _ => ?_
    cases f <;> rfl
  | select b path s => exact phrases_bare_base b
  | call b path args s => simp [Bare.primary, Primary.phrases, Bare.exprs_eq_map, bare, phrases_bare_base]
  | slice target low high s => cases low <;> cases high <;> rfl
  | _ => simp [Bare.primary, Primary.phrases, Bare.entries_eq_map, Bare.exprs_eq_map, Bare.entry, bare]

theorem children_bare (whole : Phrase) : whole.bare.children = whole.children.map bare := by
  cases whole with
  | expr e =>
    obtain ⟨head, tail, s⟩ := e
    simp [children, bare, Bare.expr, Bare.links_eq_map, Bare.link, Link.phrases, List.flatMap_map, List.map_flatMap]
  | operator op => rfl
  | operand p => exact phrases_bare p
  | block b =>
    obtain ⟨ss, s⟩ := b
    simp [children, bare, Bare.block, Bare.stmts_eq_map]
  | stmt s =>
    cases s with
    | var d =>
      obtain ⟨ns, ty, values, s⟩ := d
      simp [children, bare, Bare.stmt, Stmt.phrases, Bare.varDecl, Bare.exprs_eq_map]
    | _ => simp [children, bare, Bare.stmt, Stmt.phrases, Bare.exprs_eq_map]
  | simple s =>
    cases s with
    | assign targets op values s =>
      have each : Phrase.expr ∘ Bare.expr = bare ∘ Phrase.expr := rfl
      by_cases postfixed : op.value.isPostfix = true <;>
        simp [children, bare, Bare.simple, SimpleStmt.phrases, Bare.exprs_eq_map, postfixed, each]
    | _ => simp [children, bare, Bare.simple, SimpleStmt.phrases, Bare.exprs_eq_map]
  | cond s =>
    obtain ⟨init, cond, body, otherwise, s⟩ := s
    cases init <;> cases otherwise <;> simp [children, bare, Bare.ifStmt, Bare.clause, Bare.orElse, Else.phrases]
  | header h =>
    cases h with
    | classic init cond post => cases init <;> cases cond <;> cases post <;> rfl
    | _ => simp [children, bare, Bare.loopHeader, LoopHeader.phrases]

theorem Within.bare {whole part : Phrase} (within : Within whole part) : Within whole.bare part.bare := by
  induction within with
  | refl => exact .refl
  | tail _ child ih =>
    refine ih.tail ?_
    rw [children_bare]
    exact List.mem_map_of_mem child

theorem exists_of_within_bare {whole part : Phrase} (within : Within whole.bare part) :
    ∃ inner, Within whole inner ∧ part = inner.bare := by
  induction within with
  | refl => exact ⟨whole, .refl, rfl⟩
  | tail _ child ih =>
    obtain ⟨inner, deeper, rfl⟩ := ih
    rw [children_bare] at child
    obtain ⟨below, member, rfl⟩ := List.mem_map.mp child
    exact ⟨below, deeper.tail member, rfl⟩

/-- What does not look at places holds throughout a phrase exactly if it does without the places. -/
theorem throughout_bare {P : Phrase → Prop} (same : ∀ part : Phrase, P part.bare ↔ P part) {whole : Phrase} :
    Throughout P whole.bare ↔ Throughout P whole := by
  constructor
  · exact fun holds part within => (same part).mp (holds part.bare within.bare)
  · intro holds part within
    obtain ⟨inner, deeper, rfl⟩ := exists_of_within_bare within
    exact (same inner).mpr (holds inner deeper)

end Phrase

namespace Go.Layout

open Grammar (AllFlat kinds core essential)

theorem plain_bare (part : Phrase) : Plain part.bare ↔ Plain part := by
  cases part with
  | operand p => cases p <;> rfl
  | _ => rfl

theorem plain_of_bare {e e' : Expr} (same : Bare.expr e' = Bare.expr e) (plain : AllPlain (.expr e)) :
    AllPlain (.expr e') := by
  rw [AllPlain, ← Phrase.throughout_bare plain_bare, Phrase.bare, same]
  exact (Phrase.throughout_bare plain_bare).mpr plain

theorem fields_bare (path : List Name) : fields (path.map Located.bare) = fields path := by
  simp [fields]

mutual

theorem expr_bare : (e : Expr) → expr (Bare.expr e) = expr e
  | ⟨head, tail, _⟩ => by
    rw [Bare.expr, expr, expr, primary_bare head, links_bare tail]

theorem links_bare : (ls : List Link) → links (Bare.links ls) = links ls
  | [] => rfl
  | ⟨op, operand⟩ :: ls => by
    rw [Bare.links, links, links, primary_bare operand, links_bare ls]
    rfl

theorem exprs_bare : (es : List Expr) → exprs (Bare.exprs es) = exprs es
  | [] => rfl
  | e :: es => by rw [Bare.exprs, exprs, exprs, expr_bare e, exprs_bare es]

theorem optional_bare : (o : Option Expr) → optional (Bare.optional o) = optional o
  | none => rfl
  | some e => expr_bare e

theorem entries_bare : (es : List Entry) → entries (Bare.entries es) = entries es
  | [] => rfl
  | ⟨none, value⟩ :: es => by
    rw [Bare.entries, Option.map_none, entries, entries, expr_bare value, entries_bare es]
  | ⟨some key, value⟩ :: es => by
    rw [Bare.entries, Option.map_some, entries, entries, expr_bare value, entries_bare es]
    rfl

theorem primary_bare : (p : Primary) → primary (Bare.primary p) = primary p
  | .int _ => rfl
  | .float _ => rfl
  | .string _ => rfl
  | .template _ => rfl
  | .composite ty es _ => by
    rw [Bare.primary, primary, primary, entries_bare es]
    rfl
  | .make ty args _ => by
    rw [Bare.primary, primary, primary, exprs_bare args]
    rfl
  | .index target i _ => by rw [Bare.primary, primary, primary, primary_bare target, expr_bare i]
  | .slice target low high _ => by
    rw [Bare.primary, primary, primary, primary_bare target, optional_bare low, optional_bare high]
  | .select b path _ => by rw [Bare.primary, primary, primary, base_bare b, fields_bare]
  | .call b path args _ => by rw [Bare.primary, primary, primary, base_bare b, fields_bare, exprs_bare args]
  | .func .. => rfl
  | .receive _ _ => rfl
  | .unary op operand _ => by rw [Bare.primary, primary, primary, primary_bare operand]
  | .paren inner => by rw [Bare.primary, primary, primary, expr_bare inner]

theorem base_bare : (b : Base) → base (Bare.base b) = base b
  | .name _ => rfl
  | .operand p => primary_bare p

end

theorem unpointed_of_legal {ts : Tokens} (legal : ∀ t ∈ ts, Lexer.Legal t.value) : Grammar.Unpointed ts := by
  intro n member point
  obtain ⟨t, inside, same⟩ := List.mem_map.mp member
  have name := legal t inside
  rw [same] at name
  have inWord := name.2.1 '.' point
  cases inWord

theorem AllPlain.flat {whole : Phrase} (plain : AllPlain whole) : AllFlat whole := by
  intro part within
  have here := plain part within
  cases part with
  | operand p => cases p <;> trivial
  | _ => trivial

/-- If tokens that were read are those of the pieces, up to symbols, then all of the pieces can be read again. -/
theorem readable_of_shown {used ts : Tokens} {ps : List Piece} (legal : ∀ t ∈ used, Lexer.Legal t.value)
    (shown : core used = core ts) (same : kinds ts = tokens ps) (quotable : AllQuotable ps) : AllReadable ps := by
  intro t member
  refine ⟨quotable t member, ?_⟩
  -- Only symbols are left out of the core, and every symbol is legal.
  by_cases needed : essential t = true
  · have inside : t ∈ core used := by
      rw [shown, core, same]
      exact List.mem_filter.mpr ⟨member, needed⟩
    obtain ⟨u, taken, rfl⟩ := List.mem_map.mp (Grammar.mem_kinds_of_mem_core inside)
    exact legal u taken
  · cases t with
    | symbol s => trivial
    | _ => exact absurd rfl needed

/-- The tokens of an expression that was read are legal, and so all of them can be read again. -/
theorem readable_of_read {ts rest : Tokens} {n : Nat} {c : Bool} {e : Expr}
    (legal : ∀ t ∈ ts, Lexer.Legal t.value) (read : Grammar.exprWith (Grammar.rules n) c ts = .ok (e, rest))
    (flat : AllFlat (.expr e)) (quotable : AllQuotable (expr e))
    (same : kinds (Canonical.expr .spare e) = tokens (expr e)) : AllReadable (expr e) := by
  obtain ⟨used, rfl, shown⟩ := Grammar.expr_consumes (unpointed_of_legal legal) read flat
  exact readable_of_shown (fun t taken => legal t (List.mem_append_left _ taken)) shown same quotable

theorem expr_generated (runtime : String) (u : SourceUnit) (level : Nat) (e : Expr) :
    answer (Lower.expr (plainEnv runtime u) level e) = Lexical.expr (plainEnv runtime u) [] level e :=
  (expr_runs (plainEnv runtime u) [] level e).answer

/-- The tokens of an expression that was read are read as the same expression. -/
theorem reread_of_kinds {ts us rest : Tokens} {n : Nat} {c : Bool} {e : Expr}
    (read : Grammar.exprWith (Grammar.rules n) c us = .ok (e, rest))
    (same : kinds (Canonical.expr .spare e) = kinds ts) :
    ∃ e', Grammar.expr c ts = .ok (e', []) ∧ Bare.expr e' = Bare.expr e := by
  have again := (Grammar.rules_reread n ((Canonical.expr .spare e).length + 1)).expr .spare ⟨us, rest, read⟩
    (Nat.lt_succ_self _) [] (by cases c <;> rfl)
  rw [List.append_nil] at again
  obtain ⟨e', more, read', alike, left⟩ := Grammar.expr_agree c _ ts same _ _ again
  obtain rfl : more = [] := List.map_eq_nil_iff.mp left.symm
  exact ⟨e', read', by rw [← alike, Bare.expr_idem]⟩

/-- What is read from the text of an expression without function literals and templates is not the expression if pieces
of it are glued. -/
theorem not_reread_of_glued (runtime : String) (u : SourceUnit) {ts : Tokens} {c : Bool} {e e' : Expr}
    (plain : AllPlain (.expr e)) (readable : AllReadable (expr e)) (broken : ¬ (expr e).IsChain Piece.Joins)
    (lexed : tokenize (String.ofList (render (expr e))) = .ok ts) (read : Grammar.expr c ts = .ok (e', [])) :
    Bare.expr e' ≠ Bare.expr e := by
  -- The tokens that were read would be those of the pieces of `e'`, which are those of `e`.
  intro same
  have plain' := plain_of_bare same plain
  have pieces : expr e' = expr e := by
    rw [← expr_bare e', same, expr_bare]
  have kinds' : kinds (Canonical.expr .spare e') = tokens (expr e') :=
    (expr_lays runtime u [] 0 e' plain').kinds
  obtain ⟨used, whole, shown⟩ :=
    Grammar.expr_consumes (unpointed_of_legal (Lexer.tokenize_legal lexed)) read plain'.flat
  rw [List.append_nil] at whole
  refine tokenize_glued (expr_meets plain.flat readable) broken readable lexed ?_
  rw [whole, shown, core, kinds', pieces]

/-- A plain expression that was read somewhere in a source is generated as text that is read as the same expression, all
of it, exactly if no operand in it runs together. Where composite literals may stand is the same or wider. -/
theorem generated_rereads_iff {source : String} {ts us rest : Tokens} {n : Nat} {c c' : Bool} {e : Expr}
    (runtime : String) (u : SourceUnit) (level : Nat) (lexed : tokenize source = .ok ts) (inside : us <:+ ts)
    (read : Grammar.exprWith (Grammar.rules n) c us = .ok (e, rest)) (plain : AllPlain (.expr e))
    (wider : c = true → c' = true) :
    let text := answer (Lower.expr (plainEnv runtime u) level e)
    (∃ ts' e', tokenize text = .ok ts' ∧ Grammar.expr c' ts' = .ok (e', []) ∧ Bare.expr e' = Bare.expr e) ↔
      ∀ p, Phrase.Within (.expr e) (.operand p) → ¬ RunsTogether p := by
  intro text
  have legal : ∀ t ∈ us, Lexer.Legal t.value := fun t member => Lexer.tokenize_legal lexed t (inside.subset member)
  have lays := expr_lays runtime u [] level e plain
  have readable := readable_of_read legal read plain.flat lays.quotable lays.kinds
  have written : text = String.ofList (render (expr e)) := by
    rw [← lays.chars, String.ofList_toList]
    exact expr_generated runtime u level e
  rw [written, ← expr_joins_iff plain.flat readable]
  constructor
  · rintro ⟨ts', e', lexed', read', same⟩
    by_contra broken
    exact not_reread_of_glued runtime u plain readable broken lexed' read' same
  · intro chain
    obtain ⟨ts', lexed', same⟩ := tokenize_joined chain readable
    obtain ⟨e', read', alike⟩ := reread_of_kinds read (lays.kinds.trans same.symm)
    exact ⟨ts', e', lexed', Grammar.expr_extends wider read', alike⟩

def signedReceive : Expr :=
  ⟨.unary .neg (.receive ⟨"in", ⟨4, 6⟩⟩ ⟨2, 6⟩) ⟨0, 6⟩, [⟨⟨.mul, ⟨7, 8⟩⟩, .float ⟨"1.", ⟨9, 11⟩⟩⟩], ⟨0, 11⟩⟩

theorem throughout_signedReceive {P : Phrase → Prop} :
    Phrase.Throughout P (.expr signedReceive) ↔ P (.expr signedReceive) ∧ P (.operand signedReceive.head) ∧
      P (.operand (.receive ⟨"in", ⟨4, 6⟩⟩ ⟨2, 6⟩)) ∧ P (.operator .mul) ∧ P (.operand (.float ⟨"1.", ⟨9, 11⟩⟩)) := by
  have leaf (p : Phrase) (alone : p.children = []) : Phrase.Throughout P p ↔ P p := by
    rw [Phrase.throughout_iff, alone]
    simp
  rw [Phrase.throughout_expr]
  simp [signedReceive, Phrase.throughout_unary, Phrase.throughout_operator, leaf (.operand (.receive ..)) rfl,
    leaf (.operand (.float _)) rfl, and_assoc]

theorem generated_rereads_iff_receive : ∃ ts, tokenize "- <-in * 1." = .ok ts ∧
    Grammar.exprWith (Grammar.rules 3) false ts = .ok (signedReceive, []) ∧ AllPlain (.expr signedReceive) ∧
    let text := answer (Lower.expr (plainEnv "rt" ⟨⟨"main", .none⟩, [], [], [], [], [], []⟩) 0 signedReceive)
    text = "-<-in * 1." ∧ ∃ ts' e', tokenize text = .ok ts' ∧ Grammar.expr true ts' = .ok (e', []) ∧
      Bare.expr e' = Bare.expr signedReceive := by
  have lexed : tokenize "- <-in * 1." = .ok [⟨.symbol .minus, ⟨0, 1⟩⟩, ⟨.symbol .arrow, ⟨2, 4⟩⟩,
      ⟨.ident "in", ⟨4, 6⟩⟩, ⟨.symbol .star, ⟨7, 8⟩⟩, ⟨.float "1.", ⟨9, 11⟩⟩] := by decide +kernel
  have read : Grammar.exprWith (Grammar.rules 3) false [⟨.symbol .minus, ⟨0, 1⟩⟩, ⟨.symbol .arrow, ⟨2, 4⟩⟩,
      ⟨.ident "in", ⟨4, 6⟩⟩, ⟨.symbol .star, ⟨7, 8⟩⟩, ⟨.float "1.", ⟨9, 11⟩⟩] = .ok (signedReceive, []) := rfl
  have plain : AllPlain (.expr signedReceive) :=
    throughout_signedReceive.mpr ⟨trivial, trivial, trivial, trivial, trivial⟩
  have apart : Phrase.Throughout (OnOperands fun p => ¬ RunsTogether p) (.expr signedReceive) :=
    throughout_signedReceive.mpr ⟨trivial, nofun, id, trivial, id⟩
  refine ⟨_, lexed, read, plain, by decide +kernel, ?_⟩
  exact (generated_rereads_iff "rt" ⟨⟨"main", .none⟩, [], [], [], [], [], []⟩ 0 lexed (List.suffix_refl _) read plain
    nofun).mpr fun p within => apart (.operand p) within

/-- Two signs in front of a name are generated as one symbol, which starts no expression. -/
theorem signs_merge : ∃ ts e, tokenize "- -y" = .ok ts ∧ Grammar.expr true ts = .ok (e, []) ∧ AllPlain (.expr e) ∧
    let text := answer (Lower.expr (plainEnv "rt" ⟨⟨"main", .none⟩, [], [], [], [], [], []⟩) 0 e)
    text = "--y" ∧ tokenize text = .ok [⟨.symbol .minusMinus, ⟨0, 2⟩⟩, ⟨.ident "y", ⟨2, 3⟩⟩] ∧
      ∀ ts' e' rest, tokenize text = .ok ts' → Grammar.expr true ts' ≠ .ok (e', rest) := by
  have lexed : tokenize "- -y" = .ok [⟨.symbol .minus, ⟨0, 1⟩⟩, ⟨.symbol .minus, ⟨2, 3⟩⟩, ⟨.ident "y", ⟨3, 4⟩⟩] := by
    decide +kernel
  have read : Grammar.expr true [⟨.symbol .minus, ⟨0, 1⟩⟩, ⟨.symbol .minus, ⟨2, 3⟩⟩, ⟨.ident "y", ⟨3, 4⟩⟩] =
    .ok (⟨.unary .neg (.unary .neg (.select (.name ⟨"y", ⟨3, 4⟩⟩) [] ⟨3, 4⟩) ⟨2, 4⟩) ⟨0, 4⟩, [], ⟨0, 4⟩⟩, []) := rfl
  have name : AllPlain (.operand (.select (.name ⟨"y", ⟨3, 4⟩⟩) [] ⟨3, 4⟩)) :=
    Phrase.throughout_iff.mpr ⟨trivial, nofun⟩
  have signed : AllPlain (.operand (.unary .neg (.unary .neg _ ⟨2, 4⟩) ⟨0, 4⟩)) :=
    Phrase.throughout_unary.mpr ⟨trivial, Phrase.throughout_unary.mpr ⟨trivial, name⟩⟩
  refine ⟨_, _, lexed, read, Phrase.throughout_expr.mpr ⟨trivial, signed, nofun⟩, ?_⟩
  intro text
  have written : text = "--y" := by decide +kernel
  have merged : tokenize text = .ok [⟨.symbol .minusMinus, ⟨0, 2⟩⟩, ⟨.ident "y", ⟨2, 3⟩⟩] := by
    rw [written]
    decide +kernel
  refine ⟨written, merged, ?_⟩
  intro ts' e' rest lexed'
  cases merged.symm.trans lexed'
  nofun

end Go.Layout
end ViewLang
