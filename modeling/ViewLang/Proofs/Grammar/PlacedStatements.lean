import ViewLang.Proofs.Grammar.PlacedExprs

namespace ViewLang.Grammar

open Places Reader

variable {source : List Char}

section

variable {r : Rules} (rules : RulesPlace source r)

include rules

theorem puts_assignRest {c : Bool} {first : Expr} {more : List Expr} {op : Located AssignOp} {lo₀ m lo : Nat}
    (targets : Lies source lo₀ m (row ((first :: more).map Expr.places))) (taken : Taken source m op.span lo) :
    Puts source lo (assignRest r c (first :: more) first.span op) fun s hi => Lies source lo₀ hi s.places := by
  obtain ⟨low, ⟨less, -⟩, ordered, further, high, ⟨less', -⟩, inside⟩ := lies_exprs first.span targets
  obtain ⟨rfl, behind, proper, within⟩ := taken
  have operator : Lies source op.span.start op.span.stop op.place :=
    ⟨Nat.le_refl _, Nat.le_refl _, ⟨proper, within⟩, trivial⟩
  unfold assignRest
  split
  · refine .pure ?_
    rw [SimpleStmt.places, Expr.each_eq]
    refine lies_part low (Nat.le_refl _) less (by omega) (by omega) within ?_
    refine inside.next (by omega) (by omega) ((operator.lower (by omega)).next (by omega) (Nat.le_refl _) ?_)
    rw [Expr.each_eq]
    trivial
  · refine (puts_exprList rules c _).within.bind ?_
    rintro _ m' le' ⟨⟨value, values, rfl⟩, listed⟩
    obtain ⟨low₂, ⟨less₂, -⟩, ordered₂, further₂, high₂, ⟨less₃, within₃⟩, inside₂⟩ := lies_exprs op.span listed
    refine .pure ?_
    rw [SimpleStmt.places, Expr.each_eq, Expr.each_eq]
    refine lies_part low high₂ less (by omega) (by omega) within₃ ?_
    refine inside.next (by omega) (by omega) ((operator.lower (by omega)).next (by omega) (by omega) ?_)
    exact inside₂.lower low₂

theorem placing_simpleStmt (c : Bool) : Placing source (simpleStmt r c) SimpleStmt.places := by
  intro lo
  refine (puts_exprList rules c lo).bind ?_
  rintro _ m le ⟨⟨first, more, rfl⟩, listed⟩ ts ahead
  obtain ⟨low, ⟨less, -⟩, ordered, further, high, ⟨less', within⟩, inside⟩ := lies_exprs first.span listed
  have alone : Puts source m (pure (exprStmt (first :: more) first.span)) fun s hi => Lies source lo hi s.places := by
    refine .pure ?_
    rw [exprStmt, SimpleStmt.places, Expr.each_eq]
    exact lies_part low high less ordered further within inside
  refine .next ?_
  cases ts with
  | nil => exact alone _ ahead
  | cons t ts =>
    rw [List.head?_cons, List.head?_cons]
    dsimp only [Option.map_some, Option.getD_some]
    split
    · exact .skip ahead (puts_assignRest rules listed ⟨rfl, ahead.head⟩)
    · rename_i channel _ one
      obtain ⟨rfl, rfl⟩ := List.cons.inj one
      split
      · refine .skip ahead ((placing_exprWith rules c _).within.bind fun value m' le' lies => .pure ?_)
        obtain ⟨start, stop, ⟨less₂, within₂⟩, tight⟩ := lies.within value.extent
        obtain ⟨m₀, low₀, high₀, sent, -⟩ := inside
        have behind := ahead.le_stop
        rw [SimpleStmt.places]
        refine lies_part low stop less (by omega) (by omega) within₂ ?_
        exact sent.next (by omega) (by omega) (tight.lower (by omega))
      · exact alone _ ahead
    · exact alone _ ahead

theorem placing_varDecl : Placing source (varDecl r) VarDecl.places := by
  intro lo
  rw [varDecl_eq]
  refine (puts_expect _ _).bind ?_
  rintro start _ le ⟨rfl, low, less, -⟩
  have typed (m : Nat) : Puts source m typeIfAny fun ty hi => Lies source m hi (maybe Located.place ty) := by
    refine puts_peek.bind fun next m' le' _ => ?_
    split
    · exact .map ((placing_type m').imp fun ty hi _ lies => lies.lower le')
    · exact .pure trivial
  have valued (m : Nat) : Puts source m (valuesIfAny r) fun es hi =>
      Lies source m hi (row (es.map Expr.places)) := by
    refine (puts_eat _).bind ?_
    rintro (_ | s) m' le' _
    · exact .pure trivial
    · exact (puts_exprList rules true m').imp fun es hi _ ⟨_, lies⟩ => lies.lower le'
  refine .within ((placing_identList _).bind fun names m₁ le₁ named => (typed m₁).bind fun ty m₂ le₂ lies =>
    (valued m₂).bind fun values m₃ le₃ listed => ?_)
  unfold varEnd
  split
  · rename_i value last
    cases values with
    | nil => cases last
    | cons first more =>
      obtain ⟨low₂, ⟨less₂, -⟩, ordered, further, high, ⟨less₃, within⟩, inside⟩ := lies_exprs start listed
      have same : lastSpan start (first :: more) = value.span := by rw [lastSpan, last]; rfl
      rw [same] at ordered further high less₃ within inside
      refine .pure ?_
      rw [VarDecl.places, Expr.each_eq]
      refine lies_part low high less (by omega) (by omega) within ?_
      refine (named.lower (by omega)).next (by omega) (by omega) (lies.next le₂ (by omega) ?_)
      exact inside.lower low₂
  · rename_i t last
    obtain ⟨start', stop', ⟨less', within⟩, -⟩ := lies
    have empty : values = [] := List.getLast?_eq_none_iff.mp last
    subst empty
    refine .pure ?_
    rw [VarDecl.places, Expr.each_eq]
    refine lies_part low (by omega) less (by omega) (by omega) within ?_
    refine (named.lower (by omega)).next (by omega) (by omega) ?_
    refine ⟨t.span.stop, by omega, Nat.le_refl _, ?_, trivial⟩
    exact ⟨start', Nat.le_refl _, ⟨less', within⟩, trivial⟩
  · exact puts_fail _

theorem placing_returnStmt : Placing source (returnStmt r) Stmt.places := by
  intro lo
  refine (puts_expect _ _).bind ?_
  rintro start _ le ⟨rfl, low, less, within⟩
  refine puts_peek.bind fun next m le' _ => ?_
  split
  · refine (puts_exprList rules true m).within.bind ?_
    rintro _ m' le₂ ⟨⟨value, values, rfl⟩, listed⟩
    obtain ⟨low₂, ⟨less₂, -⟩, ordered, further, high, ⟨less₃, within₃⟩, inside⟩ := lies_exprs start listed
    refine .pure ?_
    rw [Stmt.places, Expr.each_eq]
    exact lies_part low high less (by omega) (by omega) within₃ (inside.lower (by omega))
  · have nothing : Puts source m (Pure.pure ([] : List Expr)) fun es hi => es = [] ∧ hi = m := .pure ⟨rfl, rfl⟩
    refine nothing.bind ?_
    rintro _ _ _ ⟨rfl, rfl⟩
    refine .pure ?_
    rw [Stmt.places, Expr.each_eq]
    exact lies_part low le' less (Nat.le_refl _) (Nat.le_refl _) within trivial

omit rules in
theorem placing_branchStmt : Placing source branchStmt Stmt.places := by
  intro lo
  have branch (kind : BranchKind) {s : Span} {hi : Nat} (taken : Taken source lo s hi) :
      Lies source lo hi (Stmt.branch kind s).places := by
    obtain ⟨rfl, low, proper⟩ := taken
    rw [Stmt.places]
    exact ⟨low, Nat.le_refl _, proper, trivial⟩
  refine (puts_eat _).bind ?_
  rintro (_ | s) m le taken
  · refine (puts_expect _ _).bind ?_
    rintro s _ le' ⟨rfl, low, proper⟩
    exact .pure (branch _ ⟨rfl, Nat.le_trans le low, proper⟩)
  · exact .pure (branch _ (taken s rfl))

omit rules in
theorem puts_asCondition {s : SimpleStmt} {lo₀ lo : Nat} (lies : Lies source lo₀ lo s.places) :
    Puts source lo (asCondition s) fun e hi => Lies source lo₀ hi e.places := by
  unfold asCondition
  split
  · rw [SimpleStmt.places, Expr.each_eq] at lies
    obtain ⟨low, high, proper, m, low', high', first, -⟩ := lies
    exact .pure (first.mono low (by omega))
  · exact puts_fail _

theorem placing_ifHeader :
    Placing source (ifHeader r) fun x => next (maybe SimpleStmt.places x.1) x.2.places := by
  intro lo
  refine (placing_simpleStmt rules false lo).bind fun first m le lies => (puts_eat _).bind ?_
  rintro (_ | s) m' le' _
  · refine (puts_asCondition (lies.raise le')).bind fun cond m₂ le₂ lies' => .pure ?_
    exact Lies.next (x := .none) trivial (Nat.le_refl _) (by omega) lies'
  · refine (placing_exprWith rules false m').bind fun cond m₂ le₂ lies' => .pure ?_
    exact (lies.raise le').next (by omega) le₂ lies'

theorem placing_ifStep : Placing source (ifStep r) IfStmt.places := by
  intro lo
  refine (puts_expect _ _).bind ?_
  rintro start _ le ⟨rfl, low, less, -⟩
  refine (placing_ifHeader rules _).bind ?_
  rintro ⟨init, cond⟩ m₁ le₁ ⟨m₀, low₀, high₀, inits, conds⟩
  refine (rules.block m₁).bind fun body m₂ le₂ inside => ?_
  obtain ⟨start₂, stop₂, ⟨less₂, within₂⟩, tight₂⟩ := inside.within body.extent
  have first : start.union body.span = ⟨start.start, body.span.stop⟩ := Span.union_eq (by omega) (by omega)
  have reach : start.start < body.span.stop := by omega
  -- What follows the block only moves the end of the whole.
  have whole (otherwise : Places) {hi : Nat} (le : body.span.stop ≤ hi)
      (lies : Lies source body.span.stop hi otherwise) :
      Lies source start.start hi
        (next (maybe SimpleStmt.places init) (next cond.places (next body.places otherwise))) := by
    refine (inits.lower (Nat.le_of_lt less)).next (by omega) (by omega) (conds.next high₀ (by omega) ?_)
    exact (tight₂.lower start₂).next (by omega) le lies
  dsimp only
  rw [first]
  refine (puts_eat _).bind ?_
  rintro (_ | s) m₃ le₃ _
  · refine .pure ?_
    rw [IfStmt.places_mk]
    refine ⟨low, by dsimp only; omega, ⟨reach, within₂⟩, whole _ (Nat.le_refl _) ?_⟩
    rw [Else.places]
    trivial
  · refine (puts_at _).bind fun chained m₄ le₄ _ => ?_
    split
    · refine (rules.ifStmt m₄).bind fun nested m₅ le₅ lies => .pure ?_
      obtain ⟨start₅, stop₅, ⟨less₅, within₅⟩, tight₅⟩ := lies.within nested.extent
      rw [IfStmt.places_mk]
      refine lies_part low stop₅ reach (by dsimp only; omega) (by dsimp only; omega) within₅ ?_
      rw [Else.places]
      exact whole _ (by omega) (tight₅.lower (by omega))
    · refine (rules.block m₄).bind fun block m₅ le₅ lies => .pure ?_
      obtain ⟨start₅, stop₅, ⟨less₅, within₅⟩, tight₅⟩ := lies.within block.extent
      rw [IfStmt.places_mk]
      refine lies_part low stop₅ reach (by dsimp only; omega) (by dsimp only; omega) within₅ ?_
      rw [Else.places]
      exact whole _ (by omega) (tight₅.lower (by omega))

def rangeNames (x : Option Name × Option Name) : Places := next (maybe word x.1) (maybe word x.2)

omit rules in
theorem puts_rangeVars (lo : Nat) :
    Puts source lo rangeVars? fun o hi => ∀ x ∈ o, Lies source lo hi (rangeNames x) := by
  intro ts ahead vars rest read
  have nothing : ∃ hi, lo ≤ hi ∧ Ahead source hi ts ∧ ∀ x ∈ (none : Option (Option Name × Option Name)),
      Lies source lo hi (rangeNames x) := ⟨lo, Nat.le_refl _, ahead, nofun⟩
  unfold rangeVars? at read
  split at read
  · rename_i names mark _ _ after listed
    obtain ⟨hi, le, ahead', named⟩ := placing_identList lo ts ahead _ _ listed
    have further := ahead'.suffix ((List.suffix_cons _ _).trans (List.suffix_cons _ _))
    split at read
    · split at read
      · cases read
        obtain ⟨m, low, high, key, -⟩ := named
        refine ⟨hi, le, further, ?_⟩
        rintro _ ⟨⟩
        exact ⟨m, low, high, key, trivial⟩
      · cases read
        obtain ⟨m, low, high, key, m', low', high', value, -⟩ := named
        refine ⟨hi, le, further, ?_⟩
        rintro _ ⟨⟩
        exact ⟨m, low, high, key, value.raise high'⟩
      · cases read
        exact nothing
    · cases read
      exact nothing
  · cases read
    exact nothing

theorem puts_rangeClause (lo : Nat) : Puts source lo (rangeClause? r) fun o hi =>
    ∀ x ∈ o, Lies source lo hi (LoopHeader.range x.1 x.2.1 x.2.2).places := by
  have iterable := placing_exprWith rules false
  refine (puts_eat _).bind ?_
  rintro (_ | s) m le _
  · refine (puts_rangeVars m).bind ?_
    rintro (_ | ⟨key, value⟩) m' le' named
    · exact .pure nofun
    · refine (iterable m').within.bind fun e m₂ le₂ lies => .pure ?_
      rintro _ ⟨⟩
      obtain ⟨m₀, low, high, keyed, valued⟩ := named _ rfl
      rw [LoopHeader.places]
      exact (keyed.lower le).next (by omega) (by omega) (valued.next high le₂ lies)
  · refine (iterable m).within.bind fun e m₂ le₂ lies => .pure ?_
    rintro _ ⟨⟩
    rw [LoopHeader.places]
    exact Lies.next (x := .none) trivial le le₂ (Lies.next (x := .none) trivial (Nat.le_refl _) le₂ lies)

theorem puts_classicRest {init : Option SimpleStmt} {lo₀ lo : Nat} (le : lo₀ ≤ lo)
    (inits : Lies source lo₀ lo (maybe SimpleStmt.places init)) :
    Puts source lo (classicRest r init) fun h hi => Lies source lo₀ hi h.places := by
  rw [classicRest_eq]
  refine ((placing_exprWith rules false).unlessAt _ lo).bind fun cond m₁ le₁ conds => (puts_expect _ _).bind
    fun _ m₂ le₂ _ => ((placing_simpleStmt rules false).unlessAt _ m₂).bind fun post m₃ le₃ posts => .pure ?_
  rw [LoopHeader.places_classic]
  exact inits.next le (by omega) ((conds.raise le₂).next (by omega) le₃ posts)

theorem placing_forHeader : Placing source (forHeader r) LoopHeader.places := by
  intro lo
  rw [forHeader_eq]
  refine (puts_at _).bind fun infinite m le _ => ?_
  split
  · refine .pure ?_
    rw [LoopHeader.places]
    trivial
  · refine (puts_rangeClause rules m).bind ?_
    rintro (_ | ⟨key, value, iterable⟩) m₁ le₁ ranged
    · refine ((placing_simpleStmt rules false).unlessAt _ m₁).bind fun init m₂ le₂ inits => (puts_eat _).bind ?_
      rintro (_ | s) m₃ le₃ _
      · cases init with
        | none => exact puts_fail _
        | some stmt =>
          have inits' : Lies source lo m₃ _ := inits.mono (by omega) le₃
          refine .map ((puts_asCondition inits').imp ?_)
          intro e hi _ lies
          rw [LoopHeader.places]
          exact lies
      · exact puts_classicRest rules (by omega) (inits.mono (by omega) le₃)
    · exact .pure ((ranged _ rfl).lower le)

theorem placing_forStmt : Placing source (forStmt r) Stmt.places := by
  intro lo
  refine (puts_expect _ _).bind ?_
  rintro start _ le ⟨rfl, low, less, -⟩
  refine (placing_forHeader rules _).bind fun header m₁ le₁ headed => (rules.block m₁).bind fun body m₂ le₂ inside =>
    .pure ?_
  obtain ⟨start', stop', ⟨less', within⟩, tight⟩ := inside.within body.extent
  rw [Stmt.places]
  refine lies_part low stop' less (by omega) (by omega) within ?_
  exact (headed.lower (Nat.le_of_lt less)).next (by omega) (by omega) (tight.lower start')

theorem placing_plainStmt : Placing source (plainStmt r) Stmt.places := by
  intro lo ts ahead s rest read
  obtain ⟨simple, read', -, rfl⟩ := plainStmt_ok read
  obtain ⟨hi, le, ahead', lies⟩ := placing_simpleStmt rules true lo ts ahead simple rest read'
  refine ⟨hi, le, ahead', ?_⟩
  dsimp only
  rw [Stmt.places]
  exact lies

theorem placing_statementWith : Placing source (statementWith r) Stmt.places := by
  intro lo ts ahead
  refine .peek ?_
  split
  · exact puts_fail _ _ ahead
  · split
    · refine Puts.map ((placing_varDecl rules lo).imp ?_) _ ahead
      intro d hi _ lies
      rw [Stmt.places]
      exact lies
    · exact placing_returnStmt rules lo _ ahead
    · exact placing_branchStmt lo _ ahead
    · exact placing_branchStmt lo _ ahead
    · refine Puts.map ((rules.ifStmt lo).imp ?_) _ ahead
      intro s hi _ lies
      rw [Stmt.places]
      exact lies
    · exact placing_forStmt rules lo _ ahead
    · exact placing_plainStmt rules lo _ ahead

theorem placing_blockStep : Placing source (blockStep r) Block.places := by
  intro lo
  refine (puts_expect _ _).bind ?_
  rintro start _ le ⟨rfl, low, less, -⟩
  refine ((placing_statementWith rules).items _ fun _ => puts_dropWhile _).bind ?_
  rintro ⟨stmts, close⟩ hi le' closes
  refine .pure ?_
  rw [Block.places, Stmt.each_eq]
  exact closes.part low less (Nat.le_refl _)

end

theorem rules_place (n : Nat) : RulesPlace source (rules n) := by
  induction n with
  | zero => exact ⟨fun _ _ => puts_fail _, fun _ => puts_fail _, fun _ => puts_fail _⟩
  | succ n ih => exact ⟨placing_primaryStep ih, placing_blockStep ih, placing_ifStep ih⟩

/-- A reader that has the rules to the depth that its tokens allow. -/
theorem puts_nested {α : Type} {p : Rules → Reader α} {lo : Nat} {post : α → Nat → Prop}
    (each : ∀ {r}, RulesPlace source r → Puts source lo (p r) post) : Puts source lo (nested p) post :=
  .sized fun n => each (rules_place (n + 1))

end ViewLang.Grammar
