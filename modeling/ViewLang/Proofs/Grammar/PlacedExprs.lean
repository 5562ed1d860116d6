import ViewLang.Proofs.Grammar.Placing

namespace ViewLang

open Places

theorem Expr.extent (e : Expr) : e.places.extent? = some e.span := by
  cases e
  rw [Expr.places]
  rfl

theorem Template.extent (t : Template) : t.places.extent? = some t.span := by
  cases t
  rw [Template.places]
  rfl

theorem Primary.places_slice (target : Primary) (low high : Option Expr) (span : Span) :
    (Primary.slice target low high span).places =
      part span (next target.places (next (maybe Expr.places low) (maybe Expr.places high))) := by
  cases low <;> cases high <;> rw [Primary.places] <;> rfl

theorem Primary.extent (p : Primary) : p.places.extent? = some p.span := by
  cases p with
  | template t =>
    rw [Primary.places]
    exact t.extent
  | paren inner =>
    rw [Primary.places]
    exact inner.extent
  | slice target low high span =>
    rw [Primary.places_slice]
    rfl
  | _ =>
    rw [Primary.places]
    rfl

theorem Block.extent (b : Block) : b.places.extent? = some b.span := by
  cases b
  rw [Block.places]
  rfl

theorem IfStmt.places_mk (init : Option SimpleStmt) (cond : Expr) (body : Block) (otherwise : Else) (span : Span) :
    IfStmt.places ⟨init, cond, body, otherwise, span⟩ =
      part span (next (maybe SimpleStmt.places init) (next cond.places (next body.places otherwise.places))) := by
  cases init <;> rw [IfStmt.places] <;> rfl

theorem IfStmt.extent (s : IfStmt) : s.places.extent? = some s.span := by
  cases s
  rw [IfStmt.places_mk]
  rfl

theorem LoopHeader.places_classic (init : Option SimpleStmt) (cond : Option Expr) (post : Option SimpleStmt) :
    (LoopHeader.classic init cond post).places =
      next (maybe SimpleStmt.places init) (next (maybe Expr.places cond) (maybe SimpleStmt.places post)) := by
  cases init <;> cases cond <;> cases post <;> rw [LoopHeader.places] <;> rfl

namespace Grammar

open Reader

variable {source : List Char}

/-- The range of a chain goes from its first operand through its last. -/
theorem lies_chain {links : List Link} {acc : Span} {lo hi : Nat} (proper : Proper source acc) (le : acc.stop ≤ lo)
    (high : lo ≤ hi) (lies : Lies source lo hi (row (links.map Link.places))) :
    let whole := links.foldl (fun span link => span.union link.operand.span) acc
    whole.start = acc.start ∧ acc.stop ≤ whole.stop ∧ whole.stop ≤ hi ∧ Proper source whole ∧
      Lies source acc.stop whole.stop (row (links.map Link.places)) := by
  induction links generalizing acc lo with
  | nil => exact ⟨rfl, Nat.le_refl _, Nat.le_trans le high, proper, trivial⟩
  | cons l links ih =>
    obtain ⟨m, low₁, high₁, ⟨m', low₂, high₂, op, operand⟩, others⟩ := lies
    obtain ⟨start, stop, ⟨less, within⟩, tight⟩ := operand.within l.operand.extent
    have grown : acc.union l.operand.span = ⟨acc.start, l.operand.span.stop⟩ := by
      have := proper.1
      exact Span.union_eq (by omega) (by omega)
    have proper' : Proper source (acc.union l.operand.span) := by
      rw [grown]
      have := proper.1
      exact ⟨by dsimp only; omega, within⟩
    obtain ⟨first, last, bounded, whole, inside⟩ := ih proper' (by rw [grown]; exact stop) high₁ others
    rw [grown] at first last inside
    rw [List.foldl_cons]
    dsimp only at *
    refine ⟨by rw [grown, first], by rw [grown]; omega, bounded, whole, l.operand.span.stop, by omega, ?_, ?_, ?_⟩
    · rw [grown]
      exact last
    · exact (op.lower (by omega)).next (by omega) (by omega) (tight.lower start)
    · rw [grown]
      exact inside

/-- Expressions in a row, with the range from the first through the last. -/
theorem lies_exprs {e : Expr} {es : List Expr} {lo hi : Nat} (other : Span)
    (lies : Lies source lo hi (row ((e :: es).map Expr.places))) :
    let last := lastSpan other (e :: es)
    lo ≤ e.span.start ∧ Proper source e.span ∧ e.span.start ≤ last.start ∧ e.span.stop ≤ last.stop ∧
      last.stop ≤ hi ∧ Proper source last ∧ Lies source e.span.start last.stop (row ((e :: es).map Expr.places)) := by
  induction es generalizing e lo with
  | nil =>
    obtain ⟨m, low, high, first, -⟩ := lies
    obtain ⟨start, stop, proper, tight⟩ := first.within e.extent
    exact ⟨start, proper, Nat.le_refl _, Nat.le_refl _, Nat.le_trans stop high, proper,
      lies_row_single tight (Nat.le_of_lt proper.1)⟩
  | cons e' es ih =>
    obtain ⟨m, low, high, first, others⟩ := lies
    obtain ⟨start, stop, proper, tight⟩ := first.within e.extent
    obtain ⟨start', proper', ordered, further, stop', whole, inside⟩ := ih others
    have same : lastSpan other (e :: e' :: es) = lastSpan other (e' :: es) := by simp [lastSpan]
    have less := proper.1
    have less' := proper'.1
    rw [same]
    refine ⟨start, proper, by omega, by omega, stop', whole, ?_⟩
    exact tight.next (by omega) (by omega) (inside.lower (by omega))

structure RulesPlace (source : List Char) (r : Rules) : Prop where
  primary : ∀ c, Placing source (r.primary c) Primary.places
  block : Placing source r.block Block.places
  ifStmt : Placing source r.ifStmt IfStmt.places

section

variable {r : Rules} (rules : RulesPlace source r)

include rules

theorem puts_link (c : Bool) (lo : Nat) :
    Puts source lo (link? r c) fun o hi => ∀ l ∈ o, Lies source lo hi l.places := by
  intro ts ahead
  refine .next ?_
  cases ts with
  | nil => exact Puts.pure (nofun) _ ahead
  | cons t ts =>
    rw [List.head?_cons]
    dsimp only
    split
    · exact Puts.pure (nofun) _ ahead
    · refine .skip ahead ((rules.primary c _).within.bind fun operand hi le lies => .pure ?_)
      rintro _ ⟨⟩
      exact ahead.mark.next ahead.le_stop le lies

theorem placing_exprWith (c : Bool) : Placing source (exprWith r c) Expr.places := by
  intro lo
  refine (rules.primary c lo).bind fun head m le first => (Puts.whileSome (puts_link rules c)).bind
    fun tail hi le' links => .pure ?_
  obtain ⟨start, stop, proper, tight⟩ := first.within head.extent
  obtain ⟨begins, further, bounded, whole, inside⟩ := lies_chain proper stop le' links
  have less := proper.1
  rw [Expr.places, Link.each_eq]
  refine ⟨by rw [begins]; exact start, bounded, whole, ?_⟩
  rw [begins]
  exact tight.next (by omega) further inside

theorem puts_commaExpr (c : Bool) (lo : Nat) :
    Puts source lo (commaExpr? r c) fun o hi => ∀ e ∈ o, Lies source lo hi e.places := by
  refine (puts_eat _).bind ?_
  rintro (_ | s) m le _
  · exact .pure nofun
  · refine .map ((placing_exprWith rules c m).within.imp fun e hi _ lies => ?_)
    rintro _ ⟨⟩
    exact lies.lower le

/-- At least one expression is read, and all of them in a row. -/
theorem puts_exprList (c : Bool) (lo : Nat) : Puts source lo (exprListWith r c) fun es hi =>
    (∃ first more, es = first :: more) ∧ Lies source lo hi (row (es.map Expr.places)) := by
  rw [exprListWith_eq]
  refine (placing_exprWith rules c lo).bind fun first m le lies => (Puts.whileSome (puts_commaExpr rules c)).bind
    fun more hi le' others => .pure ⟨⟨first, more, rfl⟩, ?_⟩
  exact lies.next le le' others

theorem puts_callArgs (lo : Nat) :
    Puts source lo (callArgs r) fun x hi => Closes source lo (row (x.1.map Expr.places)) x.2 hi :=
  (placing_exprWith rules true).commaList _ _

theorem placing_entry : Placing source (entry r) Entry.places := by
  intro lo
  refine puts_peek.bind fun first m₁ le₁ _ => puts_second.bind fun second m₂ le₂ _ => ?_
  split
  · refine (placing_ident m₂).bind fun key m₃ le₃ named => puts_skip.bind fun _ m₄ le₄ _ =>
      (placing_exprWith rules true m₄).bind fun value m₅ le₅ lies => .pure ?_
    exact (named.lower (by omega)).next (by omega) (by omega) (lies.lower le₄)
  · refine (placing_exprWith rules true m₂).bind fun value m₃ le₃ lies => .pure ?_
    exact Lies.next (x := .none) trivial (Nat.le_trans le₁ le₂) le₃ lies

omit rules in
/-- An operand with something behind it that a token closes. -/
theorem lies_suffixed {operand : Primary} {inside : Places} {lo m hi : Nat} {close : Span}
    (lies : Lies source lo m operand.places) (closes : Closes source m inside close hi) :
    Lies source lo hi (part (operand.span.union close) (next operand.places inside)) := by
  obtain ⟨start, stop, ⟨less, -⟩, tight⟩ := lies.within operand.extent
  obtain ⟨⟨rfl, low, less', within⟩, inside⟩ := closes
  refine lies_part start (Nat.le_refl _) less (by omega) (by omega) within ?_
  exact tight.next (by omega) (by omega) (inside.mono stop (by omega))

theorem puts_indexRest {target : Primary} {lo₀ lo : Nat} (before : Lies source lo₀ lo target.places) :
    Puts source lo (indexRest r target) fun p hi => Lies source lo₀ hi p.places := by
  have inside := (placing_exprWith rules true).unlessAt
  rw [indexRest_eq]
  refine (inside _ lo).bind fun low m₁ le₁ lows => (puts_eat _).bind ?_
  rintro (_ | s) m₂ le₂ _
  · cases low with
    | none => exact puts_fail _
    | some index =>
      refine (puts_expect _ _).bind ?_
      rintro close _ le₃ ⟨rfl, low, proper⟩
      refine .pure ?_
      rw [Primary.places]
      exact lies_suffixed before ⟨⟨rfl, by omega, proper⟩, lows.raise (by omega)⟩
  · refine (inside _ m₂).bind fun high m₃ le₃ highs => (puts_expect _ _).bind ?_
    rintro close _ le₄ ⟨rfl, low, proper⟩
    refine .pure ?_
    rw [Primary.places_slice]
    refine lies_suffixed before ⟨⟨rfl, by omega, proper⟩, ?_⟩
    exact lows.next le₁ (by omega) (highs.mono le₂ (by omega))

theorem puts_compositeBody {ty : Located TypeExpr} {lo₀ lo : Nat} (before : Lies source lo₀ lo ty.place) :
    Puts source lo (compositeBody r ty) fun p hi => Lies source lo₀ hi p.places := by
  refine (puts_expect _ _).bind fun _ m le _ => ((placing_entry rules).commaList _ _).bind ?_
  rintro ⟨entries, close⟩ _ le' ⟨⟨rfl, low, less', within⟩, inside⟩
  obtain ⟨start, stop, ⟨less, proper⟩, -⟩ := before
  refine .pure ?_
  rw [Primary.places, Entry.each_eq]
  dsimp only at *
  refine lies_part start (Nat.le_refl _) less (by omega) (by omega) within ?_
  have typed : Lies source ty.span.start ty.span.stop ty.place :=
    ⟨Nat.le_refl _, Nat.le_refl _, ⟨less, proper⟩, trivial⟩
  exact typed.next (by omega) (by omega) (inside.mono (by omega) (by omega))

omit rules in
theorem selectField_lies {operand : Primary} {field : Name} {lo m hi : Nat} (lies : Lies source lo m operand.places)
    (named : Lies source m hi (word field)) : Lies source lo hi (selectField operand field).places := by
  obtain ⟨start, stop, ⟨less, -⟩, tight⟩ := lies.within operand.extent
  obtain ⟨low, high, ⟨less', within⟩, stands⟩ := named
  have last : Lies source field.span.start field.span.stop (row [word field]) :=
    lies_row_single ⟨Nat.le_refl _, Nat.le_refl _, ⟨less', within⟩, stands⟩ (Nat.le_of_lt less')
  have bare (base : Base) (same : base.places = operand.places) :
      Lies source lo hi (Primary.select base [field] (operand.span.union field.span)).places := by
    rw [Primary.places, same]
    refine lies_part start high less (by omega) (by omega) within ?_
    exact tight.next (by omega) (by omega) (last.lower (by omega))
  unfold selectField
  cases operand with
  | select base path span =>
    rw [Primary.places] at tight ⊢
    obtain ⟨-, -, -, m', low', high', first, rest⟩ := tight
    dsimp only [Primary.span] at *
    refine lies_part start high less (by omega) (by omega) within ?_
    refine ⟨m', low', by omega, first, ?_⟩
    rw [words, List.map_append]
    exact lies_row_append rest high' (by omega) (last.lower (by omega))
  | _ => exact bare (.operand _) (by rw [Base.places])

omit rules in
theorem callOperand_lies {operand : Primary} {args : List Expr} {close : Span} {lo m hi : Nat}
    (lies : Lies source lo m operand.places) (closes : Closes source m (row (args.map Expr.places)) close hi) :
    Lies source lo hi (callOperand operand args close).places := by
  have bare (base : Base) (same : base.places = operand.places) :
      Lies source lo hi (Primary.call base [] args (operand.span.union close)).places := by
    rw [Primary.places, same, Expr.each_eq]
    exact lies_suffixed lies ⟨closes.taken, .next (x := .none) trivial (Nat.le_refl _) closes.taken.2.1 closes.inside⟩
  unfold callOperand
  cases operand with
  | select base path span =>
    obtain ⟨start, stop, ⟨less, -⟩, tight⟩ := lies.within (Primary.select base path span).extent
    obtain ⟨⟨rfl, low, less', within⟩, inside⟩ := closes
    change Lies source lo close.stop (Primary.call base path args (span.union close)).places
    rw [Primary.places] at tight
    rw [Primary.places, Expr.each_eq]
    obtain ⟨-, -, -, m', low', high', first, rest⟩ := tight
    dsimp only [Primary.span] at *
    refine lies_part start (Nat.le_refl _) less (by omega) (by omega) within ?_
    refine ⟨m', low', by omega, first, ?_⟩
    exact rest.next high' (by omega) (inside.mono (by omega) (by omega))
  | _ => exact bare (.operand _) (by rw [Base.places])

omit rules in
theorem compositeType?_lies {operand : Primary} {ty : Located TypeExpr} {lo hi : Nat}
    (found : compositeType? operand = some ty) (lies : Lies source lo hi operand.places) :
    Lies source lo hi ty.place := by
  obtain ⟨start, stop, proper, -⟩ := lies.within operand.extent
  unfold compositeType? at found
  split at found
  · split at found
    · obtain ⟨name, -, rfl⟩ := Option.map_eq_some_iff.mp found
      exact ⟨start, stop, proper, trivial⟩
    · cases found
  · cases found

theorem puts_suffix {c : Bool} {operand : Primary} {lo₀ lo : Nat}
    (before : Lies source lo₀ lo operand.places) :
    Puts source lo (suffix? r c operand) fun o hi => ∀ p ∈ o, Lies source lo₀ hi p.places := by
  intro ts ahead
  refine .peek ?_
  cases ts with
  | nil => exact Puts.pure nofun _ ahead
  | cons t ts =>
    have raised := before.raise ahead.le_stop
    rw [front_cons]
    split
    · refine .skip ahead ((placing_ident _).within.bind fun field hi _ named => .pure ?_)
      rintro _ ⟨⟩
      exact selectField_lies raised named
    · refine .skip ahead ((puts_callArgs rules _).within.bind fun args hi _ closes => .pure ?_)
      rintro _ ⟨⟩
      exact callOperand_lies raised closes
    · refine .skip ahead (.map ((puts_indexRest rules raised).within.imp ?_))
      rintro p hi _ lies _ ⟨⟩
      exact lies
    · split
      · refine Puts.map ((puts_compositeBody rules (compositeType?_lies ‹_› before)).within.imp ?_) _ ahead
        rintro p hi _ lies _ ⟨⟩
        exact lies
      · exact Puts.pure nofun _ ahead
    · exact Puts.pure nofun _ ahead

theorem puts_suffixes {c : Bool} {operand : Primary} {lo₀ lo : Nat}
    (before : Lies source lo₀ lo operand.places) :
    Puts source lo (suffixes r c operand) fun p hi => Lies source lo₀ hi p.places := by
  refine .sized fun n => ?_
  generalize n + 1 = n
  induction n generalizing operand lo with
  | zero => exact .pure before
  | succ n ih =>
    refine (puts_suffix rules before).bind ?_
    rintro (_ | longer) m le' found
    · exact .pure (before.raise le')
    · exact ih (found longer rfl)

theorem puts_makeArg (lo : Nat) : Puts source lo (makeArg? r) fun o hi => ∀ e ∈ o, Lies source lo hi e.places := by
  refine (puts_eat _).bind ?_
  rintro (_ | s) m le _
  · exact .pure nofun
  · refine (puts_at _).bind fun stop m' le' _ => ?_
    split
    · exact .pure nofun
    · refine .map ((placing_exprWith rules true m').imp ?_)
      rintro e hi _ lies _ ⟨⟩
      exact lies.lower (by omega)

theorem placing_makeExpr : Placing source (makeExpr r) Primary.places := by
  intro lo
  refine (puts_expect _ _).bind ?_
  rintro start _ le ⟨rfl, low, less, -⟩
  refine .within ((puts_expect _ _).bind fun _ m₁ le₁ _ => (placing_type m₁).bind fun ty m₂ le₂ typed =>
    (Puts.whileSome (puts_makeArg rules)).bind fun args m₃ le₃ listed => (puts_expect _ _).bind ?_)
  rintro close _ le₄ ⟨rfl, low', proper⟩
  refine .pure ?_
  rw [Primary.places, Expr.each_eq]
  exact Closes.part ⟨⟨rfl, by omega, proper⟩, typed.next le₂ (by omega) (listed.raise low')⟩ low less le₁

theorem placing_funcLiteral : Placing source (funcLiteral r) Primary.places := by
  intro lo
  refine (puts_expect _ _).bind ?_
  rintro start _ le ⟨rfl, low, less, -⟩
  refine .within ((placing_plainParams _).bind fun params m₁ le₁ listed => (placing_resultList m₁).bind
    fun results m₂ le₂ typed => (rules.block m₂).bind fun body m₃ le₃ inside => .pure ?_)
  obtain ⟨start', stop', ⟨less', within⟩, tight⟩ := inside.within body.extent
  rw [Primary.places]
  refine lies_part low stop' less (by omega) (by omega) within ?_
  refine (listed.lower (Nat.le_of_lt less)).next (by omega) (by omega) ?_
  exact typed.next le₂ (by omega) (tight.lower start')

theorem placing_fragment : Placing source (fragment r) Fragment.places := by
  intro lo
  refine puts_peek.bind fun first m le _ => ?_
  split
  · exact puts_fail _
  · exact puts_skip.bind fun _ _ _ _ => .pure trivial
  · refine puts_skip.bind fun _ m₁ le₁ _ => (placing_exprWith rules true m₁).bind fun value m₂ le₂ lies =>
      (puts_expect _ _).bind fun _ m₃ le₃ _ => .pure ?_
    exact lies.mono (by omega) le₃
  · exact puts_fail _

theorem placing_templateWith : Placing source (templateWith r) Template.places := by
  intro lo
  refine (puts_expect _ _).bind ?_
  rintro start _ le ⟨rfl, low, less, -⟩
  refine .within (((placing_fragment rules).items .templateEnd fun _ => .pure trivial).bind ?_)
  rintro ⟨fragments, close⟩ hi le' closes
  refine .pure ?_
  rw [Template.places, Fragment.each_eq]
  exact closes.part low less (Nat.le_refl _)

theorem putsAt_operandWith {first : Located Token} {ts : Tokens} {lo : Nat} (ahead : Ahead source lo (first :: ts)) :
    PutsAt source lo (first :: ts) (operandWith r first) fun p hi => Lies source lo hi p.places := by
  unfold operandWith
  split
  · rename_i text same
    refine .skip ahead (.pure ?_)
    rw [Primary.places]
    exact ahead.word (by rw [same]; exact fun _ h => h)
  · rename_i text same
    refine .skip ahead (.pure ?_)
    rw [Primary.places]
    exact ahead.word (by rw [same]; exact fun _ h => h)
  · refine .skip ahead (.pure ?_)
    rw [Primary.places]
    exact ahead.mark
  · refine Puts.map ((placing_templateWith rules lo).imp ?_) _ ahead
    intro t hi _ lies
    rw [Primary.places]
    exact lies
  · exact placing_funcLiteral rules lo _ ahead
  · exact placing_makeExpr rules lo _ ahead
  · refine .skip ahead ((placing_exprWith rules true _).within.bind fun inner m le lies =>
      (puts_expect _ _).bind fun _ m' le' _ => .pure ?_)
    rw [Primary.places]
    exact lies.mono ahead.le_stop le'
  · refine Puts.bind (placing_type lo) (fun ty m le typed => ?_) _ ahead
    exact (puts_compositeBody rules typed).within
  · refine Puts.map ((placing_ident lo).imp ?_) _ ahead
    intro n hi le named
    obtain ⟨start, stop, proper, tight⟩ := named.within rfl
    rw [Primary.ident, Primary.places, Base.places]
    exact ⟨start, stop, proper, tight.next (Nat.le_of_lt proper.1) (Nat.le_refl _) trivial⟩
  · exact puts_fail _ _ ahead

theorem placing_primaryStep (c : Bool) : Placing source (primaryStep r c) Primary.places := by
  intro lo ts ahead
  refine .next ?_
  cases ts with
  | nil => exact puts_fail _ _ ahead
  | cons t ts =>
    obtain ⟨low, less, within⟩ := ahead.head
    rw [List.head?_cons]
    dsimp only
    split
    · refine .skip ahead ((rules.primary c _).within.bind fun operand m le lies => .pure ?_)
      obtain ⟨start, stop, ⟨less', within'⟩, tight⟩ := lies.within operand.extent
      rw [Primary.places]
      exact lies_part low stop less (by omega) (by omega) within' (tight.lower (by omega))
    · split
      · refine .skip ahead ((placing_ident _).within.bind fun channel m le named => .pure ?_)
        obtain ⟨start, stop, ⟨less', within'⟩, tight⟩ := named.within rfl
        rw [Primary.places]
        exact lies_part low stop less (by omega) (by omega) within' (tight.lower (by omega))
      · exact (putsAt_operandWith rules ahead).bind fun operand m le lies => puts_suffixes rules lies

end

end Grammar
end ViewLang
