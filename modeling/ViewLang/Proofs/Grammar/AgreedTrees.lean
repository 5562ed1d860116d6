import ViewLang.Proofs.Grammar.Agreement

namespace ViewLang.Grammar

open Reader

structure RulesAgree (r r' : Rules) : Prop where
  primary : ∀ c, Agree Bare.primary (r.primary c) (r'.primary c)
  block : Agree Bare.block r.block r'.block
  ifStmt : Agree Bare.ifStmt r.ifStmt r'.ifStmt

theorem compositeType?_bare (p : Primary) :
    compositeType? (Bare.primary p) = (compositeType? p).map Located.bare := by
  cases p with
  | select b path span =>
    simp only [Bare.primary, compositeType?, List.length_map]
    split
    · cases b with
      | name n => simp [Bare.base, Base.qualified?, Base.name?, Function.comp_def, Located.bare]
      | operand p => simp [Bare.base, Base.qualified?, Base.name?]
    · rfl
  | _ => rfl

section

variable {r r' : Rules} (rules : RulesAgree r r')

include rules

theorem agree_link (c : Bool) : Agree (Option.map Bare.link) (link? r c) (link? r' c) := by
  intro ts us kept
  refine .next ?_
  cases ts with
  | nil =>
    obtain rfl : us = [] := List.map_eq_nil_iff.mp kept.symm
    exact agree_pure rfl [] [] rfl
  | cons t ts =>
    obtain ⟨t, s⟩ := t
    obtain ⟨s', us, rfl, others⟩ := kinds_cons kept
    rw [List.head?_cons, List.head?_cons]
    dsimp only
    split
    · exact agree_pure rfl _ _ kept
    · refine .skip (((rules.primary c).within.bind fun operand operand' same => agree_pure ?_) ts us others)
      rw [Option.map_some, Option.map_some, Bare.link, Bare.link, same]
      rfl

theorem agree_exprWith (c : Bool) : Agree Bare.expr (exprWith r c) (exprWith r' c) := by
  refine (rules.primary c).bind fun head head' same => (agree_link rules c).whileSome.bind fun tail tail' links =>
    agree_pure ?_
  rw [Bare.expr, Bare.expr, same, Bare.links_eq_map, Bare.links_eq_map, links]

theorem agree_commaExpr (c : Bool) : Agree (Option.map Bare.expr) (commaExpr? r c) (commaExpr? r' c) := by
  refine (agree_eat _).bind ?_
  rintro (_ | s) (_ | s') same
  · exact agree_pure rfl
  · cases same
  · cases same
  · exact (agree_exprWith rules c).within.map fun e e' same => congrArg some same

theorem agree_exprList (c : Bool) : Agree (List.map Bare.expr) (exprListWith r c) (exprListWith r' c) := by
  rw [exprListWith_eq, exprListWith_eq]
  refine (agree_exprWith rules c).bind fun e e' same => (agree_commaExpr rules c).whileSome.bind
    fun more more' others => agree_pure ?_
  rw [List.map_cons, List.map_cons, same, others]

theorem agree_callArgs : Agree (fun x => x.1.map Bare.expr) (callArgs r) (callArgs r') :=
  (agree_exprWith rules true).commaList _ _

theorem agree_indexRest {p p' : Primary} (same : Bare.primary p = Bare.primary p') :
    Agree Bare.primary (indexRest r p) (indexRest r' p') := by
  have inside := (agree_exprWith rules true).unlessAt
  rw [indexRest_eq, indexRest_eq]
  refine (inside _).bind fun low low' lows => (agree_eat _).bind ?_
  rintro (_ | s) (_ | s') colon
  · cases low with
    | none => exact agree_fail
    | some i =>
      obtain ⟨i', rfl, index⟩ := Option.map_eq_some_iff.mp lows.symm
      refine (agree_expect _ _).bind fun _ _ _ => agree_pure ?_
      rw [Bare.primary, Bare.primary, same, index]
  · cases colon
  · cases colon
  · refine (inside _).bind fun high high' highs => (agree_expect _ _).bind fun _ _ _ => agree_pure ?_
    rw [Bare.primary, Bare.primary, same]
    simp only [Bare.optional_eq_map, lows, highs]

theorem agree_entry : Agree Bare.entry (entry r) (entry r') := by
  refine agree_peek.both fun first => agree_second.both fun second => ?_
  split
  · refine agree_ident.bind fun key key' same => agree_skip.bind fun _ _ _ => (agree_exprWith rules true).bind
      fun value value' same' => agree_pure ?_
    rw [Bare.entry, Bare.entry, same', Option.map_some, Option.map_some, same]
  · refine (agree_exprWith rules true).bind fun value value' same => agree_pure ?_
    rw [Bare.entry, Bare.entry, same]

theorem agree_compositeBody {ty ty' : Located TypeExpr} (same : ty.bare = ty'.bare) :
    Agree Bare.primary (compositeBody r ty) (compositeBody r' ty') := by
  refine (agree_expect _ _).bind fun _ _ _ => ((agree_entry rules).commaList _ _).bind ?_
  rintro ⟨es, close⟩ ⟨es', close'⟩ entries
  refine agree_pure ?_
  simp only [Bare.primary, Bare.entries_eq_map, same, entries]

theorem agree_suffix (c : Bool) {p p' : Primary} (same : Bare.primary p = Bare.primary p') :
    Agree (Option.map Bare.primary) (suffix? r c p) (suffix? r' c p') := by
  have types : (compositeType? p).map Located.bare = (compositeType? p').map Located.bare := by
    rw [← compositeType?_bare, ← compositeType?_bare, same]
  refine agree_peek.both fun first => ?_
  split
  · refine agree_skip.bind fun _ _ _ => agree_ident.within.bind fun field field' named => agree_pure ?_
    rw [Option.map_some, Option.map_some, bare_selectField, bare_selectField, same, named]
  · refine agree_skip.bind fun _ _ _ => (agree_callArgs rules).within.bind ?_
    rintro ⟨args, close⟩ ⟨args', close'⟩ listed
    refine agree_pure ?_
    simp only [Option.map_some, bare_callOperand, Bare.exprs_eq_map, same, listed]
  · refine agree_skip.bind fun _ _ _ => (agree_indexRest rules same).within.map fun _ _ same => congrArg some same
  · generalize compositeType? p = ty at types
    generalize compositeType? p' = ty' at types
    cases c with
    | false => exact agree_pure rfl
    | true =>
      cases ty with
      | none =>
        obtain rfl := Option.map_eq_none_iff.mp types.symm
        exact agree_pure rfl
      | some ty =>
        obtain ⟨ty', rfl, typed⟩ := Option.map_eq_some_iff.mp types.symm
        exact (agree_compositeBody rules typed.symm).within.map fun _ _ same => congrArg some same
  · exact agree_pure rfl

theorem agree_suffixes (c : Bool) {p p' : Primary} (same : Bare.primary p = Bare.primary p') :
    Agree Bare.primary (suffixes r c p) (suffixes r' c p') := by
  refine .sized fun n => ?_
  generalize n + 1 = n
  induction n generalizing p p' with
  | zero => exact agree_pure same
  | succ n ih =>
    refine (agree_suffix rules c same).bind ?_
    rintro (_ | longer) (_ | longer') found
    · exact agree_pure same
    · cases found
    · cases found
    · exact ih (Option.some.inj found)

theorem agree_makeArg : Agree (Option.map Bare.expr) (makeArg? r) (makeArg? r') := by
  refine (agree_eat _).bind ?_
  rintro (_ | s) (_ | s') same
  · exact agree_pure rfl
  · cases same
  · cases same
  · exact (agree_exprWith rules true).unlessAt _

theorem agree_makeExpr : Agree Bare.primary (makeExpr r) (makeExpr r') := by
  refine (agree_expect _ _).bind fun _ _ _ => .within ?_
  refine (agree_expect _ _).bind fun _ _ _ => agree_type.bind fun ty ty' typed =>
    (agree_makeArg rules).whileSome.bind fun args args' same => (agree_expect _ _).bind fun _ _ _ => agree_pure ?_
  simp only [Bare.primary, Bare.exprs_eq_map, typed, same]

theorem agree_funcLiteral : Agree Bare.primary (funcLiteral r) (funcLiteral r') := by
  refine (agree_expect _ _).bind fun _ _ _ => .within ?_
  refine agree_plainParams.bind fun ps ps' params => agree_resultList.bind fun rs rs' results =>
    rules.block.bind fun body body' same => agree_pure ?_
  simp only [Bare.primary, params, results, same]

theorem agree_fragment : Agree Bare.fragment (fragment r) (fragment r') := by
  refine agree_peek.both fun first => ?_
  split
  · exact agree_fail
  · exact agree_skip.bind fun _ _ _ => agree_pure rfl
  · refine agree_skip.bind fun _ _ _ => (agree_exprWith rules true).bind fun e e' same =>
      (agree_expect _ _).bind fun _ _ _ => agree_pure ?_
    rw [Bare.fragment, Bare.fragment, same]
  · exact agree_fail

theorem agree_templateWith : Agree Bare.template (templateWith r) (templateWith r') := by
  refine (agree_expect _ _).bind fun _ _ _ => .within ?_
  refine ((agree_fragment rules).items (agree_pure rfl) _).bind ?_
  rintro ⟨fs, close⟩ ⟨fs', close'⟩ same
  refine agree_pure ?_
  simp only [Bare.template, Bare.fragments_eq_map, same]

theorem agree_operandWith (t : Token) (s s' : Span) :
    Agree Bare.primary (operandWith r ⟨t, s⟩) (operandWith r' ⟨t, s'⟩) := by
  unfold operandWith
  dsimp only
  split
  · exact agree_skip.bind fun _ _ _ => agree_pure rfl
  · exact agree_skip.bind fun _ _ _ => agree_pure rfl
  · exact agree_skip.bind fun _ _ _ => agree_pure rfl
  · refine (agree_templateWith rules).map fun t t' same => ?_
    rw [Bare.primary, Bare.primary, same]
  · exact agree_funcLiteral rules
  · exact agree_makeExpr rules
  · refine agree_skip.bind fun _ _ _ => (agree_exprWith rules true).within.bind fun e e' same =>
      (agree_expect _ _).bind fun _ _ _ => agree_pure ?_
    rw [Bare.primary, Bare.primary, same]
  · exact agree_type.bind fun ty ty' typed => (agree_compositeBody rules typed).within
  · refine agree_ident.map fun n n' same => ?_
    rw [Primary.ident, Primary.ident, Bare.primary, Bare.primary, Bare.base, Bare.base, same]
  · exact agree_fail

theorem agree_primaryStep (c : Bool) : Agree Bare.primary (primaryStep r c) (primaryStep r' c) := by
  intro ts us kept
  refine .next ?_
  cases ts with
  | nil => exact agreeAt_fail
  | cons t ts =>
    obtain ⟨t, s⟩ := t
    obtain ⟨s', us, rfl, others⟩ := kinds_cons kept
    rw [List.head?_cons, List.head?_cons]
    dsimp only
    split
    · refine .skip (((rules.primary c).within.bind fun operand operand' same => agree_pure ?_) ts us others)
      rw [Bare.primary, Bare.primary, same]
    · split
      · refine .skip ((agree_ident.within.bind fun channel channel' same => agree_pure ?_) ts us others)
        rw [Bare.primary, Bare.primary, same]
      · exact ((agree_operandWith rules t s s').bind fun _ _ same => agree_suffixes rules c same) _ _ kept

theorem agree_assignRest (c : Bool) {targets targets' : List Expr} (op : AssignOp) (start start' s s' : Span)
    (same : targets.map Bare.expr = targets'.map Bare.expr) :
    Agree Bare.simple (assignRest r c targets start ⟨op, s⟩) (assignRest r' c targets' start' ⟨op, s'⟩) := by
  unfold assignRest
  dsimp only
  split
  · refine agree_pure ?_
    simp only [Bare.simple, Bare.exprs_eq_map, same]
    rfl
  · refine (agree_exprList rules c).within.bind fun values values' same' => agree_pure ?_
    simp only [Bare.simple, Bare.exprs_eq_map, same, same']
    rfl

omit rules in
theorem exprStmt_bare {targets targets' : List Expr} (start start' : Span)
    (same : targets.map Bare.expr = targets'.map Bare.expr) :
    Bare.simple (exprStmt targets start) = Bare.simple (exprStmt targets' start') := by
  simp only [exprStmt, Bare.simple, Bare.exprs_eq_map, same]

theorem agree_simpleStmt (c : Bool) : Agree Bare.simple (simpleStmt r c) (simpleStmt r' c) := by
  refine (agree_exprList rules c).bind fun targets targets' same => ?_
  intro ts us kept
  refine .next ?_
  cases ts with
  | nil =>
    obtain rfl : us = [] := List.map_eq_nil_iff.mp kept.symm
    exact agree_pure (exprStmt_bare _ _ same) [] [] rfl
  | cons t ts =>
    obtain ⟨t, s⟩ := t
    obtain ⟨s', us, rfl, others⟩ := kinds_cons kept
    rw [List.head?_cons, List.head?_cons]
    dsimp only
    cases assignOp? t with
    | some op => exact .skip (agree_assignRest rules c op _ _ s s' same ts us others)
    | none =>
      -- A send has one target, and so the numbers of targets are compared.
      rcases targets with _ | ⟨e, _ | ⟨e₂, es⟩⟩ <;> rcases targets' with _ | ⟨e', _ | ⟨e₂', es'⟩⟩ <;>
        simp only [List.map_cons, List.map_nil, List.cons.injEq, reduceCtorEq, and_false, and_true] at same
      · exact agree_pure rfl _ _ kept
      · dsimp only
        split
        · refine .skip (((agree_exprWith rules c).within.bind fun value value' same' => agree_pure ?_) ts us others)
          simp only [Bare.simple, same, same']
        · exact agree_pure (exprStmt_bare _ _ (by rw [List.map_singleton, List.map_singleton, same])) _ _ kept
      · refine agree_pure (exprStmt_bare _ _ ?_) _ _ kept
        simp only [List.map_cons, same]

omit rules in
theorem agree_varEnd {names names' : List Name} {ty ty' : Option (Located TypeExpr)} {values values' : List Expr}
    (named : names.map Located.bare = names'.map Located.bare) (typed : ty.map Located.bare = ty'.map Located.bare)
    (valued : values.map Bare.expr = values'.map Bare.expr) (start start' : Span) :
    Agree Bare.varDecl (varEnd names ty values start) (varEnd names' ty' values' start') := by
  have declared (s s' : Span) : Bare.varDecl ⟨names, ty, values, s⟩ = Bare.varDecl ⟨names', ty', values', s'⟩ := by
    simp only [Bare.varDecl, Bare.exprs_eq_map, named, typed, valued]
  have last := congrArg List.getLast? valued
  rw [List.getLast?_map, List.getLast?_map] at last
  unfold varEnd
  cases found : values.getLast? with
  | some value =>
    rw [found] at last
    obtain ⟨value', found', -⟩ := Option.map_eq_some_iff.mp last.symm
    rw [found']
    exact agree_pure (declared _ _)
  | none =>
    rw [found] at last
    rw [Option.map_eq_none_iff.mp last.symm]
    cases ty with
    | none => exact agree_fail
    | some t =>
      obtain ⟨t', rfl, -⟩ := Option.map_eq_some_iff.mp typed.symm
      exact agree_pure (declared _ _)

theorem agree_varDecl : Agree Bare.varDecl (varDecl r) (varDecl r') := by
  have typed : Agree (Option.map Located.bare) typeIfAny typeIfAny := by
    refine agree_peek.both fun following => ?_
    split
    · exact agree_type.map fun _ _ same => congrArg some same
    · exact agree_pure rfl
  have valued : Agree (List.map Bare.expr) (valuesIfAny r) (valuesIfAny r') := by
    refine (agree_eat _).bind ?_
    rintro (_ | s) (_ | s') same
    · exact agree_pure rfl
    · cases same
    · cases same
    · exact agree_exprList rules true
  rw [varDecl_eq, varDecl_eq]
  refine (agree_expect _ _).bind fun _ _ _ => .within ?_
  exact agree_identList.bind fun _ _ names => typed.bind fun _ _ types => valued.bind fun _ _ values =>
    agree_varEnd names types values _ _

theorem agree_returnStmt : Agree Bare.stmt (returnStmt r) (returnStmt r') := by
  refine (agree_expect _ _).bind fun _ _ _ => agree_peek.both fun following => ?_
  dsimp only
  split
  · refine (agree_exprList rules true).within.bind fun values values' same => agree_pure ?_
    simp only [Bare.stmt, Bare.exprs_eq_map, same]
  · exact agree_pure rfl

omit rules in
theorem agree_branchStmt : Agree Bare.stmt branchStmt branchStmt := by
  refine (agree_eat _).bind ?_
  rintro (_ | s) (_ | s') same
  · exact (agree_expect _ _).bind fun _ _ _ => agree_pure rfl
  · cases same
  · cases same
  · exact agree_pure rfl

omit rules in
theorem agree_asCondition {s s' : SimpleStmt} (same : Bare.simple s = Bare.simple s') :
    Agree Bare.expr (asCondition s) (asCondition s') := by
  unfold asCondition
  split
  · rename_i e span
    cases s' with
    | exprs targets span' =>
      simp only [Bare.simple, Bare.exprs_eq_map, SimpleStmt.exprs.injEq, and_true] at same
      obtain ⟨e', rfl, alike⟩ := List.map_eq_singleton_iff.mp same.symm
      exact agree_pure alike.symm
    | assign targets op values span' => cases same
    | send channel value span' => cases same
  · exact agree_fail

theorem agree_ifHeader : Agree (fun x => (Bare.clause x.1, Bare.expr x.2)) (ifHeader r) (ifHeader r') := by
  refine (agree_simpleStmt rules false).bind fun first first' same => (agree_eat _).bind ?_
  rintro (_ | s) (_ | s') semicolon
  · refine (agree_asCondition same).bind fun cond cond' same' => agree_pure ?_
    rw [same']
  · cases semicolon
  · cases semicolon
  · refine (agree_exprWith rules false).bind fun cond cond' same' => agree_pure ?_
    simp only [Bare.clause, same, same']

theorem agree_ifStep : Agree Bare.ifStmt (ifStep r) (ifStep r') := by
  refine (agree_expect _ _).bind fun _ _ _ => (agree_ifHeader rules).bind ?_
  rintro ⟨init, cond⟩ ⟨init', cond'⟩ header
  obtain ⟨inits, conds⟩ := Prod.mk.inj header
  refine rules.block.bind fun body body' bodies => (agree_eat _).bind ?_
  rintro (_ | s) (_ | s') found
  · refine agree_pure ?_
    simp only [Bare.ifStmt, inits, conds, bodies]
  · cases found
  · cases found
  · refine (agree_at _).both fun chained => ?_
    cases chained with
    | true =>
      refine rules.ifStmt.bind fun nested nested' same => agree_pure ?_
      simp only [Bare.ifStmt, Bare.orElse, inits, conds, bodies, same]
    | false =>
      refine rules.block.bind fun block block' same => agree_pure ?_
      simp only [Bare.ifStmt, Bare.orElse, inits, conds, bodies, same]

omit rules in
/-- The names of a range clause are one or two, in front of a mark and the keyword. -/
theorem rangeVars?_some {key value : Option Name} {ts rest : Tokens}
    (h : rangeVars? ts = .ok (some (key, value), rest)) : ∃ names mark s s',
      identList ts = .ok (names, ⟨mark, s⟩ :: ⟨.keyword .range, s'⟩ :: rest) ∧
        (mark = .symbol .define ∨ mark = .symbol .assign) ∧ names.length ≤ 2 ∧ key = names[0]? ∧ value = names[1]? := by
  unfold rangeVars? at h
  split at h
  · rename_i names mark s s' left listed
    split at h
    · rename_i marked
      split at h
      · cases h
        exact ⟨_, mark, s, s', listed, marked, by simp⟩
      · cases h
        exact ⟨_, mark, s, s', listed, marked, by simp⟩
      · cases h
    · cases h
  · cases h

omit rules in
theorem rangeVars?_none {ts rest : Tokens} (h : rangeVars? ts = .ok (none, rest)) : rest = ts := by
  unfold rangeVars? at h
  split at h
  · split at h
    · split at h <;> cases h
      rfl
    · cases h
      rfl
  · cases h
    rfl

omit rules in
theorem rangeVars?_total (ts : Tokens) : ∃ o rest, rangeVars? ts = .ok (o, rest) := by
  unfold rangeVars?
  split
  · split
    · split <;> exact ⟨_, _, rfl⟩
    · exact ⟨_, _, rfl⟩
  · exact ⟨_, _, rfl⟩

def bareVars (x : Option Name × Option Name) : Option Name × Option Name :=
  (x.1.map Located.bare, x.2.map Located.bare)

omit rules in
theorem rangeVars?_agree {ts us rest : Tokens} {x : Option Name × Option Name} (kept : kinds ts = kinds us)
    (h : rangeVars? ts = .ok (some x, rest)) :
    ∃ y more, rangeVars? us = .ok (some y, more) ∧ bareVars x = bareVars y ∧ kinds rest = kinds more := by
  obtain ⟨key, value⟩ := x
  obtain ⟨names, mark, s, s', listed, marked, few, rfl, rfl⟩ := rangeVars?_some h
  obtain ⟨names', left, listed', same, marks⟩ := agree_identList ts us kept names _ listed
  obtain ⟨s₁, left, rfl, words⟩ := kinds_cons marks
  obtain ⟨s₂, more, rfl, others⟩ := kinds_cons words
  have long : names.length = names'.length := by simpa using congrArg List.length same
  have found (i : Nat) : names[i]?.map Located.bare = names'[i]?.map Located.bare := by
    rw [← List.getElem?_map, ← List.getElem?_map, same]
  refine ⟨(names'[0]?, names'[1]?), more, ?_, Prod.ext (found 0) (found 1), others⟩
  unfold rangeVars?
  rw [listed']
  dsimp only
  rw [if_pos marked]
  obtain ⟨first, rest, rfl⟩ : ∃ first rest, names' = first :: rest := by
    obtain ⟨first, mid, -, read⟩ := bind_ok.mp listed'
    exact ⟨_, _, (Prod.mk.inj (Except.ok.inj read)).1.symm⟩
  rcases rest with _ | ⟨second, _ | ⟨third, rest⟩⟩
  · rfl
  · rfl
  · rw [long] at few
    simp at few

omit rules in
theorem agree_rangeVars : Agree (Option.map bareVars) rangeVars? rangeVars? := by
  intro ts us kept o rest h
  cases o with
  | some x =>
    obtain ⟨y, more, read, same, left⟩ := rangeVars?_agree kept h
    exact ⟨some y, more, read, congrArg some same, left⟩
  | none =>
    obtain ⟨o, more, read⟩ := rangeVars?_total us
    cases o with
    | none =>
      rw [rangeVars?_none h]
      rw [rangeVars?_none read] at read
      exact ⟨none, us, read, rfl, kept⟩
    | some y =>
      obtain ⟨x, rest', found, -⟩ := rangeVars?_agree kept.symm read
      rw [found] at h
      cases h

theorem agree_rangeClause : Agree (Option.map fun x : Option Name × Option Name × Expr =>
    (bareVars (x.1, x.2.1), Bare.expr x.2.2)) (rangeClause? r) (rangeClause? r') := by
  refine (agree_eat _).bind ?_
  rintro (_ | s) (_ | s') same
  · refine agree_rangeVars.bind ?_
    rintro (_ | ⟨key, value⟩) (_ | ⟨key', value'⟩) vars
    · exact agree_pure rfl
    · cases vars
    · cases vars
    · refine (agree_exprWith rules false).within.bind fun e e' same => agree_pure ?_
      simp only [Option.map_some, Option.some.injEq] at vars ⊢
      rw [vars, same]
  · cases same
  · cases same
  · refine (agree_exprWith rules false).within.bind fun e e' same => agree_pure ?_
    simp only [Option.map_some, same]

theorem agree_classicRest {init init' : Option SimpleStmt} (same : init.map Bare.simple = init'.map Bare.simple) :
    Agree Bare.loopHeader (classicRest r init) (classicRest r' init') := by
  rw [classicRest_eq, classicRest_eq]
  refine ((agree_exprWith rules false).unlessAt _).bind fun cond cond' conds => (agree_expect _ _).bind fun _ _ _ =>
    ((agree_simpleStmt rules false).unlessAt _).bind fun post post' posts => agree_pure ?_
  simp only [Bare.loopHeader, Bare.clause_eq_map, Bare.optional_eq_map, same, conds, posts]

theorem agree_forHeader : Agree Bare.loopHeader (forHeader r) (forHeader r') := by
  rw [forHeader_eq, forHeader_eq]
  refine (agree_at _).both fun opens => ?_
  cases opens with
  | true => exact agree_pure rfl
  | false =>
    refine (agree_rangeClause rules).bind ?_
    rintro (_ | ⟨key, value, e⟩) (_ | ⟨key', value', e'⟩) found
    · refine ((agree_simpleStmt rules false).unlessAt _).bind fun init init' inits => (agree_eat _).bind ?_
      rintro (_ | s) (_ | s') semicolon
      · cases init with
        | none => exact agree_fail
        | some first =>
          obtain ⟨first', rfl, same⟩ := Option.map_eq_some_iff.mp inits.symm
          refine (agree_asCondition same.symm).map fun e e' same => ?_
          rw [Bare.loopHeader, Bare.loopHeader, same]
      · cases semicolon
      · cases semicolon
      · exact agree_classicRest rules inits
    · cases found
    · cases found
    · simp only [Option.map_some, Option.some.injEq, Prod.mk.injEq, bareVars] at found
      obtain ⟨⟨keys, values⟩, same⟩ := found
      refine agree_pure ?_
      simp only [Bare.loopHeader, keys, values, same]

theorem agree_forStmt : Agree Bare.stmt (forStmt r) (forStmt r') := by
  refine (agree_expect _ _).bind fun _ _ _ => (agree_forHeader rules).bind fun header header' same =>
    rules.block.bind fun body body' bodies => agree_pure ?_
  simp only [Bare.stmt, same, bodies]

theorem agree_plainStmt : Agree Bare.stmt (plainStmt r) (plainStmt r') := by
  intro ts us kept stmt rest h
  obtain ⟨s, read, notNode, rfl⟩ := plainStmt_ok h
  obtain ⟨s', more, read', same, left⟩ := agree_simpleStmt rules true ts us kept s rest read
  refine ⟨.simple s', more, plainStmt_of_ok read' ?_, ?_, left⟩
  · rw [← looksLikeNode_bare, ← same, looksLikeNode_bare, ← front_of_kinds left]
    exact notNode
  · rw [Bare.stmt, Bare.stmt, same]

theorem agree_statementWith : Agree Bare.stmt (statementWith r) (statementWith r') := by
  refine agree_peek.both fun first => ?_
  split
  · exact agree_fail
  · split
    · refine (agree_varDecl rules).map fun d d' same => ?_
      rw [Bare.stmt, Bare.stmt, same]
    · exact agree_returnStmt rules
    · exact agree_branchStmt
    · exact agree_branchStmt
    · refine rules.ifStmt.map fun s s' same => ?_
      rw [Bare.stmt, Bare.stmt, same]
    · exact agree_forStmt rules
    · exact agree_plainStmt rules

theorem agree_blockStep : Agree Bare.block (blockStep r) (blockStep r') := by
  refine (agree_expect _ _).bind fun _ _ _ => ((agree_statementWith rules).items agree_skipSemicolons _).bind ?_
  rintro ⟨ss, close⟩ ⟨ss', close'⟩ same
  refine agree_pure ?_
  simp only [Bare.block, Bare.stmts_eq_map, same]

end

theorem rules_agree (n : Nat) : RulesAgree (rules n) (rules n) := by
  induction n with
  | zero => exact ⟨fun _ => agree_fail, agree_fail, agree_fail⟩
  | succ n ih => exact ⟨agree_primaryStep ih, agree_blockStep ih, agree_ifStep ih⟩

/-- An expression is read off tokens of the same kinds as the same expression but for its places. -/
theorem expr_agree (c : Bool) : Agree Bare.expr (expr c) (expr c) :=
  .sized fun n => agree_exprWith (rules_agree (n + 1)) c

end ViewLang.Grammar
