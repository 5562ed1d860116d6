import ViewLang.Proofs.Grammar.Progress
import ViewLang.Proofs.Grammar.RoundTrip

namespace ViewLang.Grammar

open Reader

section

variable {k : Nat} {inner inner' : Reader (Located TypeExpr)}

theorem typeName_alike : Alike 1 k typeName typeName := by
  refine alike_ident.bind (j := 0) fun first => (alike_at _).bind (j := 0) fun dot => alike_second.bind (j := 0) ?_
  intro member
  split
  · exact alike_skip.bind (j := 0) fun _ => alike_ident.keep.bind (j := 0) fun _ => alike_pure _
  · exact alike_pure first

theorem namedType_alike (alike : Alike 1 k inner inner') : Alike 1 (k + 1) (namedType inner) (namedType inner') := by
  refine typeName_alike.behind (j := 0) fun name => (alike_at _).bind (j := 0) fun opens =>
    alike_second.bind (j := 0) fun next => ?_
  dsimp only
  split
  · refine alike_skip.bind (j := 0) fun _ => alike.within.keep.bind (j := 0) fun arg => ?_
    exact (alike_expect _ _).keep.bind (j := 0) fun close => alike_pure _
  · exact alike_pure _

theorem funcType_alike (alike : Alike 1 k inner inner') (start : Span) :
    Alike 1 k (funcType inner start) (funcType inner' start) := by
  refine (alike_expect _ _).bind (j := 0) fun _ => alike.keep.commaList.keep.bind (j := 0) fun params =>
    alike_peek.bind (j := 0) fun following => ?_
  dsimp only
  split
  · exact alike_skip.bind (j := 0) fun _ => alike.keep.commaList.keep.bind (j := 0) fun results => alike_pure _
  · split
    · exact alike.keep.bind (j := 0) fun result => alike_pure _
    · exact alike_pure _

theorem typeStep_alike (alike : Alike 1 k inner inner') : Alike 1 (k + 1) (typeStep inner) (typeStep inner') := by
  intro ts short
  refine .next ?_
  cases ts with
  | nil => exact alikeAt_fail _
  | cons t ts =>
    have shorter : ts.length < k := Nat.lt_of_succ_lt_succ short
    have wrapped (start : Span) (wrap : TypeExpr → TypeExpr) :
        Alike 1 k (wrapType start wrap <$> within inner) (wrapType start wrap <$> within inner') :=
      alike.within.map _
    rw [List.head?_cons]
    split
    · exact .skip (wrapped _ _ ts shorter)
    · exact .skip (((alike_expect _ _).bind fun _ => wrapped _ _) ts shorter)
    · exact .skip (wrapped _ _ ts shorter)
    · exact .skip (((alike_expect _ _).bind fun _ => wrapped _ _) ts shorter)
    · exact .skip ((funcType_alike alike _).within ts shorter)
    · exact namedType_alike alike _ short
    · exact alikeAt_fail _

end

/-- Depths of at least `k` are enough for types on fewer tokens. -/
theorem typeUpTo_alike (k n m : Nat) : Alike 1 k (typeUpTo (k + n)) (typeUpTo (k + m)) := by
  induction k with
  | zero => exact fun ts short => absurd short (Nat.not_lt_zero _)
  | succ k ih =>
    rw [Nat.succ_add, Nat.succ_add]
    exact typeStep_alike ih

theorem typeUpTo_advances (k n : Nat) : Alike 1 k (typeUpTo n) (typeUpTo n) := by
  induction n generalizing k with
  | zero => exact alike_fail _
  | succ n ih =>
    cases k with
    | zero => exact fun ts short => absurd short (Nat.not_lt_zero _)
    | succ k => exact typeStep_alike (ih k)

theorem type_alike {k : Nat} : Alike 1 k type type := .sized fun n => typeUpTo_advances k (n + 1)

section

variable {k : Nat} {decorators : Reader (List Decorator)}

theorem paramEntry_alike (decorated : Alike 0 k decorators decorators) :
    Alike 1 k (paramEntry decorators) (paramEntry decorators) := by
  refine decorated.bind (j := 1) fun ds => alike_ident.bind (j := 0) fun name => (alike_eat _).bind (j := 0) fun _ =>
    alike_peek.bind (j := 0) fun following => ?_
  split
  · exact type_alike.keep.bind (j := 0) fun ty => alike_pure _
  · exact alike_pure _

theorem paramEntry_name (decorated : ∀ k, Alike 0 k decorators decorators) {e : ParamEntry} {ts rest : Tokens}
    (h : paramEntry decorators ts = .ok (e, rest)) : (⟨.ident e.name.value, e.name.span⟩ : Located Token) ∈ ts := by
  obtain ⟨ds, mid, read, h⟩ := bind_ok.mp h
  have shorter := ((decorated _ ts (Nat.lt_succ_self _)).ok read).1
  obtain ⟨name, mid', named, h⟩ := bind_ok.mp h
  obtain ⟨_, mid₂, -, h⟩ := bind_ok.mp h
  obtain ⟨following, mid₃, -, h⟩ := bind_ok.mp h
  have member : (⟨.ident name.value, name.span⟩ : Located Token) ∈ ts := by
    refine shorter.subset ?_
    rw [ident_ok.mp named]
    exact List.mem_cons_self
  split at h
  · obtain ⟨ty, mid₄, -, h⟩ := bind_ok.mp h
    obtain ⟨rfl, rfl⟩ := pure_ok.mp h
    exact member
  · obtain ⟨rfl, rfl⟩ := pure_ok.mp h
    exact member

theorem shareTypes_name {entries : List ParamEntry} {params : List DecoratedParam} {next : Option (Located TypeExpr)}
    (h : shareTypes entries = some (params, next)) {d : DecoratedParam} (member : d ∈ params) :
    ∃ e ∈ entries, d.param.name = e.name := by
  induction entries generalizing params next with
  | nil =>
    cases h
    cases member
  | cons e es ih =>
    rw [shareTypes, Option.bind_eq_bind, Option.bind_eq_some_iff] at h
    obtain ⟨⟨others, following⟩, shared, h⟩ := h
    dsimp only at h
    have split : ∃ first, first.param.name = e.name ∧ params = first :: others := by
      split at h
      · cases h
        exact ⟨_, rfl, rfl⟩
      · cases h
        exact ⟨_, rfl, rfl⟩
      · cases h
    obtain ⟨first, named, rfl⟩ := split
    rcases List.mem_cons.mp member with rfl | later
    · exact ⟨e, List.mem_cons_self, named⟩
    · obtain ⟨e', found, same⟩ := ih shared later
      exact ⟨e', List.mem_cons_of_mem e found, same⟩

/-- A parameter that is blamed was read before the failure, so that the answer is looked at as a whole. -/
theorem paramList_alike (decorated : ∀ k, Alike 0 k decorators decorators) :
    Alike 1 k (paramList decorators) (paramList decorators) := by
  intro ts short
  have opened := alike_expect (k := k) (.symbol .leftParen) "`(`" ts short
  have listed (us : Tokens) : AlikeAt 1 us (commaList (.symbol .rightParen) "`,` or `)`" (paramEntry decorators))
      (commaList (.symbol .rightParen) "`,` or `)`" (paramEntry decorators)) :=
    (paramEntry_alike (decorated _)).keep.commaList us (Nat.lt_succ_self _)
  refine .of_answer rfl ?_ ?_
  · intro params rest h
    obtain ⟨_, mid, first, h⟩ := bind_ok.mp h
    obtain ⟨⟨entries, s⟩, mid', read, h⟩ := bind_ok.mp h
    have left : mid' = rest := by
      dsimp only at h
      cases shared : shareTypes entries with
      | none =>
        rw [shared] at h
        cases fail_ok.mp h
      | some x =>
        rw [shared] at h
        dsimp only at h
        cases misplaced : misplacedVariadic? x.1 with
        | none =>
          rw [misplaced] at h
          exact (pure_ok.mp h).2
        | some d =>
          rw [misplaced] at h
          cases h
    subst left
    obtain ⟨suffix, shorter⟩ := opened.ok first
    obtain ⟨suffix', shorter'⟩ := (listed mid).ok read
    exact ⟨suffix'.trans suffix, by omega⟩
  · intro e failed
    rcases bind_error.mp failed with failed | ⟨_, mid, first, failed⟩
    · exact opened.error failed
    · have suffix := (opened.ok first).1
      rcases bind_error.mp failed with failed | ⟨⟨entries, s⟩, mid', read, failed⟩
      · exact ((listed mid).error failed).of_suffix suffix
      · have suffix' := ((listed mid).ok read).1.trans suffix
        dsimp only at failed
        cases shared : shareTypes entries with
        | none =>
          rw [shared] at failed
          cases failed
          exact ⟨suffix'.length_le, nofun⟩
        | some x =>
          rw [shared] at failed
          dsimp only at failed
          cases misplaced : misplacedVariadic? x.1 with
          | none =>
            rw [misplaced] at failed
            cases failed
          | some d =>
            rw [misplaced] at failed
            cases failed
            refine ⟨suffix'.length_le, ?_⟩
            rintro span ⟨⟩
            have member := (List.dropLast_prefix x.1).subset (List.mem_of_find?_eq_some misplaced)
            obtain ⟨e, found, same⟩ := shareTypes_name shared member
            obtain ⟨us, mid₂, shorter, entry⟩ := commaListUpTo_mem
              (fun k => (paramEntry_alike (decorated k)).keep) read found
            rw [same]
            exact ⟨_, suffix.subset (shorter.subset (paramEntry_name decorated entry))⟩

theorem plainParams_alike : Alike 1 k plainParams plainParams :=
  (paramList_alike fun _ => alike_pure []).bind (j := 0) fun _ => alike_pure _

theorem resultList_alike : Alike 0 k resultList resultList := by
  refine (alike_eat _).bind (j := 0) ?_
  rintro (_ | s)
  · refine alike_peek.bind (j := 0) fun following => ?_
    split
    · exact type_alike.keep.bind (j := 0) fun result => alike_pure _
    · exact alike_pure _
  · exact type_alike.keep.commaList.keep.bind (j := 0) fun results => alike_pure _

end

structure RulesAlike (bound : Nat) (r r' : Rules) : Prop where
  primary : ∀ c, Alike 1 bound (r.primary c) (r'.primary c)
  block : Alike 1 bound r.block r'.block
  ifStmt : Alike 1 bound r.ifStmt r'.ifStmt

theorem unlessAt_alike {α : Type} {i k : Nat} {p q : Reader α} (alike : Alike i k p q) (t : Token) :
    Alike 0 k (unlessAt t p) (unlessAt t q) := by
  refine (alike_at t).bind (j := 0) fun stop => ?_
  split
  · exact alike_pure none
  · exact alike.keep.map some

section

variable {k : Nat} {r r' : Rules} (alike : RulesAlike k r r')

include alike

theorem link?_rounds (c : Bool) : Rounds k (link? r c) (link? r' c) := by
  intro ts short
  refine .next ?_
  cases ts with
  | nil => exact .stop
  | cons t ts =>
    have shorter : ts.length < k := Nat.lt_of_succ_lt short
    rw [List.head?_cons]
    dsimp only
    split
    · exact .stop
    · refine .advance (.skip ((alike.primary c).within.bind (j := 0) (fun operand => alike_pure _) ts shorter))

theorem exprWith_alike (c : Bool) : Alike 1 k (exprWith r c) (exprWith r' c) :=
  (alike.primary c).bind (j := 0) fun _ => (link?_rounds alike c).whileSome.bind (j := 0) fun _ => alike_pure _

theorem commaExpr?_rounds (c : Bool) : Rounds k (commaExpr? r c) (commaExpr? r' c) := by
  intro ts short
  refine .eat ⟨rfl, rfl⟩ ?_
  rintro s rest rfl
  exact (((exprWith_alike alike c).within.map some) rest (Nat.lt_of_succ_lt short)).keep

theorem exprListWith_alike (c : Bool) : Alike 1 k (exprListWith r c) (exprListWith r' c) := by
  rw [exprListWith_eq, exprListWith_eq]
  exact (exprWith_alike alike c).bind (j := 0) fun _ =>
    (commaExpr?_rounds alike c).whileSome.bind (j := 0) fun _ => alike_pure _

theorem callArgs_alike : Alike 1 k (callArgs r) (callArgs r') := (exprWith_alike alike true).keep.commaList

theorem indexRest_alike (target : Primary) : Alike 0 k (indexRest r target) (indexRest r' target) := by
  have inside := unlessAt_alike (exprWith_alike alike true)
  rw [indexRest_eq, indexRest_eq]
  refine (inside _).bind (j := 0) fun low => (alike_eat _).bind (j := 0) ?_
  rintro (_ | s)
  · cases low with
    | none => exact alike_fail _
    | some index => exact (alike_expect _ _).keep.bind (j := 0) fun _ => alike_pure _
  · exact (inside _).bind (j := 0) fun high => (alike_expect _ _).keep.bind (j := 0) fun _ => alike_pure _

theorem entry_alike : Alike 1 k (entry r) (entry r') := by
  refine alike_peek.bind (j := 1) fun first => alike_second.bind (j := 1) fun second => ?_
  split
  · exact alike_ident.bind (j := 0) fun key => alike_skip.bind (j := 0) fun _ =>
      (exprWith_alike alike true).keep.bind (j := 0) fun _ => alike_pure _
  · exact (exprWith_alike alike true).bind (j := 0) fun _ => alike_pure _

theorem compositeBody_alike (ty : Located TypeExpr) : Alike 1 k (compositeBody r ty) (compositeBody r' ty) :=
  (alike_expect _ _).bind (j := 0) fun _ => (entry_alike alike).keep.commaList.keep.bind (j := 0) fun _ => alike_pure _

theorem suffix?_rounds (c : Bool) (operand : Primary) : Rounds k (suffix? r c operand) (suffix? r' c operand) := by
  intro ts short
  refine .peek ?_
  cases ts with
  | nil => exact .stop
  | cons t ts =>
    have shorter : ts.length < k := Nat.lt_of_succ_lt short
    rw [front_cons]
    split
    · exact .advance (.skip (alike_ident.within.bind (j := 0) (fun field => alike_pure _) ts shorter))
    · exact .advance (.skip ((callArgs_alike alike).within.bind (j := 0) (fun args => alike_pure _) ts shorter))
    · exact .advance (.skip ((indexRest_alike alike operand).within.map some ts shorter))
    · split
      · exact .advance ((compositeBody_alike alike _).within.map some _ short)
      · exact .stop
    · exact .stop

theorem suffixes_alike (c : Bool) (operand : Primary) : Alike 0 k (suffixes r c operand) (suffixes r' c operand) := by
  refine .sized fun n => ?_
  generalize n + 1 = n
  induction n generalizing operand with
  | zero => exact alike_pure operand
  | succ n ih =>
    have first : Alike 0 k (suffix? r c operand) (suffix? r' c operand) :=
      fun ts short => (suffix?_rounds alike c operand ts short).1
    refine first.bind (j := 0) ?_
    rintro (_ | longer)
    · exact alike_pure operand
    · exact ih longer

theorem makeArg?_rounds : Rounds k (makeArg? r) (makeArg? r') := by
  intro ts short
  refine .eat ⟨rfl, rfl⟩ ?_
  rintro s rest rfl
  exact unlessAt_alike (exprWith_alike alike true) _ rest (Nat.lt_of_succ_lt short)

theorem makeExpr_alike : Alike 1 (k + 1) (makeExpr r) (makeExpr r') := by
  refine (alike_expect _ _).behind (j := 0) fun start => .within ?_
  exact (alike_expect _ _).keep.bind (j := 0) fun _ => type_alike.keep.bind (j := 0) fun ty =>
    (makeArg?_rounds alike).whileSome.bind (j := 0) fun args =>
      (alike_expect _ _).keep.bind (j := 0) fun close => alike_pure _

theorem funcLiteral_alike : Alike 1 (k + 1) (funcLiteral r) (funcLiteral r') := by
  refine (alike_expect _ _).behind (j := 0) fun start => .within ?_
  exact plainParams_alike.keep.bind (j := 0) fun params => resultList_alike.bind (j := 0) fun results =>
    alike.block.keep.bind (j := 0) fun body => alike_pure _

theorem fragment_alike : Alike 1 (k + 1) (fragment r) (fragment r') := by
  intro ts short
  refine .peek ?_
  cases ts with
  | nil => exact alikeAt_fail _
  | cons t ts =>
    have shorter : ts.length < k := Nat.lt_of_succ_lt_succ short
    rw [front_cons]
    split
    · exact alikeAt_fail _
    · exact .skip (.pure _)
    · exact .skip ((exprWith_alike alike true).bind (j := 0) (fun value =>
        (alike_expect _ _).keep.bind (j := 0) fun _ => alike_pure _) ts shorter)
    · exact alikeAt_fail _

theorem templateWith_alike : Alike 1 (k + 1) (templateWith r) (templateWith r') := by
  refine (alike_expect _ _).behind (j := 0) fun start => .within ?_
  have listed := ((fragment_alike alike).shrink (Nat.le_succ k)).keep
  exact ((alike_pure ()).items listed).keep.bind (j := 0) fun x => alike_pure _

theorem operandWith_alike (first : Located Token) {ts : Tokens} (short : ts.length < k) :
    AlikeAt 1 (first :: ts) (operandWith r first) (operandWith r' first) := by
  have whole : (first :: ts).length < k + 1 := Nat.succ_lt_succ short
  unfold operandWith
  split
  · exact .skip (.pure _)
  · exact .skip (.pure _)
  · exact .skip (.pure _)
  · exact ((templateWith_alike alike).map _) _ whole
  · exact funcLiteral_alike alike _ whole
  · exact makeExpr_alike alike _ whole
  · exact .skip ((exprWith_alike alike true).within.bind (j := 0) (fun inner =>
      (alike_expect _ _).keep.bind (j := 0) fun _ => alike_pure _) ts short)
  · refine type_alike.behind (j := 0) (fun ty => ?_) _ whole
    exact (compositeBody_alike alike ty).within.keep
  · exact (alike_ident.map _) _ whole
  · exact alikeAt_fail _

theorem primaryStep_alike (c : Bool) : Alike 1 (k + 1) (primaryStep r c) (primaryStep r' c) := by
  intro ts short
  refine .next ?_
  cases ts with
  | nil => exact alikeAt_fail _
  | cons t ts =>
    have shorter : ts.length < k := Nat.lt_of_succ_lt_succ short
    rw [List.head?_cons]
    dsimp only
    split
    · exact .skip ((alike.primary c).within.bind (j := 0) (fun operand => alike_pure _) ts shorter)
    · split
      · exact .skip (alike_ident.within.bind (j := 0) (fun channel => alike_pure _) ts shorter)
      · refine (operandWith_alike alike t shorter).bind (j := 0) fun operand rest _ less => ?_
        exact suffixes_alike alike c operand rest (by rw [List.length_cons] at less; omega)

theorem assignRest_alike (c : Bool) (targets : List Expr) (start : Span) (op : Located AssignOp) :
    Alike 0 k (assignRest r c targets start op) (assignRest r' c targets start op) := by
  unfold assignRest
  split
  · exact alike_pure _
  · exact (exprListWith_alike alike c).within.keep.bind (j := 0) fun values => alike_pure _

theorem simpleStmt_alike (c : Bool) : Alike 1 k (simpleStmt r c) (simpleStmt r' c) := by
  refine (exprListWith_alike alike c).bind (j := 0) fun targets => alike_next.bind (j := 0) fun next => ?_
  split
  · exact alike_pure _
  · split
    · exact alike_skip.bind (j := 0) fun _ => assignRest_alike alike c _ _ _
    · split
      · exact alike_skip.bind (j := 0) fun _ =>
          (exprWith_alike alike c).within.keep.bind (j := 0) fun value => alike_pure _
      · exact alike_pure _
    · exact alike_pure _

theorem varDecl_alike : Alike 1 k (varDecl r) (varDecl r') := by
  rw [varDecl_eq, varDecl_eq]
  refine (alike_expect _ _).bind (j := 0) fun start => .within ?_
  refine alike_identList.keep.bind (j := 0) fun names => ?_
  have typed : Alike 0 k typeIfAny typeIfAny := by
    refine alike_peek.bind (j := 0) fun next => ?_
    split
    · exact type_alike.keep.map some
    · exact alike_pure none
  have valued : Alike 0 k (valuesIfAny r) (valuesIfAny r') := by
    refine (alike_eat _).bind (j := 0) ?_
    rintro (_ | s)
    · exact alike_pure []
    · exact (exprListWith_alike alike true).keep
  refine typed.bind (j := 0) fun ty => valued.bind (j := 0) fun values => ?_
  unfold varEnd
  split
  · exact alike_pure _
  · exact alike_pure _
  · exact alike_fail _

theorem returnStmt_alike : Alike 1 k (returnStmt r) (returnStmt r') := by
  refine (alike_expect _ _).bind (j := 0) fun start => alike_peek.bind (j := 0) fun next => ?_
  split
  · exact (exprListWith_alike alike true).within.keep.bind (j := 0) fun values => alike_pure _
  · exact (alike_pure []).bind (j := 0) fun values => alike_pure _

omit alike in
theorem branchStmt_alike : Alike 1 k branchStmt branchStmt := by
  intro ts short
  refine .eat ?_ fun s rest _ => .pure _
  exact (alike_expect _ _).bind (j := 0) (fun s => alike_pure _) ts short

omit alike in
theorem asCondition_alike (s : SimpleStmt) : Alike 0 k (asCondition s) (asCondition s) := by
  unfold asCondition
  split
  · exact alike_pure _
  · exact alike_fail _

theorem ifHeader_alike : Alike 1 k (ifHeader r) (ifHeader r') := by
  refine (simpleStmt_alike alike false).bind (j := 0) fun first => (alike_eat _).bind (j := 0) ?_
  rintro (_ | s)
  · exact (asCondition_alike first).bind (j := 0) fun cond => alike_pure _
  · exact (exprWith_alike alike false).keep.bind (j := 0) fun cond => alike_pure _

theorem ifStep_alike : Alike 1 (k + 1) (ifStep r) (ifStep r') := by
  refine (alike_expect _ _).behind (j := 0) fun start => (ifHeader_alike alike).keep.bind (j := 0) fun header =>
    alike.block.keep.bind (j := 0) fun body => (alike_eat _).bind (j := 0) ?_
  rintro (_ | s)
  · exact alike_pure _
  · refine (alike_at _).bind (j := 0) fun chained => ?_
    split
    · exact alike.ifStmt.keep.bind (j := 0) fun nested => alike_pure _
    · exact alike.block.keep.bind (j := 0) fun block => alike_pure _

omit alike in
theorem rangeVars?_alike : Alike 0 k rangeVars? rangeVars? := by
  intro ts short
  refine .of_answer rfl ?_ ?_
  · intro vars rest h
    unfold rangeVars? at h
    split at h
    · rename_i names mark _ _ after listed
      obtain ⟨suffix, shorter⟩ := (alike_identList (k := k) ts short).ok listed
      have behind : after <:+ ts := ((List.suffix_cons _ _).trans (List.suffix_cons _ _)).trans suffix
      split at h
      · split at h
        · cases h
          exact ⟨behind, behind.length_le⟩
        · cases h
          exact ⟨behind, behind.length_le⟩
        · cases h
          exact ⟨List.suffix_rfl, Nat.le_refl _⟩
      · cases h
        exact ⟨List.suffix_rfl, Nat.le_refl _⟩
    · cases h
      exact ⟨List.suffix_rfl, Nat.le_refl _⟩
  · intro e failed
    unfold rangeVars? at failed
    split at failed
    · split at failed
      · split at failed <;> cases failed
      · cases failed
    · cases failed

theorem rangeClause?_alike : Alike 0 k (rangeClause? r) (rangeClause? r') := by
  have iterable := (exprWith_alike alike false).within.keep
  refine (alike_eat _).bind (j := 0) ?_
  rintro (_ | s)
  · refine rangeVars?_alike.bind (j := 0) ?_
    rintro (_ | vars)
    · exact alike_pure none
    · exact iterable.bind (j := 0) fun e => alike_pure _
  · exact iterable.bind (j := 0) fun e => alike_pure _

theorem classicRest_alike (init : Option SimpleStmt) : Alike 0 k (classicRest r init) (classicRest r' init) := by
  rw [classicRest_eq, classicRest_eq]
  exact (unlessAt_alike (exprWith_alike alike false) _).bind (j := 0) fun cond =>
    (alike_expect _ _).keep.bind (j := 0) fun _ =>
      (unlessAt_alike (simpleStmt_alike alike false) _).bind (j := 0) fun post => alike_pure _

theorem forHeader_alike : Alike 0 k (forHeader r) (forHeader r') := by
  rw [forHeader_eq, forHeader_eq]
  refine (alike_at _).bind (j := 0) fun infinite => ?_
  split
  · exact alike_pure _
  · refine (rangeClause?_alike alike).bind (j := 0) ?_
    rintro (_ | clause)
    · refine (unlessAt_alike (simpleStmt_alike alike false) _).bind (j := 0) fun init => (alike_eat _).bind (j := 0) ?_
      rintro (_ | s)
      · cases init with
        | none => exact alike_fail _
        | some stmt => exact (asCondition_alike stmt).map _
      · exact classicRest_alike alike init
    · exact alike_pure _

theorem forStmt_alike : Alike 1 k (forStmt r) (forStmt r') :=
  (alike_expect _ _).bind (j := 0) fun _ => (forHeader_alike alike).bind (j := 0) fun _ =>
    alike.block.keep.bind (j := 0) fun _ => alike_pure _

theorem plainStmt_alike : Alike 1 k (plainStmt r) (plainStmt r') := by
  intro ts short
  have simple := simpleStmt_alike alike true ts short
  have same : plainStmt r ts = plainStmt r' ts := by rw [plainStmt, plainStmt, simple.1]
  refine .of_answer same ?_ ?_
  · intro s rest h
    obtain ⟨stmt, read, -⟩ := plainStmt_ok h
    exact simple.ok read
  · intro e failed
    unfold plainStmt at failed
    split at failed
    · cases failed
      exact simple.error ‹_›
    · split at failed
      · exact (alikeAt_fail (α := Stmt) (i := 0) "statement").error failed
      · cases failed

theorem statementWith_alike : Alike 1 k (statementWith r) (statementWith r') := by
  refine alike_peek.bind (j := 1) fun first => ?_
  split
  · exact alike_fail _
  · split
    · exact (varDecl_alike alike).map _
    · exact returnStmt_alike alike
    · exact branchStmt_alike
    · exact branchStmt_alike
    · exact alike.ifStmt.map _
    · exact forStmt_alike alike
    · exact plainStmt_alike alike

theorem blockStep_alike : Alike 1 (k + 1) (blockStep r) (blockStep r') :=
  (alike_expect _ _).behind (j := 0) fun _ =>
    ((alike_dropWhile _).items (statementWith_alike alike).keep).keep.bind (j := 0) fun _ => alike_pure _

end

/-- Depths of at least `k` are enough for fewer than `k` tokens. -/
theorem rules_alike (k n m : Nat) : RulesAlike k (rules (k + n)) (rules (k + m)) := by
  induction k with
  | zero =>
    refine ⟨fun c ts short => ?_, fun ts short => ?_, fun ts short => ?_⟩
    all_goals exact absurd short (Nat.not_lt_zero _)
  | succ k ih =>
    rw [Nat.succ_add, Nat.succ_add]
    exact ⟨primaryStep_alike ih, blockStep_alike ih, ifStep_alike ih⟩

theorem rules_advance (k n : Nat) : RulesAlike k (rules n) (rules n) := by
  induction n generalizing k with
  | zero => exact ⟨fun _ => alike_fail _, alike_fail _, alike_fail _⟩
  | succ n ih =>
    cases k with
    | zero =>
      refine ⟨fun c ts short => ?_, fun ts short => ?_, fun ts short => ?_⟩
      all_goals exact absurd short (Nat.not_lt_zero _)
    | succ k => exact ⟨primaryStep_alike (ih k), blockStep_alike (ih k), ifStep_alike (ih k)⟩

/-- A reader that has the rules to the depth that its tokens allow. -/
theorem nested_alike {α : Type} {i k : Nat} {p : Rules → Reader α}
    (each : ∀ {r r' : Rules}, RulesAlike k r r' → Alike i k (p r) (p r')) : Alike i k (nested p) (nested p) :=
  .sized fun n => each (rules_advance k (n + 1))

/-- The readers of the constructs that nest, to any depth. -/
def grammar : Rules := ⟨fun c => nested (·.primary c), block, nested (·.ifStmt)⟩

theorem nested_apply {α : Type} (p : Rules → Reader α) (ts : Tokens) : nested p ts = p (rules (ts.length + 1)) ts := rfl

/-- On few tokens, the rules to a depth are the rules without one. -/
theorem rules_alike_grammar (k n : Nat) : RulesAlike k (rules (k + n)) grammar := by
  have deep (ts : Tokens) (short : ts.length < k) :
      RulesAlike (ts.length + 1) (rules (k + n)) (rules (ts.length + 1)) := by
    obtain ⟨m, rfl⟩ : ∃ m, k = ts.length + 1 + m := ⟨k - (ts.length + 1), by omega⟩
    rw [Nat.add_assoc]
    exact rules_alike (ts.length + 1) (m + n) 0
  refine ⟨fun c ts short => ?_, fun ts short => ?_, fun ts short => ?_⟩
  · obtain ⟨same, takes⟩ := (deep ts short).primary c ts (Nat.lt_succ_self _)
    exact ⟨same.trans (nested_apply (·.primary c) ts).symm, takes⟩
  · obtain ⟨same, takes⟩ := (deep ts short).block ts (Nat.lt_succ_self _)
    exact ⟨same.trans (nested_apply (·.block) ts).symm, takes⟩
  · obtain ⟨same, takes⟩ := (deep ts short).ifStmt ts (Nat.lt_succ_self _)
    exact ⟨same.trans (nested_apply (·.ifStmt) ts).symm, takes⟩

theorem grammar_advances (k : Nat) : RulesAlike k grammar grammar := by
  refine ⟨fun c => ?_, ?_, ?_⟩
  · exact nested_alike fun alike => alike.primary c
  · exact nested_alike fun alike => alike.block
  · exact nested_alike fun alike => alike.ifStmt

/-- A reader that has the rules to a depth has all of them. -/
theorem nested_eq {α : Type} {i : Nat} {p : Rules → Reader α}
    (each : ∀ {k : Nat} {r r' : Rules}, RulesAlike k r r' → Alike i k (p r) (p r')) : nested p = p grammar := by
  funext ts
  exact (each (rules_alike_grammar (ts.length + 1) 0) ts (Nat.lt_succ_self _)).1

end ViewLang.Grammar
