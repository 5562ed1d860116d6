import ViewLang.Proofs.Grammar.Descent

namespace ViewLang.Grammar

open Reader

theorem template_alike {k : Nat} : Alike 1 k template template :=
  nested_alike fun alike => (templateWith_alike alike).shrink (Nat.le_succ k)

theorem expr_alike {k : Nat} (c : Bool) : Alike 1 k (expr c) (expr c) :=
  nested_alike fun alike => exprWith_alike alike c

theorem statement_alike {k : Nat} : Alike 1 k statement statement := nested_alike statementWith_alike

theorem block_alike {k : Nat} : Alike 1 k block block := nested_alike fun alike => alike.block

theorem elementArgs_alike {k : Nat} (span : Span) : Alike 0 k (elementArgs span) (elementArgs span) := by
  refine (alike_eat _).bind (j := 0) ?_
  rintro (_ | s)
  · exact alike_pure _
  · exact (nested_alike entry_alike).keep.commaList.keep.bind (j := 0) fun args => alike_pure _

section

variable {k : Nat} {inner inner' : Reader Node} (alike : Alike 1 k inner inner')

include alike

theorem nodeBlock_alike : Alike 1 (k + 1) (nodeBlock inner) (nodeBlock inner') :=
  (alike_expect _ _).behind (j := 0) fun _ =>
    ((alike_dropWhile _).items alike.keep).keep.bind (j := 0) fun _ => alike_pure _

theorem element_alike : Alike 1 (k + 1) (element inner) (element inner') := by
  have children := ((nodeBlock_alike alike).shrink (Nat.le_succ k)).keep
  refine alike_ident.behind (j := 0) fun tag => (elementArgs_alike _).bind (j := 0) fun args =>
    (alike_at _).bind (j := 0) fun opens => ?_
  split
  · exact children.bind (j := 0) fun x => alike_pure _
  · exact alike_pure _

theorem nodeIf_alike : Alike 1 (k + 1) (nodeIf inner) (nodeIf inner') := by
  have children := ((nodeBlock_alike alike).shrink (Nat.le_succ k)).keep
  refine (alike_expect _ _).behind (j := 0) fun start => (expr_alike false).keep.bind (j := 0) fun cond =>
    children.bind (j := 0) fun body => (alike_eat _).bind (j := 0) ?_
  rintro (_ | s)
  · exact alike_pure _
  · refine (alike_at _).bind (j := 0) fun chained => ?_
    split
    · exact alike.keep.bind (j := 0) fun node => alike_pure _
    · exact children.bind (j := 0) fun otherwise => alike_pure _

theorem nodeFor_alike : Alike 1 (k + 1) (nodeFor inner) (nodeFor inner') := by
  have children := ((nodeBlock_alike alike).shrink (Nat.le_succ k)).keep
  refine (alike_expect _ _).behind (j := 0) fun start => (nested_alike rangeClause?_alike).bind (j := 0) ?_
  rintro (_ | clause)
  · exact alike_fail _
  · exact children.bind (j := 0) fun x => alike_pure _

theorem nodeStep_alike : Alike 1 (k + 1) (nodeStep inner) (nodeStep inner') := by
  refine alike_peek.bind (j := 1) fun first => ?_
  split
  · exact alike_stringLiteral.map _
  · exact template_alike.map _
  · exact (nodeIf_alike alike).map _
  · exact (nodeFor_alike alike).map _
  · exact (element_alike alike).map _
  · exact alike_fail _

end

theorem nodeUpTo_alike (k n m : Nat) : Alike 1 k (nodeUpTo (k + n)) (nodeUpTo (k + m)) := by
  induction k with
  | zero => exact fun ts short => absurd short (Nat.not_lt_zero _)
  | succ k ih =>
    rw [Nat.succ_add, Nat.succ_add]
    exact nodeStep_alike ih

theorem nodeUpTo_advances (k n : Nat) : Alike 1 k (nodeUpTo n) (nodeUpTo n) := by
  induction n generalizing k with
  | zero => exact alike_fail _
  | succ n ih =>
    cases k with
    | zero => exact fun ts short => absurd short (Nat.not_lt_zero _)
    | succ k => exact nodeStep_alike (ih k)

theorem node_alike {k : Nat} : Alike 1 k node node := .sized fun n => nodeUpTo_advances k (n + 1)

section

variable {k : Nat}

theorem stmtOrNode_alike : Alike 1 k stmtOrNode stmtOrNode := by
  intro ts short
  have stmts := statement_alike ts short
  have nodes := node_alike ts short
  refine .of_answer rfl ?_ ?_
  · intro item rest h
    unfold stmtOrNode at h
    split at h
    · cases h
      exact stmts.ok ‹_›
    · split at h
      · split at h
        · cases h
        · cases h
          exact nodes.ok ‹_›
      · split at h <;> cases h
  · intro e failed
    unfold stmtOrNode at failed
    split at failed
    · cases failed
    · rename_i stmtError stmtFailed
      split at failed
      · split at failed
        · cases failed
          exact stmts.error stmtFailed
        · cases failed
      · split at failed
        · cases failed
          exact nodes.error ‹_›
        · cases failed
          exact stmts.error stmtFailed

theorem bodyItem_alike : Alike 1 k bodyItem bodyItem := by
  refine (alike_at _).bind (j := 1) fun var => ?_
  split
  · exact (nested_alike varDecl_alike).map _
  · exact stmtOrNode_alike

theorem componentBody_alike : Alike 1 k componentBody componentBody :=
  (alike_expect _ _).bind (j := 0) fun _ =>
    ((alike_dropWhile _).items bodyItem_alike.keep).keep.bind (j := 0) fun _ => alike_pure _

theorem component_alike (autoProps : Bool) (start : Span) :
    Alike 1 k (component autoProps start) (component autoProps start) := by
  refine (alike_expect _ _).bind (j := 0) fun _ => .within ?_
  exact alike_ident.keep.bind (j := 0) fun name => plainParams_alike.keep.bind (j := 0) fun params =>
    resultList_alike.bind (j := 0) fun results => componentBody_alike.keep.bind (j := 0) fun body => alike_pure _

theorem decorator_alike : Alike 1 k decorator decorator := by
  refine (alike_expect _ _).bind (j := 0) fun start => .within ?_
  refine alike_ident.keep.bind (j := 0) fun name => (alike_eat _).bind (j := 0) ?_
  rintro (_ | s)
  · exact alike_pure _
  · exact (nested_alike callArgs_alike).keep.bind (j := 0) fun args => alike_pure _

def decorator? : Reader (Option Decorator) := do
  if ← at? (.symbol .at_) then some <$> decorator else pure none

theorem decorator?_rounds : Rounds k decorator? decorator? := by
  intro ts short
  change RoundAt ts (if _ then _ else _) (if _ then _ else _)
  split
  · exact .advance (decorator_alike.map some ts short)
  · exact .stop

theorem decoratorList_alike : Alike 0 k decoratorList decoratorList := decorator?_rounds.whileSome

theorem fieldGroup_alike (decorated : Bool) : Alike 1 k (fieldGroup decorated) (fieldGroup decorated) := by
  refine (alike_at _).bind (j := 1) fun at_ => ?_
  split
  · exact alike_fail _
  · exact decoratorList_alike.bind (j := 1) fun decorators => alike_identList.bind (j := 0) fun names =>
      type_alike.keep.bind (j := 0) fun ty => alike_pure _

theorem structFields_alike (decorated : Bool) : Alike 1 k (structFields decorated) (structFields decorated) :=
  (alike_expect _ _).bind (j := 0) fun _ =>
    ((alike_dropWhile _).items (fieldGroup_alike decorated).keep).keep.bind (j := 0) fun _ => alike_pure _

theorem structDecl_alike (decorators : List Decorator) (start : Span) :
    Alike 1 k (structDecl decorators start) (structDecl decorators start) := by
  refine (alike_expect _ _).bind (j := 0) fun _ => .within ?_
  refine alike_ident.keep.bind (j := 0) fun name => (alike_expect _ _).keep.bind (j := 0) fun _ =>
    (structFields_alike _).keep.bind (j := 0) fun fields => ?_
  dsimp only
  split
  · exact alike_pure _
  · exact alike_pure _

theorem gpuResult?_alike : Alike 0 k gpuResult? gpuResult? := by
  refine (alike_at _).bind (j := 0) fun at_ => alike_peek.bind (j := 0) fun next => ?_
  split
  · exact decoratorList_alike.bind (j := 0) fun decorators => type_alike.keep.bind (j := 0) fun ty => alike_pure _
  · exact alike_pure _

theorem gpuFunction_alike (decorators : List Decorator) (start : Span) :
    Alike 1 k (gpuFunction decorators start) (gpuFunction decorators start) := by
  refine (alike_expect _ _).bind (j := 0) fun _ => .within ?_
  exact alike_ident.keep.bind (j := 0) fun name =>
    (paramList_alike fun _ => decoratorList_alike).keep.bind (j := 0) fun params =>
      gpuResult?_alike.bind (j := 0) fun result => block_alike.keep.bind (j := 0) fun body => alike_pure _

theorem gpuBinding_alike (decorators : List Decorator) (start : Span) :
    Alike 1 k (gpuBinding decorators start) (gpuBinding decorators start) := by
  refine (alike_expect _ _).bind (j := 0) fun _ => .within ?_
  exact alike_ident.keep.bind (j := 0) fun name => type_alike.keep.bind (j := 0) fun ty => alike_pure _

theorem funcDecl_alike (decorators : List Decorator) (start : Span) :
    Alike 1 k (funcDecl decorators start) (funcDecl decorators start) := by
  unfold funcDecl
  split
  · exact (component_alike _ _).map _
  · split
    · exact (component_alike _ _).map _
    · exact (gpuFunction_alike _ _).map _
  · split
    · exact alike_fail _
    · exact (gpuFunction_alike _ _).map _

theorem topLevelDecl_alike : Alike 1 k topLevelDecl topLevelDecl := by
  refine alike_next.bind (j := 1) ?_
  rintro (_ | first)
  · exact alike_fail _
  · refine decoratorList_alike.bind (j := 1) fun decorators => alike_peek.bind (j := 1) fun next => ?_
    split
    · exact structDecl_alike _ _
    · exact funcDecl_alike _ _
    · exact (gpuBinding_alike _ _).map _
    · exact alike_fail _

theorem importDecl_alike : Alike 1 k importDecl importDecl := by
  refine (alike_expect _ _).bind (j := 0) fun _ => .within ?_
  refine (alike_eat _).bind (j := 0) ?_
  rintro (_ | s)
  · exact alike_stringLiteral.keep.bind (j := 0) fun path => alike_pure _
  · exact ((alike_dropWhile _).items alike_stringLiteral.keep).keep.bind (j := 0) fun paths => alike_pure _

theorem skipSemicolons_alike : Alike 0 k skipSemicolons skipSemicolons := alike_dropWhile _

theorem importGroup?_rounds : Rounds k importGroup? importGroup? := by
  intro ts short
  change RoundAt ts (if _ then _ else _) (if _ then _ else _)
  split
  · exact .advance (importDecl_alike.bind (j := 0) (fun paths =>
      skipSemicolons_alike.bind (j := 0) fun _ => alike_pure _) ts short)
  · exact .stop

theorem decl?_rounds : Rounds k decl? decl? := by
  intro ts short
  refine .next ?_
  cases ts with
  | nil => exact .stop
  | cons t ts =>
    exact .advance (topLevelDecl_alike.bind (j := 0) (fun d =>
      skipSemicolons_alike.bind (j := 0) fun _ => alike_pure _) _ short)

theorem sourceUnit_alike : Alike 1 k sourceUnit sourceUnit := by
  refine skipSemicolons_alike.bind (j := 1) fun _ => (alike_expect _ _).bind (j := 0) fun _ => ?_
  exact alike_ident.within.keep.bind (j := 0) fun package => skipSemicolons_alike.bind (j := 0) fun _ =>
    importGroup?_rounds.whileSome.bind (j := 0) fun imports => decl?_rounds.whileSome.bind (j := 0) fun decls =>
      alike_pure _

end

/-- The readers that take a token. -/
structure ReadersShrink : Prop where
  identList : Shrinks identList
  type : Shrinks type
  paramList : Shrinks (paramList decoratorList)
  plainParams : Shrinks plainParams
  primary : ∀ c, Shrinks (grammar.primary c)
  expr : ∀ c, Shrinks (expr c)
  exprList : ∀ c, Shrinks (exprListWith grammar c)
  callArgs : Shrinks (callArgs grammar)
  entry : Shrinks (entry grammar)
  compositeBody : ∀ ty, Shrinks (compositeBody grammar ty)
  makeExpr : Shrinks (makeExpr grammar)
  funcLiteral : Shrinks (funcLiteral grammar)
  fragment : Shrinks (fragment grammar)
  template : Shrinks template
  simpleStmt : ∀ c, Shrinks (simpleStmt grammar c)
  varDecl : Shrinks (varDecl grammar)
  returnStmt : Shrinks (returnStmt grammar)
  branchStmt : Shrinks branchStmt
  ifStmt : Shrinks grammar.ifStmt
  forStmt : Shrinks (forStmt grammar)
  statement : Shrinks statement
  block : Shrinks block
  nodeBlock : Shrinks (nodeBlock node)
  element : Shrinks (element node)
  nodeIf : Shrinks (nodeIf node)
  nodeFor : Shrinks (nodeFor node)
  node : Shrinks node
  bodyItem : Shrinks bodyItem
  componentBody : Shrinks componentBody
  component : ∀ autoProps start, Shrinks (component autoProps start)
  decorator : Shrinks decorator
  fieldGroup : ∀ decorated, Shrinks (fieldGroup decorated)
  structFields : ∀ decorated, Shrinks (structFields decorated)
  structDecl : ∀ decorators start, Shrinks (structDecl decorators start)
  gpuFunction : ∀ decorators start, Shrinks (gpuFunction decorators start)
  gpuBinding : ∀ decorators start, Shrinks (gpuBinding decorators start)
  funcDecl : ∀ decorators start, Shrinks (funcDecl decorators start)
  topLevelDecl : Shrinks topLevelDecl
  importDecl : Shrinks importDecl
  sourceUnit : Shrinks sourceUnit

/-- The readers that may take nothing. -/
structure ReadersKeep : Prop where
  resultList : Keeps resultList
  indexRest : ∀ target, Keeps (indexRest grammar target)
  suffixes : ∀ c operand, Keeps (suffixes grammar c operand)
  assignRest : ∀ c targets start op, Keeps (assignRest grammar c targets start op)
  rangeClause : Keeps (rangeClause? grammar)
  forHeader : Keeps (forHeader grammar)
  elementArgs : ∀ span, Keeps (elementArgs span)
  decoratorList : Keeps decoratorList
  gpuResult : Keeps gpuResult?
  skipSemicolons : Keeps skipSemicolons
  skipFieldGaps : Keeps skipFieldGaps

theorem readers_shrink : ReadersShrink where
  identList := shrinks_of_alike fun _ => alike_identList
  type := shrinks_of_alike fun _ => type_alike
  paramList := shrinks_of_alike fun _ => paramList_alike fun _ => decoratorList_alike
  plainParams := shrinks_of_alike fun _ => plainParams_alike
  primary c := shrinks_of_alike fun k => (grammar_advances k).primary c
  expr c := shrinks_of_alike fun _ => expr_alike c
  exprList c := shrinks_of_alike fun k => exprListWith_alike (grammar_advances k) c
  callArgs := shrinks_of_alike fun k => callArgs_alike (grammar_advances k)
  entry := shrinks_of_alike fun k => entry_alike (grammar_advances k)
  compositeBody ty := shrinks_of_alike fun k => compositeBody_alike (grammar_advances k) ty
  makeExpr := shrinks_of_alike fun k => (makeExpr_alike (grammar_advances k)).shrink (Nat.le_succ k)
  funcLiteral := shrinks_of_alike fun k => (funcLiteral_alike (grammar_advances k)).shrink (Nat.le_succ k)
  fragment := shrinks_of_alike fun k => (fragment_alike (grammar_advances k)).shrink (Nat.le_succ k)
  template := shrinks_of_alike fun _ => template_alike
  simpleStmt c := shrinks_of_alike fun k => simpleStmt_alike (grammar_advances k) c
  varDecl := shrinks_of_alike fun k => varDecl_alike (grammar_advances k)
  returnStmt := shrinks_of_alike fun k => returnStmt_alike (grammar_advances k)
  branchStmt := shrinks_of_alike fun _ => branchStmt_alike
  ifStmt := shrinks_of_alike fun k => (grammar_advances k).ifStmt
  forStmt := shrinks_of_alike fun k => forStmt_alike (grammar_advances k)
  statement := shrinks_of_alike fun _ => statement_alike
  block := shrinks_of_alike fun _ => block_alike
  nodeBlock := shrinks_of_alike fun k => (nodeBlock_alike node_alike).shrink (Nat.le_succ k)
  element := shrinks_of_alike fun k => (element_alike node_alike).shrink (Nat.le_succ k)
  nodeIf := shrinks_of_alike fun k => (nodeIf_alike node_alike).shrink (Nat.le_succ k)
  nodeFor := shrinks_of_alike fun k => (nodeFor_alike node_alike).shrink (Nat.le_succ k)
  node := shrinks_of_alike fun _ => node_alike
  bodyItem := shrinks_of_alike fun _ => bodyItem_alike
  componentBody := shrinks_of_alike fun _ => componentBody_alike
  component autoProps start := shrinks_of_alike fun _ => component_alike autoProps start
  decorator := shrinks_of_alike fun _ => decorator_alike
  fieldGroup decorated := shrinks_of_alike fun _ => fieldGroup_alike decorated
  structFields decorated := shrinks_of_alike fun _ => structFields_alike decorated
  structDecl decorators start := shrinks_of_alike fun _ => structDecl_alike decorators start
  gpuFunction decorators start := shrinks_of_alike fun _ => gpuFunction_alike decorators start
  gpuBinding decorators start := shrinks_of_alike fun _ => gpuBinding_alike decorators start
  funcDecl decorators start := shrinks_of_alike fun _ => funcDecl_alike decorators start
  topLevelDecl := shrinks_of_alike fun _ => topLevelDecl_alike
  importDecl := shrinks_of_alike fun _ => importDecl_alike
  sourceUnit := shrinks_of_alike fun _ => sourceUnit_alike

theorem readers_keep : ReadersKeep where
  resultList := keeps_of_alike fun _ => resultList_alike
  indexRest target := keeps_of_alike fun k => indexRest_alike (grammar_advances k) target
  suffixes c operand := keeps_of_alike fun k => suffixes_alike (grammar_advances k) c operand
  assignRest c targets start op := keeps_of_alike fun k => assignRest_alike (grammar_advances k) c targets start op
  rangeClause := keeps_of_alike fun k => rangeClause?_alike (grammar_advances k)
  forHeader := keeps_of_alike fun k => forHeader_alike (grammar_advances k)
  elementArgs span := keeps_of_alike fun _ => elementArgs_alike span
  decoratorList := keeps_of_alike fun _ => decoratorList_alike
  gpuResult := keeps_of_alike fun _ => gpuResult?_alike
  skipSemicolons := keeps_of_alike fun _ => skipSemicolons_alike
  skipFieldGaps := keeps_of_alike fun _ => alike_dropWhile _

def AgreeBelow (r : Rules) (ts : Tokens) : Prop :=
  ∀ us, us.length < ts.length →
    (∀ c, grammar.primary c us = r.primary c us) ∧ grammar.block us = r.block us ∧ grammar.ifStmt us = r.ifStmt us

/-- Nested constructs are read off fewer tokens: any readers that are right on those give the right answer. -/
structure RecursionDescends : Prop where
  type : ∀ ts inner, (∀ us, us.length < ts.length → type us = inner us) → type ts = typeStep inner ts
  primary : ∀ ts r c, AgreeBelow r ts → grammar.primary c ts = primaryStep r c ts
  block : ∀ ts r, AgreeBelow r ts → block ts = blockStep r ts
  ifStmt : ∀ ts r, AgreeBelow r ts → grammar.ifStmt ts = ifStep r ts
  node : ∀ ts inner, (∀ us, us.length < ts.length → node us = inner us) → node ts = nodeStep inner ts
  expr : ∀ c, expr c = exprWith grammar c
  statement : statement = statementWith grammar
  template : template = templateWith grammar

theorem alike_of_eq {α : Type} {ts : Tokens} {p q : Reader α} (advances : Alike 1 ts.length p p)
    (same : ∀ us, us.length < ts.length → p us = q us) : Alike 1 ts.length p q :=
  fun us short => ⟨same us short, (advances us short).2⟩

theorem AgreeBelow.alike {r : Rules} {ts : Tokens} (agree : AgreeBelow r ts) : RulesAlike ts.length grammar r where
  primary c := alike_of_eq ((grammar_advances _).primary c) fun us short => (agree us short).1 c
  block := alike_of_eq (grammar_advances _).block fun us short => (agree us short).2.1
  ifStmt := alike_of_eq (grammar_advances _).ifStmt fun us short => (agree us short).2.2

/-- The depth that the tokens allow is enough behind the first of them. -/
theorem type_alike_below (ts : Tokens) : Alike 1 ts.length (typeUpTo ts.length) type := by
  intro us short
  obtain ⟨m, same⟩ : ∃ m, ts.length = us.length + 1 + m := ⟨ts.length - (us.length + 1), by omega⟩
  rw [same]
  exact typeUpTo_alike (us.length + 1) m 0 us (Nat.lt_succ_self _)

theorem node_alike_below (ts : Tokens) : Alike 1 ts.length (nodeUpTo ts.length) node := by
  intro us short
  obtain ⟨m, same⟩ : ∃ m, ts.length = us.length + 1 + m := ⟨ts.length - (us.length + 1), by omega⟩
  have whole : node us = nodeUpTo (us.length + 1) us := rfl
  rw [same, AlikeAt, whole]
  exact nodeUpTo_alike (us.length + 1) m 0 us (Nat.lt_succ_self _)

theorem grammar_alike_below (ts : Tokens) : RulesAlike ts.length (rules ts.length) grammar :=
  Nat.add_zero ts.length ▸ rules_alike_grammar ts.length 0

theorem rules_succ (n : Nat) : rules (n + 1) = ⟨primaryStep (rules n), blockStep (rules n), ifStep (rules n)⟩ := rfl

theorem nested_step {α : Type} (p : Rules → Reader α) (ts : Tokens) :
    nested p ts = p ⟨primaryStep (rules ts.length), blockStep (rules ts.length), ifStep (rules ts.length)⟩ ts := by
  rw [nested_apply, rules_succ]

theorem recursion_descends : RecursionDescends where
  type ts inner same := by
    have whole : type ts = typeStep (typeUpTo ts.length) ts := rfl
    rw [whole, (typeStep_alike (type_alike_below ts) ts (Nat.lt_succ_self _)).1]
    exact (typeStep_alike (alike_of_eq type_alike same) ts (Nat.lt_succ_self _)).1
  primary ts r c agree := by
    have whole : grammar.primary c ts = primaryStep (rules ts.length) c ts := nested_step (·.primary c) ts
    rw [whole, (primaryStep_alike (grammar_alike_below ts) c ts (Nat.lt_succ_self _)).1]
    exact (primaryStep_alike agree.alike c ts (Nat.lt_succ_self _)).1
  block ts r agree := by
    have whole : block ts = blockStep (rules ts.length) ts := nested_step (·.block) ts
    rw [whole, (blockStep_alike (grammar_alike_below ts) ts (Nat.lt_succ_self _)).1]
    exact (blockStep_alike agree.alike ts (Nat.lt_succ_self _)).1
  ifStmt ts r agree := by
    have whole : grammar.ifStmt ts = ifStep (rules ts.length) ts := nested_step (·.ifStmt) ts
    rw [whole, (ifStep_alike (grammar_alike_below ts) ts (Nat.lt_succ_self _)).1]
    exact (ifStep_alike agree.alike ts (Nat.lt_succ_self _)).1
  node ts inner same := by
    have whole : node ts = nodeStep (nodeUpTo ts.length) ts := rfl
    rw [whole, (nodeStep_alike (node_alike_below ts) ts (Nat.lt_succ_self _)).1]
    exact (nodeStep_alike (alike_of_eq node_alike same) ts (Nat.lt_succ_self _)).1
  expr c := nested_eq fun alike => exprWith_alike alike c
  statement := nested_eq statementWith_alike
  template := nested_eq fun alike => (templateWith_alike alike).shrink (Nat.le_succ _)

structure Unrolls {α : Type} (p : Reader (Option α)) : Prop where
  keeps : Keeps p
  goesDown : GoesDown p
  eq : whileSome p = whileStep p (whileSome p)

theorem unrolls_of_rounds {α : Type} {p : Reader (Option α)} (rounds : ∀ k, Rounds k p p) : Unrolls p :=
  ⟨keeps_of_rounds rounds, goesDown_of_rounds rounds, whileSome_eq (goesDown_of_rounds rounds)⟩

def suffixStep (r : Rules) (c : Bool) (again : Primary → Reader Primary) (operand : Primary) : Reader Primary := do
  match ← suffix? r c operand with
  | none => pure operand
  | some longer => again longer

theorem suffixStep_congr {r : Rules} {c : Bool} (down : ∀ operand, GoesDown (suffix? r c operand))
    {again again' : Primary → Reader Primary} {operand : Primary} {ts : Tokens}
    (same : ∀ longer us, us.length < ts.length → again longer us = again' longer us) :
    suffixStep r c again operand ts = suffixStep r c again' operand ts := by
  simp only [suffixStep, Reader.bind_apply]
  cases read : suffix? r c operand ts with
  | error e => rfl
  | ok x =>
    obtain ⟨found, rest⟩ := x
    cases found with
    | none => rfl
    | some longer => exact same longer rest (down operand ts longer rest read)

theorem suffixesUpTo_enough {r : Rules} {c : Bool} (down : ∀ operand, GoesDown (suffix? r c operand)) {n m : Nat}
    {operand : Primary} {ts : Tokens} (less : ts.length < n) (less' : ts.length < m) :
    suffixesUpTo r c n operand ts = suffixesUpTo r c m operand ts := by
  induction n generalizing m operand ts with
  | zero => exact absurd less (Nat.not_lt_zero _)
  | succ n ih =>
    obtain ⟨m, rfl⟩ := Nat.exists_eq_add_one.mpr (Nat.zero_lt_of_lt less')
    exact suffixStep_congr down fun longer us shorter => ih (by omega) (by omega)

theorem suffixes_eq {r : Rules} {c : Bool} (down : ∀ operand, GoesDown (suffix? r c operand)) (operand : Primary) :
    suffixes r c operand = suffixStep r c (suffixes r c) operand := by
  funext ts
  refine suffixStep_congr down fun longer us shorter => ?_
  exact suffixesUpTo_enough down shorter (Nat.lt_succ_self _)

/-- The loops of the grammar: each round that goes on has fewer tokens, and there are enough rounds for all tokens. -/
structure LoopsDescend : Prop where
  operands : ∀ c, Unrolls (link? grammar c)
  exprs : ∀ c, Unrolls (commaExpr? grammar c)
  makeArgs : Unrolls (makeArg? grammar)
  decorators : Unrolls decorator?
  imports : Unrolls importGroup?
  decls : Unrolls decl?
  suffix : ∀ c operand, Keeps (suffix? grammar c operand) ∧ GoesDown (suffix? grammar c operand)
  suffixes : ∀ c operand, suffixes grammar c operand = suffixStep grammar c (suffixes grammar c) operand
  commaList : ∀ (α : Type) close what (item : Reader α), Keeps item →
    commaList close what item = commaStep close what item (commaList close what item)
  items : ∀ (α : Type) gap close (item : Reader α), Keeps gap → Shrinks item →
    items gap close item = itemsStep gap close item (items gap close item)

theorem loops_descend : LoopsDescend := by
  have rounds (c : Bool) (operand : Primary) (k : Nat) := suffix?_rounds (grammar_advances k) c operand
  exact {
    operands := fun c => unrolls_of_rounds fun k => link?_rounds (grammar_advances k) c
    exprs := fun c => unrolls_of_rounds fun k => commaExpr?_rounds (grammar_advances k) c
    makeArgs := unrolls_of_rounds fun k => makeArg?_rounds (grammar_advances k)
    decorators := unrolls_of_rounds fun _ => decorator?_rounds
    imports := unrolls_of_rounds fun _ => importGroup?_rounds
    decls := unrolls_of_rounds fun _ => decl?_rounds
    suffix := fun c operand => ⟨keeps_of_rounds (rounds c operand), goesDown_of_rounds (rounds c operand)⟩
    suffixes := fun c => suffixes_eq fun operand => goesDown_of_rounds (rounds c operand)
    commaList := fun _ _ _ _ keeps => commaList_eq keeps
    items := fun _ _ _ _ passes shrinks => items_eq passes shrinks }

theorem whileSome_stops {α : Type} {p : Reader (Option α)} (unrolls : Unrolls p) {ts rest : Tokens} {as : List α}
    (h : whileSome p ts = .ok (as, rest)) : ∃ us, p us = .ok (none, rest) := by
  induction size : ts.length using Nat.strongRecOn generalizing ts as with
  | _ n ih =>
    rw [unrolls.eq] at h
    obtain ⟨found, mid, read, h⟩ := bind_ok.mp h
    cases found with
    | none =>
      obtain ⟨-, rfl⟩ := pure_ok.mp h
      exact ⟨ts, read⟩
    | some a =>
      obtain ⟨as', mid', others, h⟩ := bind_ok.mp h
      obtain ⟨-, rfl⟩ := pure_ok.mp h
      exact ih mid.length (size ▸ unrolls.goesDown ts a mid read) others rfl

theorem decl?_none {ts rest : Tokens} (h : decl? ts = .ok (none, rest)) : rest = [] := by
  obtain ⟨next, mid, peeked, h⟩ := bind_ok.mp h
  cases peeked
  cases ts with
  | nil => exact (pure_ok.mp h).2.symm
  | cons t ts =>
    obtain ⟨d, mid, -, h⟩ := bind_ok.mp h
    obtain ⟨_, mid', -, h⟩ := bind_ok.mp h
    cases (pure_ok.mp h).1

theorem sourceUnit_rest {ts rest : Tokens} {u : SourceUnit} (h : sourceUnit ts = .ok (u, rest)) : rest = [] := by
  obtain ⟨_, mid₁, -, h⟩ := bind_ok.mp h
  obtain ⟨_, mid₂, -, h⟩ := bind_ok.mp h
  obtain ⟨package, mid₃, -, h⟩ := bind_ok.mp h
  obtain ⟨_, mid₄, -, h⟩ := bind_ok.mp h
  obtain ⟨imports, mid₅, -, h⟩ := bind_ok.mp h
  obtain ⟨decls, mid₆, declared, h⟩ := bind_ok.mp h
  obtain ⟨-, rfl⟩ := pure_ok.mp h
  obtain ⟨us, stopped⟩ := whileSome_stops loops_descend.decls declared
  exact decl?_none stopped

def marks (d : Diagnostic) : List (Span × Bool) := d.labels.map fun l => (l.span, l.primary)

/-- What a diagnostic about the tokens points at, when reading stopped with `left` of them to go. -/
inductive PointsAt (tokens : Tokens) (left : Nat) (d : Diagnostic) : Prop
  | parameter (name : String) (span : Span) (member : (⟨.ident name, span⟩ : Located Token) ∈ tokens)
      (code : d.code = some .variadicNotLast) (marked : marks d = [(span, true)])
  | atEnd (none_left : left = 0) (code : d.code = some .endOfInput)
      (marked : marks d = [((tokens.getLast?.map (·.span)).getD Span.none, true)])
  | here (before after : Tokens) (found : Located Token) (split : tokens = before ++ found :: after)
      (stopped : left = (found :: after).length) (code : d.code = some .badToken)
      (marked : marks d = [(found.span, true)])
  | inside (before after : Tokens) (found first : Located Token) (split : tokens = before ++ found :: after)
      (stopped : left = (found :: after).length) (earlier : first ∈ before) (code : d.code = some .badToken)
      (marked : marks d = [(found.span, true), (first.span, false)])

theorem diagnostic_pointsAt {tokens : Tokens} {f : Failure} (inside : f.Inside tokens) :
    PointsAt tokens f.left (f.diagnostic tokens) := by
  have within := inside.left_le
  unfold Failure.diagnostic
  split
  · rename_i span blamed
    obtain ⟨name, member⟩ := inside.named span blamed
    exact .parameter name span member rfl rfl
  · split
    · rename_i beyond
      rw [List.getElem?_eq_none_iff] at beyond
      have done : f.left = 0 := by
        by_cases empty : tokens.length = 0 <;> omega
      exact .atEnd done rfl rfl
    · rename_i found at_
      obtain ⟨less, same⟩ := List.getElem?_eq_some_iff.mp at_
      have split : tokens = tokens.take (tokens.length - f.left) ++ found ::
          tokens.drop (tokens.length - f.left + 1) := by
        rw [← same, List.getElem_cons_drop, List.take_append_drop]
      have stopped : f.left = (found :: tokens.drop (tokens.length - f.left + 1)).length := by
        rw [List.length_cons, List.length_drop]
        omega
      dsimp only
      split
      · exact .here _ _ found split stopped rfl rfl
      · rename_i start searched
        have earlier := List.find?_some searched
        split
        · exact .here _ _ found split stopped rfl rfl
        · rename_i first opened
          refine .inside _ _ found first split stopped ?_ rfl rfl
          have before : tokens.length - start < tokens.length - f.left := by simpa using earlier
          rw [← List.getElem?_take_of_lt before] at opened
          exact List.mem_of_getElem? opened

/-- Reading ends on every list of tokens: readers leave an end of what they are given, what is read inside a construct
and in the next round of a loop is read off fewer tokens, and the outcome is the unit or one diagnostic about the
list. -/
theorem parsing_terminates : ReadersShrink ∧ ReadersKeep ∧ RecursionDescends ∧ LoopsDescend ∧
    ∀ tokens, match parseTokens tokens with
      | .ok unit => sourceUnit tokens = .ok (unit, [])
      | .error d => ∃ f, sourceUnit tokens = .error f ∧ PointsAt tokens f.left d := by
  refine ⟨readers_shrink, readers_keep, recursion_descends, loops_descend, fun tokens => ?_⟩
  unfold parseTokens
  cases read : sourceUnit tokens with
  | ok x =>
    obtain ⟨unit, rest⟩ := x
    rw [sourceUnit_rest read]
  | error f =>
    have inside := (sourceUnit_alike tokens (Nat.lt_succ_self _)).error read
    exact ⟨f, rfl, diagnostic_pointsAt inside⟩

end ViewLang.Grammar
