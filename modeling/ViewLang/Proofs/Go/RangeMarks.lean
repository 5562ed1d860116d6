import ViewLang.Proofs.Analysis.Findings
import ViewLang.Proofs.Go.NodeScopes
import ViewLang.Proofs.Grammar.BodyItems

namespace ViewLang

inductive RangeMark
  | define
  | assign
deriving DecidableEq

namespace RangeMark

def token : RangeMark → Token
  | define => .symbol .define
  | assign => .symbol .assign

def text : RangeMark → String
  | define => ":="
  | assign => "="

end RangeMark

namespace Grammar

open Reader

inductive RangeVars (mark : RangeMark) (key : Name) (rest : Tokens) : Option Name → Tokens → Prop
  | key (m w : Span) : RangeVars mark key rest none
      (⟨.ident key.value, key.span⟩ :: ⟨mark.token, m⟩ :: ⟨.keyword .range, w⟩ :: rest)
  | both (c m w : Span) (value : Name) : RangeVars mark key rest (some value)
      (⟨.ident key.value, key.span⟩ :: ⟨.symbol .comma, c⟩ :: ⟨.ident value.value, value.span⟩ :: ⟨mark.token, m⟩ ::
        ⟨.keyword .range, w⟩ :: rest)

/-- The tokens are a range clause with variables: `k := range x`, `k, v = range x` and so on. -/
def RangeWritten (iterable : Reader Expr) (mark : RangeMark) (key : Name) (value : Option Name) (e : Expr)
    (ts rest : Tokens) : Prop := ∃ mid, RangeVars mark key mid value ts ∧ iterable mid = .ok (e, rest)

theorem moreIdents_nil {ts rest : Tokens} (listed : moreIdents ts = ([], rest)) : ts = rest := by
  unfold moreIdents at listed
  split at listed
  · cases listed
  · cases listed
    rfl

theorem moreIdents_cons {ts rest : Tokens} {name : Name} {names : List Name}
    (listed : moreIdents ts = (name :: names, rest)) : ∃ c mid,
      ts = ⟨.symbol .comma, c⟩ :: ⟨.ident name.value, name.span⟩ :: mid ∧ moreIdents mid = (names, rest) := by
  unfold moreIdents at listed
  split at listed
  · rename_i c n s mid
    obtain ⟨same, rfl⟩ := Prod.mk.inj listed
    obtain ⟨rfl, rfl⟩ := List.cons.inj same
    exact ⟨c, mid, rfl, rfl⟩
  · cases listed

theorem identList_ok {ts rest : Tokens} {names : List Name} (read : identList ts = .ok (names, rest)) :
    ∃ first more mid, names = first :: more ∧ ts = ⟨.ident first.value, first.span⟩ :: mid ∧
      moreIdents mid = (more, rest) := by
  obtain ⟨first, mid, named, listed⟩ := bind_ok.mp read
  obtain ⟨rfl, rfl⟩ := Prod.mk.inj (Except.ok.inj listed)
  exact ⟨first, _, mid, rfl, ident_ok.mp named, rfl⟩

theorem rangeVars?_written {key : Name} {value : Option Name} {ts rest : Tokens}
    (read : rangeVars? ts = .ok (some (some key, value), rest)) : ∃ mark, RangeVars mark key rest value ts := by
  unfold rangeVars? at read
  split at read
  · rename_i names mark m w mid listed
    split at read
    · rename_i isMark
      obtain ⟨which, rfl⟩ : ∃ which : RangeMark, mark = which.token := by
        rcases isMark with rfl | rfl
        · exact ⟨.define, rfl⟩
        · exact ⟨.assign, rfl⟩
      obtain ⟨first, more, us, rfl, rfl, behind⟩ := identList_ok listed
      split at read
      · rename_i single
        cases single
        cases read
        cases moreIdents_nil behind
        exact ⟨which, .key m w⟩
      · rename_i two
        cases two
        cases read
        obtain ⟨c, vs, rfl, last⟩ := moreIdents_cons behind
        cases moreIdents_nil last
        exact ⟨which, .both c m w _⟩
      · cases read
    · cases read
  · cases read

theorem rangeClause?_written {r : Rules} {key : Name} {value : Option Name} {e : Expr} {ts rest : Tokens}
    (read : rangeClause? r ts = .ok (some (some key, value, e), rest)) :
    ∃ mark, RangeWritten (exprWith r false) mark key value e ts rest := by
  obtain ⟨range, mid, eaten, read⟩ := bind_ok.mp read
  cases range with
  | some s =>
    obtain ⟨iterable, mid', -, read⟩ := bind_ok.mp read
    cases (pure_ok.mp read).1
  | none =>
    cases eat?_none eaten
    obtain ⟨vars, mid', found, read⟩ := bind_ok.mp read
    cases vars with
    | none => cases read
    | some vars =>
      obtain ⟨key', value'⟩ := vars
      obtain ⟨iterable, mid₂, ranged, read⟩ := bind_ok.mp read
      obtain ⟨same, rfl⟩ := pure_ok.mp read
      cases same
      obtain ⟨mark, vars⟩ := rangeVars?_written found
      exact ⟨mark, mid', vars, within_ok.mp ranged⟩

/-- Behind `for` stands the range clause of the loop. -/
theorem forStmt_range {r : Rules} {key : Name} {value : Option Name} {e : Expr} {body : Block} {span : Span}
    {ts rest : Tokens} (read : forStmt r ts = .ok (.loop (.range (some key) value e) body span, rest)) :
    ∃ start inner mid mark, ts = ⟨.keyword .for_, start⟩ :: inner ∧
      RangeWritten (exprWith r false) mark key value e inner mid := by
  obtain ⟨start, inner, opened, read⟩ := bind_ok.mp read
  obtain ⟨header, mid, headed, read⟩ := bind_ok.mp read
  obtain ⟨body', mid', -, read⟩ := bind_ok.mp read
  obtain ⟨same, -⟩ := pure_ok.mp read
  cases same
  rw [forHeader_eq] at headed
  obtain ⟨opens, us, ahead, headed⟩ := bind_ok.mp headed
  rw [at?_apply] at ahead
  cases ahead
  split at headed
  · cases (pure_ok.mp headed).1
  · obtain ⟨range, us, clause, headed⟩ := bind_ok.mp headed
    cases range with
    | some range =>
      obtain ⟨key', value', iterable⟩ := range
      obtain ⟨same, rfl⟩ := pure_ok.mp headed
      cases same
      obtain ⟨mark, written⟩ := rangeClause?_written clause
      exact ⟨start, _, us, mark, expect_ok opened, written⟩
    | none =>
      obtain ⟨init, mid₂, -, headed⟩ := bind_ok.mp headed
      obtain ⟨semicolon, mid₃, -, headed⟩ := bind_ok.mp headed
      cases semicolon with
      | some _ =>
        rw [classicRest_eq] at headed
        obtain ⟨_, _, -, headed⟩ := bind_ok.mp headed
        obtain ⟨_, _, -, headed⟩ := bind_ok.mp headed
        obtain ⟨_, _, -, headed⟩ := bind_ok.mp headed
        cases (pure_ok.mp headed).1
      | none =>
        cases init with
        | none => cases fail_ok.mp headed
        | some s =>
          obtain ⟨_, -, same⟩ := map_ok.mp headed
          cases same

theorem nodeFor_range {inner : Reader Node} {key : Name} {value : Option Name} {e : Expr} {children : List Node}
    {span : Span} {ts rest : Tokens} (read : nodeFor inner ts = .ok (⟨some key, value, e, children, span⟩, rest)) :
    ∃ start us mid mark, ts = ⟨.keyword .for_, start⟩ :: us ∧
      RangeWritten (exprWith grammar false) mark key value e us mid := by
  obtain ⟨start, us, opened, read⟩ := bind_ok.mp read
  obtain ⟨range, mid, clause, read⟩ := bind_ok.mp read
  rw [nested_eq rangeClause?_alike] at clause
  cases range with
  | none => cases fail_ok.mp read
  | some range =>
    obtain ⟨key', value', iterable⟩ := range
    obtain ⟨⟨nodes, extent⟩, mid', -, read⟩ := bind_ok.mp read
    obtain ⟨same, -⟩ := pure_ok.mp read
    cases same
    obtain ⟨mark, written⟩ := rangeClause?_written clause
    exact ⟨start, us, mid, mark, expect_ok opened, written⟩

end Grammar

section

open Go (Env)
open Go.Lexical (Locals)

namespace RangeMark

def target (env : Env) (locals : Locals) (mark : RangeMark) (name : Name) : String :=
  match mark with
  | define => name.value
  | assign => Go.Lexical.name env locals name.value

def head (env : Env) (locals : Locals) (level : Nat) (key : Name) (value : Option Name) (iterable : Expr)
    (mark : RangeMark) : String :=
  "for " ++ ", ".intercalate ((key :: value.toList).map (mark.target env locals)) ++ " " ++ mark.text ++ " range " ++
    Go.Lexical.expr env locals level iterable ++ " \x7b"

end RangeMark

def nodeLoopOpening (env : Env) (level : Nat) : String :=
  "func() " ++ Go.Lexical.runtime env "Node" ++ " \x7b\n" ++ Go.Lower.pad (level + 1) ++ "var nodes []" ++
    Go.Lexical.runtime env "Node" ++ "\n" ++ Go.Lower.pad (level + 1)

variable {env : Env} {locals : Locals} {level : Nat} {key : Name} {value : Option Name} {iterable : Expr}

/-- The character in front of `=` tells the two apart, wherever the names lead. -/
theorem RangeMark.head_inj (opening closing : String) (mark : RangeMark) :
    opening ++ define.head env locals level key value iterable ++ closing =
      opening ++ mark.head env locals level key value iterable ++ closing ↔ mark = .define := by
  refine ⟨fun same => ?_, fun same => by rw [same]⟩
  cases mark with
  | define => rfl
  | assign =>
    exfalso
    have chars := congrArg String.toList same
    simp only [head, text, String.toList_append, List.append_assoc, List.append_cancel_left_eq] at chars
    generalize " range ".toList ++ ((Go.Lexical.expr env locals level iterable).toList ++
      (" \x7b".toList ++ closing.toList)) = behind at chars
    generalize (", ".intercalate ((key :: value.toList).map (assign.target env locals))).toList = names at chars
    generalize (", ".intercalate ((key :: value.toList).map (define.target env locals))).toList = names' at chars
    have split : (names' ++ [' ']) ++ [':'] ++ ('=' :: behind) = names ++ [' '] ++ ('=' :: behind) := by
      simpa using chars
    have last := (List.append_singleton_inj.mp (List.append_cancel_right split)).2
    cases last

theorem rangeVars_define (env : Env) (locals : Locals) (key : Name) (value : Option Name) :
    Go.Lower.rangeVars (some key) value =
      ", ".intercalate ((key :: value.toList).map (RangeMark.define.target env locals)) ++ " := " := by
  cases value <;> rfl

theorem loopHead_define : Go.Lexical.loopHead env locals level (.range (some key) value iterable) =
    RangeMark.define.head env locals level key value iterable := by
  rw [Go.Lexical.loopHead, rangeVars_define env locals, RangeMark.head, RangeMark.text]
  simp only [String.append_assoc]
  rfl

theorem loopText_define (env : Env) (locals : Locals) (level : Nat) (key : Name) (value : Option Name)
    (iterable : Expr) (children : List String) : ∃ closing,
    Go.Lexical.loopText env level (some key) value (Go.Lexical.expr env locals (level + 1) iterable) children =
      nodeLoopOpening env level ++ RangeMark.define.head env locals (level + 1) key value iterable ++ closing := by
  refine ⟨"\n" ++ Go.Lower.appendText (level + 2) children ++ Go.Lower.pad (level + 1) ++ "\x7d\n" ++
    Go.Lower.pad (level + 1) ++ "return " ++ Go.Lexical.runtime env "Fragment" ++ "(nodes...)\n" ++
    Go.Lower.pad level ++ "\x7d()", ?_⟩
  have line : " \x7b\n" = " \x7b" ++ "\n" := rfl
  rw [← loopHead_define, Go.Lexical.loopHead]
  unfold Go.Lexical.loopText nodeLoopOpening
  rw [line]
  simp only [String.append_assoc]

end

/-- What the check of names has to do with the variables: declare them, or look them up. -/
def RangeMark.check : RangeMark → List Name → Analysis.Check Unit
  | .define, names => Analysis.declareAll names
  | .assign, names => names.forM Analysis.checkTarget

section

open Analysis

theorem blank_checked {name : Name} (blank : name.value = "_") (s : State) : (checkTarget name).run s = ((), s) := by
  have visible : isVisible s.scopes name.value = true := by simp [isVisible, blank]
  change (if !isVisible s.scopes name.value then report (undefinedVariable name) else pure ()).run s = _
  rw [visible]
  rfl

theorem blank_declared {name : Name} (blank : name.value = "_") (s : State) : (declare name).run s = ((), s) := by
  change ((), if name.value = "_" then s else _) = _
  rw [if_pos blank]

theorem blanks_run {act : Name → Check Unit} (idle : ∀ n : Name, n.value = "_" → ∀ s, (act n).run s = ((), s))
    {names : List Name} (blank : ∀ n ∈ names, n.value = "_") (s : State) : (names.forM act).run s = ((), s) := by
  induction names with
  | nil => rfl
  | cons n ns ih =>
    change (act n >>= fun _ => ns.forM act).run s = _
    rw [StateT.run_bind, idle n (blank n List.mem_cons_self) s]
    exact ih fun n member => blank n (List.mem_cons_of_mem _ member)

/-- Names that are looked up where they would be declared make a difference, unless they are blank. -/
theorem RangeMark.check_iff {iterable : Expr} {names : List Name} (mark : RangeMark) :
    (∀ s, (do Analysis.expr iterable; define.check names : Check Unit).run s =
      (do Analysis.expr iterable; mark.check names : Check Unit).run s) ↔
      mark = .define ∨ ∀ n ∈ names, n.value = "_" := by
  cases mark with
  | define => exact iff_of_true (fun _ => rfl) (.inl rfl)
  | assign =>
    constructor
    · intro same
      right
      -- Where nothing is declared yet, a declaration shows in the innermost scope.
      have empty (x : String) : x ∈ ([] ++ [].flatten : List String) ↔ x ∈ ([] : List String) := by simp
      have declares : Checks (Analysis.expr iterable >>= fun _ => declareAll names) [] (names.map (·.value))
          (Lexical.expr [] iterable) := (expr_checks [] iterable).declaring (declareAll_checks names)
      have looks : Checks (Analysis.expr iterable >>= fun _ => names.forM checkTarget) [] [] _ :=
        (expr_checks [] iterable).bind (forM_checks names checkTarget_checks)
      have declared := declares [] [] [] empty
      have looked := looks [] [] [] empty
      have scopes := congrArg (fun x => x.2.scopes) (declared.symm.trans ((same ⟨[[]], []⟩).trans looked))
      simpa [Go.Lexical.Locals.extend, List.filter_eq_nil_iff] using scopes
    · rintro (⟨⟨⟩⟩ | blank) s
      rw [StateT.run_bind, StateT.run_bind]
      exact (blanks_run (fun _ => blank_declared) blank _).trans (blanks_run (fun _ => blank_checked) blank _).symm

end

section

open Go (Env Lower)
open Grammar (RangeWritten)

/-- A loop with variables is emitted as it is written, and its header checked so, exactly if it has `:=`; the check also
if it has only blank names. -/
theorem range_mark_kept_iff (key : Name) (value : Option Name) (e : Expr) (span : Span) :
    (∀ (r : Grammar.Rules) (ts rest : Tokens) (body : Block),
      Grammar.forStmt r ts = .ok (.loop (.range (some key) value e) body span, rest) →
      ∃ start us mid mark, ts = ⟨.keyword .for_, start⟩ :: us ∧
        RangeWritten (Grammar.exprWith r false) mark key value e us mid ∧
        (∀ env level scope outer writes uses,
          ((Lower.stmt env level (.loop (.range (some key) value e) body span)).run
            ⟨scope :: outer, writes, uses⟩).1.head? =
            some (.text level (mark.head env (scope ++ outer.flatten) level key value e)) ↔ mark = .define) ∧
        ((∀ s, (Analysis.loopHeader (.range (some key) value e)).run s =
          (do Analysis.expr e; mark.check (key :: value.toList) : Analysis.Check Unit).run s) ↔
          mark = .define ∨ ∀ n ∈ key :: value.toList, n.value = "_")) ∧
    ∀ (inner : Grammar.Reader Node) (ts rest : Tokens) (children : List Node),
      Grammar.nodeFor inner ts = .ok (⟨some key, value, e, children, span⟩, rest) →
      ∃ start us mid mark, ts = ⟨.keyword .for_, start⟩ :: us ∧
        RangeWritten (Grammar.exprWith Grammar.grammar false) mark key value e us mid ∧
        (∀ env level scope outer writes uses, ∃ closing,
          let text := ((Lower.nodeFor env level ⟨some key, value, e, children, span⟩).run
            ⟨scope :: outer, writes, uses⟩).1
          text = nodeLoopOpening env level ++
            RangeMark.define.head env (scope ++ outer.flatten) (level + 1) key value e ++ closing ∧
          (text = nodeLoopOpening env level ++
            mark.head env (scope ++ outer.flatten) (level + 1) key value e ++ closing ↔ mark = .define)) ∧
        Analysis.nodeFor ⟨some key, value, e, children, span⟩ = (do
          Analysis.expr e
          Analysis.inScope do
            RangeMark.define.check (key :: value.toList)
            Analysis.nodes children) ∧
        ((∀ s, (do Analysis.expr e; RangeMark.define.check (key :: value.toList) : Analysis.Check Unit).run s =
          (do Analysis.expr e; mark.check (key :: value.toList) : Analysis.Check Unit).run s) ↔
          mark = .define ∨ ∀ n ∈ key :: value.toList, n.value = "_") := by
  constructor
  · intro r ts rest body read
    obtain ⟨start, us, mid, mark, opened, written⟩ := Grammar.forStmt_range read
    refine ⟨start, us, mid, mark, opened, written, fun env level scope outer writes uses => ?_, ?_⟩
    · obtain ⟨uses', ran⟩ :=
        Go.stmt_runs env (scope ++ outer.flatten) level (.loop (.range (some key) value e) body span)
        scope outer writes uses rfl
      have same : "" ++ RangeMark.define.head env (scope ++ outer.flatten) level key value e ++ "" =
          "" ++ mark.head env (scope ++ outer.flatten) level key value e ++ "" ↔ mark = .define :=
        RangeMark.head_inj "" "" mark
      rw [ran, Go.Lexical.stmt, loopHead_define]
      simpa using same
    · rw [← RangeMark.check_iff mark, Analysis.loopHeader]
      exact Iff.rfl
  · intro inner ts rest children read
    obtain ⟨start, us, mid, mark, opened, written⟩ := Grammar.nodeFor_range read
    refine ⟨start, us, mid, mark, opened, written, fun env level scope outer writes uses => ?_, ?_,
      RangeMark.check_iff mark⟩
    · obtain ⟨uses', ran⟩ := Go.nodeFor_runs env (scope ++ outer.flatten) level ⟨some key, value, e, children, span⟩
        scope outer writes uses rfl
      rw [ran, Go.Lexical.nodeFor]
      obtain ⟨closing, text⟩ := loopText_define env (scope ++ outer.flatten) level key value e _
      refine ⟨closing, text, ?_⟩
      dsimp only
      rw [text]
      exact RangeMark.head_inj _ _ mark
    · rw [Analysis.nodeFor]
      rfl

def assignedTokens : Tokens :=
  [⟨.keyword .for_, ⟨0, 3⟩⟩, ⟨.ident "i", ⟨4, 5⟩⟩, ⟨.symbol .comma, ⟨5, 6⟩⟩, ⟨.ident "best", ⟨7, 11⟩⟩,
    ⟨.symbol .assign, ⟨12, 13⟩⟩, ⟨.keyword .range, ⟨14, 19⟩⟩, ⟨.ident "xs", ⟨20, 22⟩⟩, ⟨.symbol .leftBrace, ⟨23, 24⟩⟩,
    ⟨.symbol .rightBrace, ⟨25, 26⟩⟩]

def declaredTokens : Tokens :=
  [⟨.keyword .for_, ⟨0, 3⟩⟩, ⟨.ident "i", ⟨4, 5⟩⟩, ⟨.symbol .define, ⟨6, 8⟩⟩, ⟨.keyword .range, ⟨9, 14⟩⟩,
    ⟨.ident "xs", ⟨15, 17⟩⟩, ⟨.symbol .leftBrace, ⟨18, 19⟩⟩, ⟨.symbol .rightBrace, ⟨20, 21⟩⟩]

theorem range_mark_kept_assigned :
    (∃ key value e body span rest,
      Grammar.forStmt Grammar.grammar assignedTokens = .ok (.loop (.range (some key) value e) body span, rest) ∧
      ∃ start us mid mark, assignedTokens = ⟨.keyword .for_, start⟩ :: us ∧
        RangeWritten (Grammar.exprWith Grammar.grammar false) mark key value e us mid) ∧
    ∃ key value e children span rest,
      Grammar.nodeFor Grammar.node declaredTokens = .ok (⟨some key, value, e, children, span⟩, rest) ∧
      ∃ start us mid mark, declaredTokens = ⟨.keyword .for_, start⟩ :: us ∧
        RangeWritten (Grammar.exprWith Grammar.grammar false) mark key value e us mid := by
  have loop : ∃ key value e body span rest, Grammar.forStmt Grammar.grammar assignedTokens =
      .ok (.loop (.range (some key) value e) body span, rest) := ⟨_, _, _, _, _, _, rfl⟩
  have nodes : ∃ key value e children span rest, Grammar.nodeFor Grammar.node declaredTokens =
      .ok (⟨some key, value, e, children, span⟩, rest) := ⟨_, _, _, _, _, _, rfl⟩
  obtain ⟨key, value, e, body, span, rest, read⟩ := loop
  obtain ⟨key', value', e', children, span', rest', read'⟩ := nodes
  obtain ⟨start, us, mid, mark, opened, written, -, -⟩ := (range_mark_kept_iff key value e span).1 _ _ rest body read
  obtain ⟨start', us', mid', mark', opened', written', -⟩ :=
    (range_mark_kept_iff key' value' e' span').2 _ _ rest' children read'
  exact ⟨⟨key, value, e, body, span, rest, read, start, us, mid, mark, opened, written⟩,
    key', value', e', children, span', rest', read', start', us', mid', mark', opened', written'⟩

/-- With `=`, a field is hidden by a new variable, and names that no scope has are not missed. -/
theorem assigned_range_declares :
    (tokenize "for i, best = range xs \x7b \x7d").toOption.bind (fun ts => (Grammar.statement ts).toOption.map fun x =>
      (((Lower.stmt ⟨"rt", [], [("best", "c.best")], []⟩ 1 x.1).run Go.LowerState.start).1.head?,
        ((Analysis.stmt x.1).run ⟨[["xs"]], []⟩).2.found)) =
      some (some (.text 1 "for i, best := range xs \x7b"), []) := by
  decide +kernel

end

end ViewLang
