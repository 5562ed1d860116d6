import Mathlib.Data.List.TakeWhile
import ViewLang.Proofs.Grammar.Termination
import ViewLang.Proofs.Success

namespace ViewLang.Grammar

open Reader

inductive ItemRead (before after : Tokens) : BodyItem → Prop
  | var {d : VarDecl} (first : front before = some (.keyword .var)) (read : nested varDecl before = .ok (d, after)) :
    ItemRead before after (.var d)
  | stmt {s : Stmt} (first : front before ≠ some (.keyword .var)) (read : statement before = .ok (s, after)) :
    ItemRead before after (.stmt s)
  | node {n : Node} {e : Failure} (first : front before ≠ some (.keyword .var)) (refused : statement before = .error e)
    (read : node before = .ok (n, after)) (near : after.length ≤ e.left) : ItemRead before after (.node n)

theorem stmtOrNode_ok {before after : Tokens} {item : BodyItem} (first : front before ≠ some (.keyword .var))
    (read : stmtOrNode before = .ok (item, after)) : ItemRead before after item := by
  unfold stmtOrNode at read
  split at read
  · rename_i accepted
    cases read
    exact .stmt first accepted
  · rename_i e refused
    split at read
    · rename_i accepted
      split at read
      · cases read
      · rename_i near
        cases read
        exact .node first refused accepted (Nat.le_of_not_lt near)
    · split at read <;> cases read

theorem bodyItem_ok {before after : Tokens} {item : BodyItem} :
    bodyItem before = .ok (item, after) ↔ ItemRead before after item := by
  have here : bodyItem before =
      if front before = some (.keyword .var) then (BodyItem.var <$> nested varDecl) before else stmtOrNode before := by
    rw [bodyItem, bind_apply, at?_apply]
    by_cases first : front before = some (.keyword .var)
    · simp [first]
    · simp [first]
  rw [here]
  constructor
  · intro read
    split at read
    · rename_i first
      obtain ⟨d, declared, rfl⟩ := map_ok.mp read
      exact .var first declared
    · rename_i first
      exact stmtOrNode_ok first read
  · intro read
    cases read with
    | var first read =>
      rw [if_pos first]
      exact map_ok.mpr ⟨_, read, rfl⟩
    | stmt first read => rw [if_neg first, stmtOrNode, read]
    | node first refused read near =>
      rw [if_neg first, stmtOrNode, refused, read]
      dsimp only
      rw [if_neg (Nat.not_lt.mpr near)]

/-- A statement does not start with the name of a tag or prop. -/
theorem statement_refused {ts : Tokens} (reserved : isReservedIdent (front ts) = true) :
    ∃ e, statement ts = .error e := by
  rw [recursion_descends.statement, statementWith, bind_apply, peek?_apply]
  dsimp only
  rw [if_pos reserved]
  exact ⟨_, rfl⟩

structure BodyState where
  left : Tokens
  body : Body

def BodyItem.Added (before after : Body) : BodyItem → Prop
  | .var d => after.vars = before.vars ++ [d] ∧ after.stmts = before.stmts ∧ after.nodes = before.nodes
  | .stmt s => after.vars = before.vars ∧ after.stmts = before.stmts ++ [s] ∧ after.nodes = before.nodes
  | .node n => after.vars = before.vars ∧ after.stmts = before.stmts ∧ after.nodes = before.nodes ++ [n]

theorem BodyItem.added_addTo (body : Body) (item : BodyItem) : item.Added body (item.addTo body) := by
  cases item with
  | var d => exact ⟨rfl, rfl, rfl⟩
  | stmt s => exact ⟨rfl, rfl, rfl⟩
  | node n => exact ⟨rfl, rfl, rfl⟩

structure BodyStep (s t : BodyState) (run : Tokens) (item : BodyItem) : Prop where
  nonempty : run ≠ []
  tokens : ∃ gap, s.left = gap ++ (run ++ t.left) ∧ ∀ x ∈ gap, x.value = .symbol .semicolon
  read : ItemRead (run ++ t.left) t.left item
  entry : item.Added s.body t.body
  var : (∃ d, item = .var d) ↔ front run = some (.keyword .var)
  reserved : isReservedIdent (front run) = true → ∃ n, item = .node n
  stmt : front run ≠ some (.keyword .var) → isReservedIdent (front run) = false →
    ((∃ s, item = .stmt s) ↔ ∃ accepted, statement (run ++ t.left) = .ok accepted)
  node : (∃ n, item = .node n) → ¬ ∃ accepted, statement (run ++ t.left) = .ok accepted

/-- Any number of steps. -/
inductive BodyRun : BodyState → BodyState → Prop
  | done (s : BodyState) : BodyRun s s
  | item {s t u : BodyState} {run : Tokens} {item : BodyItem} (step : BodyStep s t run item) (later : BodyRun t u) :
    BodyRun s u

section

variable {before after : Tokens} {item : BodyItem}

theorem ItemRead.var_iff (read : ItemRead before after item) :
    (∃ d, item = .var d) ↔ front before = some (.keyword .var) := by
  cases read with
  | var first read => exact iff_of_true ⟨_, rfl⟩ first
  | stmt first read => exact iff_of_false nofun first
  | node first refused read near => exact iff_of_false nofun first

theorem ItemRead.refused_node {n : Node} (read : ItemRead before after (.node n)) :
    ¬ ∃ accepted, statement before = .ok accepted := by
  cases read with
  | node first refused read near =>
    rintro ⟨accepted, read'⟩
    cases refused.symm.trans read'

theorem ItemRead.stmt_iff (read : ItemRead before after item) (first : front before ≠ some (.keyword .var)) :
    (∃ s, item = .stmt s) ↔ ∃ accepted, statement before = .ok accepted := by
  cases read with
  | var first' read => exact absurd first' first
  | stmt first' read => exact iff_of_true ⟨_, rfl⟩ ⟨_, read⟩
  | node first' refused read near => exact iff_of_false nofun (refused_node (.node first' refused read near))

theorem ItemRead.reserved (read : ItemRead before after item) (named : isReservedIdent (front before) = true) :
    ∃ n, item = .node n := by
  cases read with
  | var first read =>
    rw [first] at named
    cases named
  | stmt first read =>
    obtain ⟨e, refused⟩ := statement_refused named
    cases refused.symm.trans read
  | node first refused read near => exact ⟨_, rfl⟩

theorem bodyItem_step {gap : Tokens} (body : Body) (blank : ∀ x ∈ gap, x.value = .symbol .semicolon)
    (read : bodyItem before = .ok (item, after)) :
    ∃ run, before = run ++ after ∧ BodyStep ⟨gap ++ before, body⟩ ⟨after, item.addTo body⟩ run item := by
  obtain ⟨⟨run, rfl⟩, shorter⟩ := readers_shrink.bodyItem before item after read
  have nonempty : run ≠ [] := by
    rintro rfl
    exact absurd shorter (Nat.lt_irrefl _)
  have first : front (run ++ after) = front run := by
    cases run with
    | nil => exact absurd rfl nonempty
    | cons t ts => rfl
  have here := bodyItem_ok.mp read
  refine ⟨run, rfl, nonempty, ⟨gap, rfl, blank⟩, here, item.added_addTo body, ?_, ?_, ?_, ?_⟩
  · exact first ▸ here.var_iff
  · exact first ▸ here.reserved
  · intro other _
    exact here.stmt_iff (first ▸ other)
  · rintro ⟨n, rfl⟩
    exact here.refused_node

end

theorem skipSemicolons_ok {ts rest : Tokens} {x : Unit} (read : skipSemicolons ts = .ok (x, rest)) :
    ∃ gap, ts = gap ++ rest ∧ ∀ t ∈ gap, t.value = .symbol .semicolon := by
  cases read
  refine ⟨ts.takeWhile (·.value == .symbol .semicolon), List.takeWhile_append_dropWhile.symm, ?_⟩
  intro t member
  have holds := List.mem_takeWhile_imp member
  exact eq_of_beq holds

theorem eat?_some {t : Token} {s : Span} {ts rest : Tokens} (eaten : eat? t ts = .ok (some s, rest)) :
    ts = ⟨t, s⟩ :: rest := by
  cases ts with
  | nil => cases eaten
  | cons u us =>
    obtain ⟨value, span⟩ := u
    by_cases same : value = t
    · subst same
      rw [eat?_cons_self] at eaten
      cases eaten
      rfl
    · have other : front (⟨value, span⟩ :: us) ≠ some t := fun first => same (Option.some.inj first)
      rw [eat?_of_ne other] at eaten
      cases eaten

theorem eat?_none {t : Token} {ts rest : Tokens} (absent : eat? t ts = .ok (none, rest)) : rest = ts := by
  unfold eat? at absent
  split at absent
  · cases absent
    rfl
  · split at absent <;> cases absent
    rfl

theorem expect_ok {t : Token} {what : String} {s : Span} {ts rest : Tokens} (read : expect t what ts = .ok (s, rest)) :
    ts = ⟨t, s⟩ :: rest := by
  cases ts with
  | nil => cases read
  | cons u us =>
    obtain ⟨value, span⟩ := u
    by_cases same : value = t
    · subst same
      rw [expect_cons_self] at read
      cases read
      rfl
    · simp [expect, same] at read

/-- A round of a list with gaps meets its end, or reads an item and goes on. -/
theorem itemsUpTo_round {α : Type} {gap : Reader Unit} {close : Token} {item : Reader α} {n : Nat} {ts rest : Tokens}
    {as : List α} {s : Span} (read : itemsUpTo gap close item (n + 1) ts = .ok ((as, s), rest)) :
    ∃ x mid, gap ts = .ok (x, mid) ∧ (as = [] ∧ mid = ⟨close, s⟩ :: rest ∨
      ∃ a later after, as = a :: later ∧ item mid = .ok (a, after) ∧
        itemsUpTo gap close item n after = .ok ((later, s), rest)) := by
  obtain ⟨x, mid, passed, round⟩ := bind_ok.mp read
  refine ⟨x, mid, passed, ?_⟩
  obtain ⟨closed, mid', eaten, round⟩ := bind_ok.mp round
  cases closed with
  | some s' =>
    obtain ⟨same, rfl⟩ := pure_ok.mp round
    cases same
    exact .inl ⟨rfl, eat?_some eaten⟩
  | none =>
    obtain ⟨a, after, first, round⟩ := bind_ok.mp round
    obtain ⟨⟨later, s'⟩, rest', others, round⟩ := bind_ok.mp round
    obtain ⟨same, rfl⟩ := pure_ok.mp round
    cases same
    rw [eat?_none eaten] at first
    exact .inr ⟨a, later, after, rfl, first, others⟩

/-- By induction on the rounds: each reads an item, and the last meets the brace. -/
theorem itemsUpTo_run {n : Nat} {ts rest : Tokens} {list : List BodyItem} {close : Span} (body : Body)
    (read : itemsUpTo skipSemicolons (.symbol .rightBrace) bodyItem n ts = .ok ((list, close), rest)) :
    ∃ gap, (∀ t ∈ gap, t.value = .symbol .semicolon) ∧
      BodyRun ⟨ts, body⟩ ⟨gap ++ ⟨.symbol .rightBrace, close⟩ :: rest, list.foldl BodyItem.addTo body⟩ := by
  induction n generalizing ts list body with
  | zero => exact absurd (fail_ok.mp read) id
  | succ n ih =>
    obtain ⟨_, mid, passed, round⟩ := itemsUpTo_round read
    obtain ⟨gap, rfl, blank⟩ := skipSemicolons_ok passed
    rcases round with ⟨rfl, rfl⟩ | ⟨item, later, after, rfl, first, others⟩
    · exact ⟨gap, blank, .done _⟩
    · obtain ⟨run, -, step⟩ := bodyItem_step body blank first
      obtain ⟨last, ended, goes⟩ := ih (item.addTo body) others
      exact ⟨last, ended, .item step goes⟩

/-- A body that can be read: between its braces, item after item adds its entry to what was empty at first. -/
theorem body_items_classified {ts rest : Tokens} {body : Body} {span : Span}
    (accepted : componentBody ts = .ok ((body, span), rest)) :
    ∃ start inner gap close, ts = ⟨.symbol .leftBrace, start⟩ :: inner ∧
      BodyRun ⟨inner, Body.empty⟩ ⟨gap ++ ⟨.symbol .rightBrace, close⟩ :: rest, body⟩ ∧
      (∀ t ∈ gap, t.value = .symbol .semicolon) ∧ span = start.union close := by
  obtain ⟨start, inner, opened, accepted⟩ := bind_ok.mp accepted
  obtain ⟨⟨list, close⟩, rest', read, accepted⟩ := bind_ok.mp accepted
  obtain ⟨same, rfl⟩ := pure_ok.mp accepted
  cases same
  obtain ⟨gap, blank, run⟩ := itemsUpTo_run Body.empty read
  exact ⟨start, inner, gap, close, expect_ok opened, run, blank, rfl⟩

/-- A variable, an assignment and a call; an element with a built-in tag, one that could be a call, and a text. -/
def shelfSource : String := "\x7b var n = 1; n = 2; load(n); Li(n); Book(n) \x7b \x7d \"end\" \x7d"

theorem body_items_classified_shelf : ∃ ts body span rest, tokenize shelfSource = .ok ts ∧
    componentBody ts = .ok ((body, span), rest) ∧ body.vars.length = 1 ∧ body.stmts.length = 2 ∧
    body.nodes.length = 3 ∧ ∃ start inner gap close, ts = ⟨.symbol .leftBrace, start⟩ :: inner ∧
      BodyRun ⟨inner, Body.empty⟩ ⟨gap ++ ⟨.symbol .rightBrace, close⟩ :: rest, body⟩ := by
  have known : (tokenize shelfSource).toOption.map (fun ts => (componentBody ts).toOption.map fun x =>
      (x.1.1.vars.length, x.1.1.stmts.length, x.1.1.nodes.length)) = some (some (1, 2, 3)) := by decide +kernel
  obtain ⟨ts, tokenized, known⟩ := Option.map_eq_some_iff.mp known
  obtain ⟨⟨⟨body, span⟩, rest⟩, read, counts⟩ := Option.map_eq_some_iff.mp known
  have accepted : componentBody ts = .ok ((body, span), rest) := toOption_some_iff.mp read
  obtain ⟨vars, others⟩ := Prod.mk.inj counts
  obtain ⟨stmts, nodes⟩ := Prod.mk.inj others
  obtain ⟨start, inner, gap, close, opened, run, -, -⟩ := body_items_classified accepted
  exact ⟨ts, body, span, rest, toOption_some_iff.mp tokenized, accepted, vars, stmts, nodes, start, inner, gap, close,
    opened, run⟩

end ViewLang.Grammar
