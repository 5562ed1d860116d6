import ViewLang.Proofs.Grammar.BodyItems

namespace ViewLang.Grammar

open Reader

/-- The decorators in front of a parameter: none in a plain list, any number in that of a function for the GPU. -/
inductive ParamDecorators : Reader (List Decorator) → Prop
  | none : ParamDecorators (pure [])
  | any : ParamDecorators decoratorList

theorem ParamDecorators.alike {decorators : Reader (List Decorator)} (kind : ParamDecorators decorators) (k : Nat) :
    Alike 0 k decorators decorators := by
  cases kind with
  | none => exact alike_pure []
  | any => exact decoratorList_alike

theorem ParamDecorators.at_close {decorators : Reader (List Decorator)} (kind : ParamDecorators decorators)
    {ts : Tokens} (closes : front ts = some (.symbol .rightParen)) : decorators ts = .ok ([], ts) := by
  cases kind with
  | none => rfl
  | any =>
    refine whileSome_stop ?_
    simp [closes]

def ParamEntry.variadic (e : ParamEntry) : Bool := e.ty.any (·.2)

section

variable (decorators : Reader (List Decorator))

inductive EntryWritten (before after : Tokens) : ParamEntry → Prop
  | untyped {ds : List Decorator} {name : Name}
    (named : decorators before = .ok (ds, ⟨.ident name.value, name.span⟩ :: after))
    (ends : front after = some (.symbol .comma) ∨ front after = some (.symbol .rightParen)) :
    EntryWritten before after ⟨ds, name, none⟩
  | typed {ds : List Decorator} {name : Name} {ty : Located TypeExpr} {mid : Tokens}
    (named : decorators before = .ok (ds, ⟨.ident name.value, name.span⟩ :: mid)) (typed : type mid = .ok (ty, after)) :
    EntryWritten before after ⟨ds, name, some (ty, false)⟩
  | variadic {ds : List Decorator} {name : Name} {s : Span} {ty : Located TypeExpr} {mid : Tokens}
    (named : decorators before = .ok (ds, ⟨.ident name.value, name.span⟩ :: ⟨.symbol .ellipsis, s⟩ :: mid))
    (typed : type mid = .ok (ty, after)) : EntryWritten before after ⟨ds, name, some (ty, true)⟩

inductive EntriesWritten : Tokens → List ParamEntry → Tokens → Prop
  | close {s : Span} {rest : Tokens} : EntriesWritten (⟨.symbol .rightParen, s⟩ :: rest) [] rest
  | last {ts : Tokens} {e : ParamEntry} {s : Span} {rest : Tokens}
    (entry : EntryWritten decorators ts (⟨.symbol .rightParen, s⟩ :: rest) e) : EntriesWritten ts [e] rest
  | more {ts later : Tokens} {e : ParamEntry} {es : List ParamEntry} {s : Span} {rest : Tokens}
    (entry : EntryWritten decorators ts (⟨.symbol .comma, s⟩ :: later) e) (others : EntriesWritten later es rest) :
    EntriesWritten ts (e :: es) rest

end

/-- The tokens are a parameter list with these entries, up to `rest`. -/
def ParamsWritten (decorators : Reader (List Decorator)) (ts : Tokens) (es : List ParamEntry) (rest : Tokens) : Prop :=
  ∃ s inner, ts = ⟨.symbol .leftParen, s⟩ :: inner ∧ EntriesWritten decorators inner es rest

theorem typeStep_refuses {inner : Reader (Located TypeExpr)} {ts : Tokens} (stops : startsType (front ts) = false) :
    typeStep inner ts = fail "type" ts := by
  cases ts with
  | nil => rfl
  | cons t ts =>
    obtain ⟨value, span⟩ := t
    cases value with
    | keyword k => cases k <;> first | rfl | cases stops
    | symbol s => cases s <;> first | rfl | cases stops
    | _ => first | rfl | cases stops

theorem type_starts {ts rest : Tokens} {ty : Located TypeExpr} (read : type ts = .ok (ty, rest)) :
    startsType (front ts) = true := by
  by_contra stops
  have refused : type ts = fail "type" ts := typeStep_refuses (eq_false_of_ne_true stops)
  cases fail_ok.mp (refused.symm.trans read)

section

variable {decorators : Reader (List Decorator)} {ts rest : Tokens}

theorem entry_ok {e : ParamEntry} :
    paramEntry decorators ts = .ok (e, rest) ↔ EntryWritten decorators ts rest e := by
  constructor
  · intro read
    obtain ⟨ds, mid, decorated, read⟩ := bind_ok.mp read
    obtain ⟨name, mid', named, read⟩ := bind_ok.mp read
    obtain ⟨ellipsis, mid₂, eaten, read⟩ := bind_ok.mp read
    obtain ⟨next, mid₃, peeked, read⟩ := bind_ok.mp read
    rw [ident_ok.mp named] at decorated
    rw [peek?_apply] at peeked
    cases peeked
    cases ellipsis with
    | some s =>
      rw [eat?_some eaten] at decorated
      obtain ⟨ty, _, typed, read⟩ := bind_ok.mp read
      obtain ⟨rfl, rfl⟩ := pure_ok.mp read
      exact .variadic decorated typed
    | none =>
      cases eat?_none eaten
      split at read
      · obtain ⟨ty, _, typed, read⟩ := bind_ok.mp read
        obtain ⟨rfl, rfl⟩ := pure_ok.mp read
        exact .typed decorated typed
      · rename_i ends
        obtain ⟨rfl, rfl⟩ := pure_ok.mp read
        exact .untyped decorated (by simpa [or_iff_not_imp_left] using ends)
  · intro written
    cases written with
    | untyped named ends =>
      have noEllipsis : front rest ≠ some (.symbol .ellipsis) := by
        rcases ends with ends | ends <;> rw [ends] <;> decide
      have untyped : ¬(front rest ≠ some (.symbol .comma) ∧ front rest ≠ some (.symbol .rightParen)) := by
        rwa [not_and_or, not_ne_iff, not_ne_iff]
      simp [paramEntry, named, eat?_of_ne noEllipsis, untyped]
    | typed named typed =>
      have starts := type_starts typed
      rename_i ds name ty mid
      have other {u : Token} (stops : startsType (some u) = false) : front mid ≠ some u := fun same => by
        rw [same, stops] at starts
        cases starts
      simp [paramEntry, named, eat?_of_ne (other (u := .symbol .ellipsis) rfl), other (u := .symbol .comma) rfl,
        other (u := .symbol .rightParen) rfl, typed]
    | variadic named typed => simp [paramEntry, named, typed]

theorem entries_written {n : Nat} {es : List ParamEntry} {s : Span}
    (read : commaListUpTo (.symbol .rightParen) "`,` or `)`" (paramEntry decorators) n ts = .ok ((es, s), rest)) :
    EntriesWritten decorators ts es rest := by
  induction n generalizing ts es with
  | zero => cases fail_ok.mp read
  | succ n ih =>
    obtain ⟨closed, mid, closing, read⟩ := bind_ok.mp read
    cases closed with
    | some s' =>
      rw [eat?_some closing]
      obtain ⟨same, rfl⟩ := pure_ok.mp read
      cases same
      exact .close
    | none =>
      cases eat?_none closing
      obtain ⟨e, mid', entry, read⟩ := bind_ok.mp read
      obtain ⟨comma, mid₂, eaten, read⟩ := bind_ok.mp read
      cases comma with
      | none =>
        cases eat?_none eaten
        obtain ⟨s', mid₃, closed, read⟩ := bind_ok.mp read
        obtain ⟨same, rfl⟩ := pure_ok.mp read
        cases same
        rw [expect_ok closed] at entry
        exact .last (entry_ok.mp entry)
      | some s' =>
        obtain ⟨⟨es', s''⟩, mid₃, others, read⟩ := bind_ok.mp read
        obtain ⟨same, rfl⟩ := pure_ok.mp read
        cases same
        rw [eat?_some eaten] at entry
        exact .more (entry_ok.mp entry) (ih others)

variable (kind : ParamDecorators decorators)

include kind

theorem ParamDecorators.keeps_entry : Keeps (paramEntry decorators) :=
  keeps_of_alike fun k => (paramEntry_alike (kind.alike k)).keep

theorem EntryWritten.not_close {e : ParamEntry} (written : EntryWritten decorators ts rest e) :
    front ts ≠ some (.symbol .rightParen) := by
  intro closes
  have undecorated := kind.at_close closes
  cases written with
  | untyped named _ | typed named _ | variadic named _ =>
    cases undecorated.symm.trans named
    cases closes

theorem EntriesWritten.read {es : List ParamEntry} (written : EntriesWritten decorators ts es rest) :
    ∃ s, commaList (.symbol .rightParen) "`,` or `)`" (paramEntry decorators) ts = .ok ((es, s), rest) := by
  induction written with
  | @close s rest =>
    rw [commaList_eq kind.keeps_entry]
    exact ⟨s, by simp [commaStep]⟩
  | @last ts e s rest entry =>
    refine ⟨s, ?_⟩
    have noComma : front (⟨.symbol .rightParen, s⟩ :: rest) ≠ some (.symbol .comma) := by simp
    rw [commaList_eq kind.keeps_entry]
    simp [commaStep, eat?_of_ne (entry.not_close kind), entry_ok.mpr entry, eat?_of_ne noComma]
  | @more ts later e es s rest entry _ ih =>
    obtain ⟨s', ih⟩ := ih
    refine ⟨s', ?_⟩
    rw [commaList_eq kind.keeps_entry]
    simp [commaStep, eat?_of_ne (entry.not_close kind), entry_ok.mpr entry, ih]

end

def LastUntyped (es : List ParamEntry) : Prop := ∃ e, es.getLast? = some e ∧ e.ty = none

structure NearestType (es : List ParamEntry) (i j : Nat) (ty : Located TypeExpr) : Prop where
  behind : i ≤ j
  typed : ∃ e dots, es[j]? = some e ∧ e.ty = some (ty, dots)
  untyped : ∀ k, i ≤ k → k < j → ∃ e, es[k]? = some e ∧ e.ty = none

/-- A parameter for each entry, in order. -/
structure Shared (es : List ParamEntry) (ps : List DecoratedParam) : Prop where
  count : ps.length = es.length
  each : ∀ i p, ps[i]? = some p → ∃ e, es[i]? = some e ∧ p.decorators = e.decorators ∧ p.param.name = e.name ∧
    p.param.variadic = e.variadic ∧ ∃ j, NearestType es i j p.param.ty

theorem NearestType.succ {es : List ParamEntry} {i j : Nat} {ty : Located TypeExpr} (nearest : NearestType es i j ty)
    (e : ParamEntry) : NearestType (e :: es) (i + 1) (j + 1) ty := by
  obtain ⟨behind, typed, untyped⟩ := nearest
  refine ⟨Nat.succ_le_succ behind, typed, fun k least less => ?_⟩
  obtain ⟨k, rfl⟩ := Nat.exists_eq_add_one.mpr (Nat.zero_lt_of_lt least)
  exact untyped k (Nat.le_of_succ_le_succ least) (Nat.lt_of_succ_lt_succ less)

theorem NearestType.own {es : List ParamEntry} {e : ParamEntry} {ty : Located TypeExpr} {dots : Bool}
    (typed : e.ty = some (ty, dots)) : NearestType (e :: es) 0 0 ty :=
  ⟨Nat.le_refl 0, ⟨e, dots, rfl, typed⟩, fun _ _ less => absurd less (Nat.not_lt_zero _)⟩

/-- An entry without a type takes that of the next one. -/
theorem NearestType.borrowed {es : List ParamEntry} {e : ParamEntry} {j : Nat} {ty : Located TypeExpr}
    (nearest : NearestType es 0 j ty) (untyped : e.ty = none) : NearestType (e :: es) 0 (j + 1) ty := by
  obtain ⟨-, typed, between⟩ := nearest
  refine ⟨Nat.zero_le _, typed, fun k _ less => ?_⟩
  cases k with
  | zero => exact ⟨e, rfl, untyped⟩
  | succ k => exact between k (Nat.zero_le k) (Nat.lt_of_succ_lt_succ less)

theorem Shared.cons {es : List ParamEntry} {ps : List DecoratedParam} (others : Shared es ps) {e : ParamEntry}
    {ty : Located TypeExpr} {j : Nat} (nearest : NearestType (e :: es) 0 j ty) :
    Shared (e :: es) (⟨e.decorators, ⟨e.name, ty, e.variadic⟩⟩ :: ps) := by
  refine ⟨congrArg (· + 1) others.count, fun i p at_i => ?_⟩
  cases i with
  | zero =>
    cases at_i
    exact ⟨e, rfl, rfl, rfl, rfl, j, nearest⟩
  | succ i =>
    obtain ⟨e', found, decorators, name, variadic, k, typed⟩ := others.each i p at_i
    exact ⟨e', found, decorators, name, variadic, k + 1, typed.succ e⟩

/-- By induction on the entries; the type in wait at the front is that of the nearest entry with one. -/
theorem shareTypes_shared {es : List ParamEntry} {ps : List DecoratedParam} {next : Option (Located TypeExpr)}
    (shared : shareTypes es = some (ps, next)) :
    Shared es ps ∧ (∀ ty, next = some ty → ∃ j, NearestType es 0 j ty) := by
  induction es generalizing ps next with
  | nil =>
    cases shared
    exact ⟨⟨rfl, nofun⟩, nofun⟩
  | cons e es ih =>
    obtain ⟨ds, name, ty⟩ := e
    rw [shareTypes, Option.bind_eq_bind, Option.bind_eq_some_iff] at shared
    obtain ⟨⟨others, following⟩, sharedRest, shared⟩ := shared
    obtain ⟨rest, waiting⟩ := ih sharedRest
    have step {ty : Located TypeExpr} {j : Nat} {e : ParamEntry} (nearest : NearestType (e :: es) 0 j ty) :
        Shared (e :: es) (⟨e.decorators, ⟨e.name, ty, e.variadic⟩⟩ :: others) ∧
          ∀ ty', some ty = some ty' → ∃ j, NearestType (e :: es) 0 j ty' :=
      ⟨rest.cons nearest, by rintro _ ⟨⟩; exact ⟨j, nearest⟩⟩
    cases ty with
    | some ty =>
      cases shared
      exact step (e := ⟨ds, name, some ty⟩) (.own rfl)
    | none =>
      cases following with
      | none => cases shared
      | some ty =>
        cases shared
        obtain ⟨j, nearest⟩ := waiting ty rfl
        exact step (e := ⟨ds, name, none⟩) (nearest.borrowed rfl)

/-- Behind the first entry there is always a type to take. -/
theorem shareTypes_waiting {es : List ParamEntry} {ps : List DecoratedParam} {next : Option (Located TypeExpr)}
    (shared : shareTypes es = some (ps, next)) : next = none ↔ es = [] := by
  cases es with
  | nil =>
    cases shared
    simp
  | cons e es =>
    rw [shareTypes, Option.bind_eq_bind, Option.bind_eq_some_iff] at shared
    obtain ⟨⟨others, following⟩, -, shared⟩ := shared
    dsimp only at shared
    split at shared <;> cases shared <;> simp

/-- By induction on the entries: the only one that can lack a type of its own and of those behind it is the last. -/
theorem shareTypes_none {es : List ParamEntry} : shareTypes es = none ↔ LastUntyped es := by
  induction es with
  | nil =>
    constructor
    · intro refused
      cases refused
    · rintro ⟨_, ⟨⟩, -⟩
  | cons e es ih =>
    rw [shareTypes, Option.bind_eq_bind, Option.bind_eq_none_iff]
    cases es with
    | nil =>
      obtain ⟨ds, name, ty⟩ := e
      cases ty with
      | none => exact iff_of_true (by rintro _ ⟨⟩; rfl) ⟨_, rfl, rfl⟩
      | some ty =>
        refine iff_of_false (fun refused => ?_) (by rintro ⟨_, ⟨⟩, ⟨⟩⟩)
        cases refused _ rfl
    | cons e' es =>
      have last : LastUntyped (e :: e' :: es) ↔ LastUntyped (e' :: es) := by
        simp [LastUntyped, List.getLast?_cons_cons]
      rw [last, ← ih]
      refine ⟨fun refused => ?_, fun refused _ shared => absurd shared (by simp [refused])⟩
      by_contra accepted
      obtain ⟨⟨ps, next⟩, shared⟩ := Option.ne_none_iff_exists'.mp accepted
      cases next with
      | none => cases (shareTypes_waiting shared).mp rfl
      | some ty =>
        have refused := refused _ shared
        dsimp only at refused
        split at refused <;> simp_all

theorem Shared.variadic_map {es : List ParamEntry} {ps : List DecoratedParam} (shared : Shared es ps) :
    ps.map (fun p => (p.param.name, p.param.variadic)) = es.map fun e => (e.name, e.variadic) := by
  refine List.ext_getElem? fun i => ?_
  rw [List.getElem?_map, List.getElem?_map]
  cases at_i : ps[i]? with
  | some p =>
    obtain ⟨e, found, -, name, variadic, -⟩ := shared.each i p at_i
    simp [found, name, variadic]
  | none =>
    have beyond : es[i]? = none := by
      rw [List.getElem?_eq_none_iff] at at_i ⊢
      exact shared.count ▸ at_i
    simp [beyond]

/-- The parameter to blame is that of the first entry with `...` in front of the last. -/
theorem Shared.misplaced {es : List ParamEntry} {ps : List DecoratedParam} (shared : Shared es ps) :
    (misplacedVariadic? ps).map (·.param.name) = (es.dropLast.find? ParamEntry.variadic).map ParamEntry.name := by
  have front := congrArg (fun l => (l.dropLast.find? Prod.snd).map Prod.fst) shared.variadic_map
  simpa [misplacedVariadic?, ← List.map_dropLast, List.find?_map, Function.comp_def] using front

/-- The failure is reported as E102 at the name and nowhere else, whatever is read around the list. -/
def Blames (f : Failure) (name : Name) : Prop :=
  ∀ tokens starts, let d := Failure.diagnostic tokens { f with starts := starts }
    d.code.map Code.text = some "E102" ∧ marks d = [(name.span, true)]

inductive ListOutcome (es : List ParamEntry) (rest : Tokens) : Except Failure (List DecoratedParam × Tokens) → Prop
  | accepted {ps : List DecoratedParam} (typed : ¬LastUntyped es) (last : ∀ e ∈ es.dropLast, e.variadic = false)
    (shared : Shared es ps) : ListOutcome es rest (.ok (ps, rest))
  | untyped (untyped : LastUntyped es) : ListOutcome es rest (.error ⟨.expected "parameter type", rest.length, []⟩)
  | misplaced {before behind : List ParamEntry} {e : ParamEntry} (typed : ¬LastUntyped es)
    (split : es.dropLast = before ++ e :: behind) (first : ∀ b ∈ before, b.variadic = false)
    (variadic : e.variadic = true) : ListOutcome es rest (.error ⟨.variadicNotLast e.name.span, rest.length, []⟩)

section

variable {decorators : Reader (List Decorator)} {ts rest : Tokens} {es : List ParamEntry}

theorem paramList_written {ps : List DecoratedParam} (read : paramList decorators ts = .ok (ps, rest)) :
    ∃ es, ParamsWritten decorators ts es rest := by
  obtain ⟨s, inner, opened, read⟩ := bind_ok.mp read
  obtain ⟨⟨es, close⟩, mid, listed, read⟩ := bind_ok.mp read
  refine ⟨es, s, inner, expect_ok opened, ?_⟩
  have stays : mid = rest := by
    dsimp only at read
    cases sharing : shareTypes es with
    | none =>
      rw [sharing] at read
      cases fail_ok.mp read
    | some x =>
      rw [sharing] at read
      dsimp only at read
      cases misplaced : misplacedVariadic? x.1 with
      | none =>
        rw [misplaced] at read
        exact (pure_ok.mp read).2
      | some d =>
        rw [misplaced] at read
        cases read
  exact stays ▸ entries_written listed

theorem paramList_listOutcome (kind : ParamDecorators decorators) (written : ParamsWritten decorators ts es rest) :
    ListOutcome es rest (paramList decorators ts) := by
  obtain ⟨s, inner, rfl, written⟩ := written
  obtain ⟨close, read⟩ := written.read kind
  cases sharing : shareTypes es with
  | none =>
    have refused : paramList decorators (⟨.symbol .leftParen, s⟩ :: inner) =
        .error ⟨.expected "parameter type", rest.length, []⟩ := by simp [paramList, read, sharing, fail]
    exact refused ▸ .untyped (shareTypes_none.mp sharing)
  | some x =>
    obtain ⟨ps, next⟩ := x
    have typed : ¬LastUntyped es := by
      intro untyped
      cases (shareTypes_none.mpr untyped).symm.trans sharing
    have shared := (shareTypes_shared sharing).1
    have blamed := shared.misplaced
    cases misplaced : misplacedVariadic? ps with
    | none =>
      have accepted : paramList decorators (⟨.symbol .leftParen, s⟩ :: inner) = .ok (ps, rest) := by
        simp [paramList, read, sharing, misplaced]
      rw [misplaced, Option.map_none, eq_comm, Option.map_eq_none_iff, List.find?_eq_none] at blamed
      exact accepted ▸ .accepted typed (fun e member => eq_false_of_ne_true (blamed e member)) shared
    | some d =>
      rw [misplaced, Option.map_some, eq_comm, Option.map_eq_some_iff] at blamed
      obtain ⟨e, found, name⟩ := blamed
      obtain ⟨variadic, before, behind, split, first⟩ := List.find?_eq_some_iff_append.mp found
      have refused : paramList decorators (⟨.symbol .leftParen, s⟩ :: inner) =
          .error ⟨.variadicNotLast e.name.span, rest.length, []⟩ := by
        simp [paramList, read, sharing, misplaced, name]
      exact refused ▸ .misplaced typed split (fun b member => by simpa using first b member) variadic

end

/-- Reading a list, and refusing one. -/
theorem paramList_outcome {decorators : Reader (List Decorator)} (kind : ParamDecorators decorators) :
    (∀ ts ps rest, paramList decorators ts = .ok (ps, rest) →
      ∃ es, ParamsWritten decorators ts es rest ∧ Shared es ps ∧
        ∀ i p, ps[i]? = some p → p.param.variadic = true → i + 1 = ps.length) ∧
    ∀ ts es rest, ParamsWritten decorators ts es rest →
      (∀ ps rest', paramList decorators ts = .ok (ps, rest') → rest' = rest ∧ Shared es ps) ∧
      ((∃ f, paramList decorators ts = .error f) ↔
        LastUntyped es ∨ ¬LastUntyped es ∧ ∃ e ∈ es.dropLast, e.variadic = true) ∧
      (¬LastUntyped es → ∀ before e behind, es.dropLast = before ++ e :: behind → e.variadic = true →
        (∀ b ∈ before, b.variadic = false) → ∃ f, paramList decorators ts = .error f ∧ Blames f e.name) := by
  refine ⟨fun ts ps rest read => ?_, fun ts es rest written => ?_⟩
  · obtain ⟨es, written⟩ := paramList_written read
    have outcome := paramList_listOutcome kind written
    rw [read] at outcome
    cases outcome with
    | accepted typed last shared =>
      refine ⟨es, written, shared, fun i p at_i variadic => ?_⟩
      obtain ⟨e, found, -, -, own, -⟩ := shared.each i p at_i
      have inside := (List.getElem?_eq_some_iff.mp at_i).1
      by_contra notLast
      have inFront : e ∈ es.dropLast := by
        refine List.mem_of_getElem? (i := i) ?_
        rw [List.getElem?_dropLast, if_pos (by have := shared.count; omega), found]
      rw [own, last e inFront] at variadic
      cases variadic
  · have outcome := paramList_listOutcome kind written
    generalize paramList decorators ts = answer at outcome
    cases outcome with
    | accepted typed last shared =>
      refine ⟨by rintro _ _ ⟨⟩; exact ⟨rfl, shared⟩, iff_of_false nofun ?_,
        fun _ before e behind split variadic _ => ?_⟩
      · rintro (untyped | ⟨-, e, member, variadic⟩)
        · exact typed untyped
        · rw [last e member] at variadic
          cases variadic
      · rw [last e (split ▸ List.mem_append_right _ List.mem_cons_self)] at variadic
        cases variadic
    | untyped untyped => exact ⟨nofun, iff_of_true ⟨_, rfl⟩ (.inl untyped), fun typed => absurd untyped typed⟩
    | @misplaced before behind e typed split first variadic =>
      have member : e ∈ es.dropLast := split ▸ List.mem_append_right _ List.mem_cons_self
      refine ⟨nofun, iff_of_true ⟨_, rfl⟩ (.inr ⟨typed, e, member, variadic⟩),
        fun _ before' e' behind' split' variadic' first' => ⟨_, rfl, fun tokens starts => ?_⟩⟩
      have found {a b : List ParamEntry} {x : ParamEntry} (at_x : es.dropLast = a ++ x :: b)
          (dots : x.variadic = true) (none : ∀ y ∈ a, y.variadic = false) :
          es.dropLast.find? ParamEntry.variadic = some x :=
        List.find?_eq_some_iff_append.mpr ⟨dots, a, b, at_x, fun y member => by simp [none y member]⟩
      cases (found split variadic first).symm.trans (found split' variadic' first')
      exact ⟨rfl, rfl⟩

def groupedTokens : Tokens :=
  [⟨.symbol .leftParen, ⟨0, 1⟩⟩, ⟨.ident "a", ⟨1, 2⟩⟩, ⟨.symbol .comma, ⟨2, 3⟩⟩, ⟨.ident "b", ⟨4, 5⟩⟩,
    ⟨.ident "int", ⟨6, 9⟩⟩, ⟨.symbol .comma, ⟨9, 10⟩⟩, ⟨.ident "rest", ⟨11, 15⟩⟩, ⟨.symbol .ellipsis, ⟨16, 19⟩⟩,
    ⟨.ident "string", ⟨19, 25⟩⟩, ⟨.symbol .comma, ⟨25, 26⟩⟩, ⟨.symbol .rightParen, ⟨26, 27⟩⟩]

def dotsInFront : Tokens :=
  [⟨.symbol .leftParen, ⟨0, 1⟩⟩, ⟨.ident "ids", ⟨1, 4⟩⟩, ⟨.symbol .ellipsis, ⟨5, 8⟩⟩, ⟨.ident "int", ⟨8, 11⟩⟩,
    ⟨.symbol .comma, ⟨11, 12⟩⟩, ⟨.ident "b", ⟨13, 14⟩⟩, ⟨.ident "int", ⟨15, 18⟩⟩, ⟨.symbol .rightParen, ⟨18, 19⟩⟩]

theorem paramList_outcome_grouped :
    (∃ ps es, paramList (pure []) groupedTokens = .ok (ps, []) ∧ ParamsWritten (pure []) groupedTokens es [] ∧
      Shared es ps ∧ ps.map (fun p => (p.param.name.value, p.param.ty.value, p.param.variadic)) =
        [("a", .named "int", false), ("b", .named "int", false), ("rest", .named "string", true)]) ∧
    ∃ es f, ParamsWritten (pure []) dotsInFront es [] ∧ ¬LastUntyped es ∧
      paramList (pure []) dotsInFront = .error f ∧ Blames f ⟨"ids", ⟨1, 4⟩⟩ := by
  constructor
  · have read : ∃ ps, paramList (pure []) groupedTokens = .ok (ps, []) ∧
        ps.map (fun p => (p.param.name.value, p.param.ty.value, p.param.variadic)) =
          [("a", .named "int", false), ("b", .named "int", false), ("rest", .named "string", true)] := ⟨_, rfl, rfl⟩
    obtain ⟨ps, read, known⟩ := read
    obtain ⟨es, written, shared, -⟩ := (paramList_outcome .none).1 _ ps [] read
    exact ⟨ps, es, read, written, shared, known⟩
  · let ids : ParamEntry := ⟨[], ⟨"ids", ⟨1, 4⟩⟩, some (⟨.named "int", ⟨8, 11⟩⟩, true)⟩
    let b : ParamEntry := ⟨[], ⟨"b", ⟨13, 14⟩⟩, some (⟨.named "int", ⟨15, 18⟩⟩, false)⟩
    have written : ParamsWritten (pure []) dotsInFront [ids, b] [] :=
      ⟨_, _, rfl, .more (.variadic rfl rfl) (.last (.typed rfl rfl))⟩
    have typed : ¬LastUntyped [ids, b] := by rintro ⟨_, ⟨⟩, ⟨⟩⟩
    obtain ⟨f, refused, blamed⟩ :=
      ((paramList_outcome .none).2 _ _ [] written).2.2 typed [] ids [] rfl rfl nofun
    exact ⟨_, f, written, typed, refused, blamed⟩

end ViewLang.Grammar
