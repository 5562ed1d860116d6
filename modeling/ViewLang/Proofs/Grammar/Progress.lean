import ViewLang.Grammar.Unit
import ViewLang.Proofs.Grammar.Reading

namespace ViewLang.Grammar

variable {α β : Type}

structure Failure.Inside (f : Failure) (ts : Tokens) : Prop where
  left_le : f.left ≤ ts.length
  named : ∀ span, f.cause = .variadicNotLast span → ∃ name, (⟨.ident name, span⟩ : Located Token) ∈ ts

/-- Where something else was expected, nobody is blamed. -/
theorem Failure.Inside.expected (what : String) (ts : Tokens) : Failure.Inside ⟨.expected what, ts.length, []⟩ ts := by
  refine ⟨Nat.le_refl _, ?_⟩
  intro span blamed
  cases blamed

theorem Failure.Inside.of_suffix {f : Failure} {us ts : Tokens} (inside : f.Inside us) (shorter : us <:+ ts) :
    f.Inside ts := by
  refine ⟨Nat.le_trans inside.left_le shorter.length_le, ?_⟩
  intro span blamed
  obtain ⟨name, member⟩ := inside.named span blamed
  exact ⟨name, shorter.subset member⟩

def Takes (least : Nat) (ts : Tokens) : Except Failure (α × Tokens) → Prop
  | .ok (_, rest) => rest <:+ ts ∧ rest.length + least ≤ ts.length
  | .error f => f.Inside ts

def AlikeAt (least : Nat) (ts : Tokens) (p q : Reader α) : Prop := p ts = q ts ∧ Takes least ts (p ts)

def Alike (least bound : Nat) (p q : Reader α) : Prop := ∀ ts, ts.length < bound → AlikeAt least ts p q

section

variable {i j k : Nat} {ts rest : Tokens} {p q : Reader α} {f g : α → Reader β}

theorem AlikeAt.ok {a : α} (alike : AlikeAt i ts p q) (read : p ts = .ok (a, rest)) :
    rest <:+ ts ∧ rest.length + i ≤ ts.length := by
  have takes := alike.2
  rwa [read] at takes

theorem AlikeAt.error {e : Failure} (alike : AlikeAt i ts p q) (failed : p ts = .error e) : e.Inside ts := by
  have takes := alike.2
  rwa [failed] at takes

theorem AlikeAt.of_answer (same : p ts = q ts)
    (answered : ∀ a rest, p ts = .ok (a, rest) → rest <:+ ts ∧ rest.length + i ≤ ts.length)
    (failed : ∀ e, p ts = .error e → e.Inside ts) : AlikeAt i ts p q := by
  refine ⟨same, ?_⟩
  cases answer : p ts with
  | error e => exact failed e answer
  | ok x => exact answered x.1 x.2 answer

theorem bind_error {e : Failure} :
    (p >>= f) ts = .error e ↔ p ts = .error e ∨ ∃ a mid, p ts = .ok (a, mid) ∧ f a mid = .error e := by
  rw [Reader.bind_apply]
  cases p ts with
  | error e' => simp
  | ok x =>
    refine ⟨fun h => .inr ⟨x.1, x.2, rfl, h⟩, ?_⟩
    rintro (failed | ⟨a, mid, read, h⟩)
    · cases failed
    · cases read
      exact h

theorem AlikeAt.weaken (alike : AlikeAt i ts p q) (fewer : j ≤ i) : AlikeAt j ts p q := by
  refine .of_answer alike.1 ?_ fun _ => alike.error
  intro a rest read
  obtain ⟨suffix, shorter⟩ := alike.ok read
  exact ⟨suffix, by omega⟩

/-- What is read first takes tokens from what is read next. -/
theorem AlikeAt.bind (first : AlikeAt i ts p q)
    (next : ∀ a rest, p ts = .ok (a, rest) → rest.length + i ≤ ts.length → AlikeAt j rest (f a) (g a)) :
    AlikeAt (i + j) ts (p >>= f) (q >>= g) := by
  cases read : p ts with
  | error e =>
    have refused : q ts = .error e := first.1 ▸ read
    exact .of_answer (by simp [read, refused]) (by simp [read]) (by simpa [read] using first.error read)
  | ok x =>
    obtain ⟨a, mid⟩ := x
    obtain ⟨suffix, shorter⟩ := first.ok read
    have later := next a mid read shorter
    have same : q ts = .ok (a, mid) := first.1 ▸ read
    refine .of_answer ?_ ?_ ?_
    · rw [Reader.bind_of_ok read, Reader.bind_of_ok same]
      exact later.1
    · rw [Reader.bind_of_ok read]
      intro b rest read'
      obtain ⟨suffix', shorter'⟩ := later.ok read'
      exact ⟨suffix'.trans suffix, by omega⟩
    · rw [Reader.bind_of_ok read]
      intro e failed
      exact (later.error failed).of_suffix suffix

/-- The readers at least leave an end of the tokens. -/
theorem AlikeAt.keep (alike : AlikeAt i ts p q) : AlikeAt 0 ts p q := alike.weaken (Nat.zero_le i)

theorem Alike.keep (alike : Alike i k p q) : Alike 0 k p q := fun ts short => (alike ts short).keep

theorem Alike.shrink {m : Nat} (alike : Alike i k p q) (less : m ≤ k) : Alike i m p q :=
  fun ts short => alike ts (Nat.lt_of_lt_of_le short less)

theorem Alike.bind (first : Alike i k p q) (next : ∀ a, Alike j k (f a) (g a)) :
    Alike (i + j) k (p >>= f) (q >>= g) :=
  fun ts short => (first ts short).bind fun a rest _ shorter => next a rest (by omega)

/-- Behind a token, readers need to be alike on fewer tokens. -/
theorem Alike.behind (first : Alike 1 (k + 1) p q) (next : ∀ a, Alike j k (f a) (g a)) :
    Alike (1 + j) (k + 1) (p >>= f) (q >>= g) :=
  fun ts short => (first ts short).bind fun a rest _ shorter => next a rest (by omega)

theorem AlikeAt.map (g : α → β) (alike : AlikeAt i ts p q) : AlikeAt i ts (g <$> p) (g <$> q) := by
  refine .of_answer ?_ ?_ ?_
  · rw [Reader.map_apply, Reader.map_apply, alike.1]
  · intro b rest read
    obtain ⟨a, read, -⟩ := Reader.map_ok.mp read
    exact alike.ok read
  · intro e failed
    rw [Reader.map_apply] at failed
    cases answer : p ts with
    | ok x =>
      rw [answer] at failed
      cases failed
    | error e' =>
      rw [answer] at failed
      cases failed
      exact alike.error answer

theorem Alike.map (g : α → β) (alike : Alike i k p q) : Alike i k (g <$> p) (g <$> q) :=
  fun ts short => (alike ts short).map g

theorem AlikeAt.within (alike : AlikeAt i ts p q) : AlikeAt i ts (Reader.within p) (Reader.within q) := by
  refine .of_answer ?_ ?_ ?_
  · rw [Reader.within_apply, Reader.within_apply, alike.1]
  · intro a rest read
    exact alike.ok (Reader.within_ok.mp read)
  · intro e failed
    rw [Reader.within_apply] at failed
    cases answer : p ts with
    | ok x =>
      rw [answer] at failed
      cases failed
    | error e' =>
      rw [answer] at failed
      cases failed
      exact ⟨(alike.error answer).left_le, (alike.error answer).named⟩

theorem Alike.within (alike : Alike i k p q) : Alike i k (Reader.within p) (Reader.within q) :=
  fun ts short => (alike ts short).within

theorem Alike.sized {p q : Nat → Reader α} (each : ∀ n, Alike i k (p n) (q n)) :
    Alike i k (Reader.sized p) (Reader.sized q) :=
  fun ts short => each ts.length ts short

end

section

variable {i k : Nat} {ts : Tokens} {p q : Reader α}

theorem AlikeAt.pure (a : α) : AlikeAt 0 ts (Pure.pure a) (Pure.pure a : Reader α) :=
  ⟨rfl, List.suffix_rfl, Nat.le_refl _⟩

theorem alike_pure (a : α) : Alike 0 k (Pure.pure a) (Pure.pure a : Reader α) := fun _ _ => .pure a

theorem alikeAt_fail (what : String) : AlikeAt i ts (Reader.fail what) (Reader.fail what : Reader α) :=
  ⟨rfl, .expected what ts⟩

theorem alike_fail (what : String) : Alike i k (Reader.fail what) (Reader.fail what : Reader α) :=
  fun _ _ => alikeAt_fail what

theorem alike_next : Alike 0 k Reader.next? Reader.next? := fun _ _ => ⟨rfl, List.suffix_rfl, Nat.le_refl _⟩

theorem AlikeAt.next {f g : Option (Located Token) → Reader β} (next : AlikeAt i ts (f ts.head?) (g ts.head?)) :
    AlikeAt i ts (Reader.next? >>= f) (Reader.next? >>= g) := next

theorem AlikeAt.peek {f g : Option Token → Reader β} (next : AlikeAt i ts (f (front ts)) (g (front ts))) :
    AlikeAt i ts (Reader.peek? >>= f) (Reader.peek? >>= g) := next

theorem alike_peek : Alike 0 k Reader.peek? Reader.peek? := fun _ _ => ⟨rfl, List.suffix_rfl, Nat.le_refl _⟩

theorem alike_second : Alike 0 k Reader.second? Reader.second? := fun _ _ => ⟨rfl, List.suffix_rfl, Nat.le_refl _⟩

theorem alike_at (t : Token) : Alike 0 k (Reader.at? t) (Reader.at? t) :=
  fun _ _ => ⟨rfl, List.suffix_rfl, Nat.le_refl _⟩

theorem alike_skip : Alike 0 k Reader.skip Reader.skip :=
  fun ts _ => ⟨rfl, List.tail_suffix ts, by simp⟩

theorem AlikeAt.skip {f g : Unit → Reader β} {t : Located Token} (next : AlikeAt i ts (f ()) (g ())) :
    AlikeAt 1 (t :: ts) (Reader.skip >>= f) (Reader.skip >>= g) := by
  have skipped : AlikeAt 1 (t :: ts) Reader.skip Reader.skip := ⟨rfl, List.suffix_cons t ts, by simp⟩
  refine skipped.bind (j := 0) fun a rest read _ => ?_
  cases read
  exact next.keep

theorem alike_eat (t : Token) : Alike 0 k (Reader.eat? t) (Reader.eat? t) := by
  intro ts _
  refine .of_answer rfl ?_ ?_
  · intro a rest read
    cases ts with
    | nil =>
      cases read
      exact ⟨List.suffix_rfl, Nat.le_refl _⟩
    | cons u us =>
      rw [Reader.eat?] at read
      split at read
      · cases read
        exact ⟨List.suffix_cons _ _, by simp⟩
      · cases read
        exact ⟨List.suffix_rfl, Nat.le_refl _⟩
  · intro e failed
    cases ts with
    | nil => cases failed
    | cons u us =>
      rw [Reader.eat?] at failed
      split at failed <;> cases failed

theorem AlikeAt.eaten {t : Token} {s : Span} {f g : Option Span → Reader β}
    (next : AlikeAt 0 ts (f (some s)) (g (some s))) :
    AlikeAt 1 (⟨t, s⟩ :: ts) (Reader.eat? t >>= f) (Reader.eat? t >>= g) := by
  have taken : AlikeAt 1 (⟨t, s⟩ :: ts) (Reader.eat? t) (Reader.eat? t) := .of_answer rfl (by simp) (by simp)
  refine taken.bind (j := 0) fun o rest read _ => ?_
  rw [Reader.eat?_cons_self] at read
  cases read
  exact next

/-- A token that may be there: what is read behind it, or more than one token in its place. -/
theorem AlikeAt.eat {t : Token} {f g : Option Span → Reader β} (absent : AlikeAt 1 ts (f none) (g none))
    (present : ∀ s rest, ts = ⟨t, s⟩ :: rest → AlikeAt 0 rest (f (some s)) (g (some s))) :
    AlikeAt 1 ts (Reader.eat? t >>= f) (Reader.eat? t >>= g) := by
  cases ts with
  | nil => exact absent
  | cons u us =>
    by_cases same : u.value = t
    · obtain ⟨value, s⟩ := u
      obtain rfl : value = t := same
      exact .eaten (present s us rfl)
    · have other : front (u :: us) ≠ some t := fun h => same (Option.some.inj h)
      have left : Reader.eat? t (u :: us) = .ok (none, u :: us) := Reader.eat?_of_ne other
      rw [AlikeAt, Reader.bind_of_ok left, Reader.bind_of_ok left]
      exact absent

theorem alike_expect (t : Token) (what : String) : Alike 1 k (Reader.expect t what) (Reader.expect t what) := by
  intro ts _
  refine .of_answer rfl ?_ ?_
  · intro s rest read
    cases ts with
    | nil => cases read
    | cons u us =>
      rw [Reader.expect] at read
      split at read
      · cases read
        exact ⟨List.suffix_cons _ _, by simp⟩
      · cases read
  · intro e failed
    cases ts with
    | nil =>
      cases failed
      exact .expected what []
    | cons u us =>
      rw [Reader.expect] at failed
      split at failed
      · cases failed
      · cases failed
        exact .expected what (u :: us)

theorem alike_ident : Alike 1 k Reader.ident Reader.ident := by
  intro ts _
  refine .of_answer rfl ?_ ?_
  · intro n rest read
    rw [Reader.ident_ok.mp read]
    exact ⟨List.suffix_cons _ _, by simp⟩
  · intro e failed
    unfold Reader.ident at failed
    split at failed
    · cases failed
    · cases failed
      exact .expected _ _

theorem alike_stringLiteral : Alike 1 k Reader.stringLiteral Reader.stringLiteral := by
  intro ts _
  refine .of_answer rfl ?_ ?_
  · intro n rest read
    unfold Reader.stringLiteral at read
    split at read
    · cases read
      exact ⟨List.suffix_cons _ _, by simp⟩
    · cases read
  · intro e failed
    unfold Reader.stringLiteral at failed
    split at failed
    · cases failed
    · cases failed
      exact .expected _ _

theorem moreIdents_suffix (ts : Tokens) : (Reader.moreIdents ts).2 <:+ ts := by
  fun_induction Reader.moreIdents ts with
  | case1 s name span ts names rest more ih =>
    rw [more] at ih
    exact ih.trans ((List.suffix_cons _ _).trans (List.suffix_cons _ _))
  | case2 => exact List.suffix_rfl

theorem alike_identList : Alike 1 k Reader.identList Reader.identList := by
  refine alike_ident.bind (j := 0) fun first ts _ => .of_answer rfl ?_ nofun
  intro names rest read
  cases read
  exact ⟨moreIdents_suffix ts, (moreIdents_suffix ts).length_le⟩

theorem alike_dropWhile (gap : Located Token → Bool) :
    Alike 0 k (fun ts => .ok ((), ts.dropWhile gap)) (fun ts => .ok ((), ts.dropWhile gap)) :=
  fun _ _ => ⟨rfl, List.dropWhile_suffix gap, (List.dropWhile_suffix gap).length_le⟩

end

def RoundAt (ts : Tokens) (p q : Reader (Option α)) : Prop :=
  AlikeAt 0 ts p q ∧ ∀ a rest, p ts = .ok (some a, rest) → rest.length < ts.length

def Rounds (bound : Nat) (p q : Reader (Option α)) : Prop := ∀ ts, ts.length < bound → RoundAt ts p q

section

variable {i k : Nat} {ts : Tokens}

theorem RoundAt.advance {p q : Reader (Option α)} (alike : AlikeAt 1 ts p q) : RoundAt ts p q :=
  ⟨alike.keep, fun _ _ read => (alike.ok read).2⟩

theorem RoundAt.stop : RoundAt ts (pure none) (pure none : Reader (Option α)) := ⟨.pure none, nofun⟩

theorem RoundAt.next {f g : Option (Located Token) → Reader (Option α)} (next : RoundAt ts (f ts.head?) (g ts.head?)) :
    RoundAt ts (Reader.next? >>= f) (Reader.next? >>= g) := next

theorem RoundAt.peek {f g : Option Token → Reader (Option α)} (next : RoundAt ts (f (front ts)) (g (front ts))) :
    RoundAt ts (Reader.peek? >>= f) (Reader.peek? >>= g) := next

/-- A loop that goes on behind a token and stops without it. -/
theorem RoundAt.eat {t : Token} {f g : Option Span → Reader (Option α)}
    (stop : f none = pure none ∧ g none = pure none)
    (present : ∀ s rest, ts = ⟨t, s⟩ :: rest → AlikeAt 0 rest (f (some s)) (g (some s))) :
    RoundAt ts (Reader.eat? t >>= f) (Reader.eat? t >>= g) := by
  cases ts with
  | nil =>
    change RoundAt [] (f none) (g none)
    rw [stop.1, stop.2]
    exact .stop
  | cons u us =>
    by_cases same : u.value = t
    · obtain ⟨value, s⟩ := u
      obtain rfl : value = t := same
      exact .advance (.eaten (present s us rfl))
    · have other : front (u :: us) ≠ some t := fun h => same (Option.some.inj h)
      have left : Reader.eat? t (u :: us) = .ok (none, u :: us) := Reader.eat?_of_ne other
      rw [RoundAt, AlikeAt, Reader.bind_of_ok left, Reader.bind_of_ok left, stop.1, stop.2]
      exact RoundAt.stop

theorem Rounds.whileSomeUpTo {p q : Reader (Option α)} (rounds : Rounds k p q) (n : Nat) :
    Alike 0 k (Reader.whileSomeUpTo p n) (Reader.whileSomeUpTo q n) := by
  induction n with
  | zero => exact alike_pure []
  | succ n ih =>
    have first : Alike 0 k p q := fun ts short => (rounds ts short).1
    refine first.bind (j := 0) ?_
    rintro (_ | a)
    · exact alike_pure []
    · exact ih.bind (j := 0) fun as => alike_pure (a :: as)

theorem Rounds.whileSome {p q : Reader (Option α)} (rounds : Rounds k p q) :
    Alike 0 k (Reader.whileSome p) (Reader.whileSome q) :=
  .sized fun n => rounds.whileSomeUpTo (n + 1)

theorem Alike.commaListUpTo {close : Token} {what : String} {item item' : Reader α} (alike : Alike 0 k item item')
    (n : Nat) : Alike 1 k (Reader.commaListUpTo close what item n) (Reader.commaListUpTo close what item' n) := by
  induction n with
  | zero => exact alike_fail what
  | succ n ih =>
    intro ts short
    refine AlikeAt.eat ?_ fun s rest _ => .pure ([], s)
    refine (alike ts short).bind (j := 1) fun a mid _ shorter => AlikeAt.eat ?_ ?_
    · exact (alike_expect (k := k) close what mid (by omega)).bind (j := 0) fun s _ _ _ => .pure ([a], s)
    · rintro s rest rfl
      have others := ih rest (by rw [List.length_cons] at shorter; omega)
      exact others.keep.bind (j := 0) fun x _ _ _ => .pure (a :: x.1, x.2)

theorem Alike.commaList {close : Token} {what : String} {item item' : Reader α} (alike : Alike 0 k item item') :
    Alike 1 k (Reader.commaList close what item) (Reader.commaList close what item') :=
  .sized fun n => alike.commaListUpTo (n + 1)

theorem commaListUpTo_mem {close : Token} {what : String} {item : Reader α} (keeps : ∀ k, Alike 0 k item item)
    {n : Nat} {as : List α} {s : Span} {rest : Tokens}
    (h : Reader.commaListUpTo close what item n ts = .ok ((as, s), rest)) {a : α} (member : a ∈ as) :
    ∃ us mid, us <:+ ts ∧ item us = .ok (a, mid) := by
  induction n generalizing ts as with
  | zero => cases Reader.fail_ok.mp h
  | succ n ih =>
    obtain ⟨closed, mid, eaten, h⟩ := Reader.bind_ok.mp h
    have first := ((alike_eat close ts (Nat.lt_succ_self _)).ok eaten).1
    cases closed with
    | some s' =>
      obtain ⟨same, rfl⟩ := Reader.pure_ok.mp h
      cases same
      cases member
    | none =>
      obtain ⟨b, mid', read, h⟩ := Reader.bind_ok.mp h
      have second := ((keeps _ mid (Nat.lt_succ_self _)).ok read).1
      obtain ⟨comma, mid₂, eaten', h⟩ := Reader.bind_ok.mp h
      have third := ((alike_eat (.symbol .comma) mid' (Nat.lt_succ_self _)).ok eaten').1
      cases comma with
      | none =>
        obtain ⟨s', mid₃, -, h⟩ := Reader.bind_ok.mp h
        obtain ⟨same, rfl⟩ := Reader.pure_ok.mp h
        cases same
        obtain rfl := List.mem_singleton.mp member
        exact ⟨mid, mid', first, read⟩
      | some _ =>
        obtain ⟨⟨as', s'⟩, mid₃, others, h⟩ := Reader.bind_ok.mp h
        obtain ⟨same, rfl⟩ := Reader.pure_ok.mp h
        cases same
        rcases List.mem_cons.mp member with rfl | later
        · exact ⟨mid, mid', first, read⟩
        · obtain ⟨us, mid₄, shorter, read'⟩ := ih others later
          exact ⟨us, mid₄, shorter.trans (third.trans (second.trans first)), read'⟩

theorem Alike.itemsUpTo {gap : Reader Unit} {close : Token} {item item' : Reader α} (passes : Alike 0 k gap gap)
    (alike : Alike 0 k item item') (n : Nat) :
    Alike 1 k (Reader.itemsUpTo gap close item n) (Reader.itemsUpTo gap close item' n) := by
  induction n with
  | zero => exact alike_fail close.render
  | succ n ih =>
    intro ts short
    refine (passes ts short).bind (j := 1) fun _ mid _ shorter => ?_
    refine AlikeAt.eat ?_ fun s rest _ => .pure ([], s)
    refine (alike mid (by omega)).bind (j := 1) fun a rest _ shorter' => ?_
    exact (ih rest (by omega)).bind (j := 0) fun x _ _ _ => .pure (a :: x.1, x.2)

theorem Alike.items {gap : Reader Unit} {close : Token} {item item' : Reader α} (passes : Alike 0 k gap gap)
    (alike : Alike 0 k item item') : Alike 1 k (Reader.items gap close item) (Reader.items gap close item') :=
  .sized fun n => passes.itemsUpTo alike (n + 1)

end

def Keeps (p : Reader α) : Prop := ∀ ts a rest, p ts = .ok (a, rest) → rest <:+ ts

def Shrinks (p : Reader α) : Prop := ∀ ts a rest, p ts = .ok (a, rest) → rest <:+ ts ∧ rest.length < ts.length

def GoesDown (p : Reader (Option α)) : Prop := ∀ ts a rest, p ts = .ok (some a, rest) → rest.length < ts.length

theorem keeps_of_alike {p : Reader α} (alike : ∀ k, Alike 0 k p p) : Keeps p :=
  fun ts _ _ read => ((alike _ ts (Nat.lt_succ_self _)).ok read).1

theorem shrinks_of_alike {p : Reader α} (alike : ∀ k, Alike 1 k p p) : Shrinks p :=
  fun ts _ _ read => (alike _ ts (Nat.lt_succ_self _)).ok read

theorem keeps_of_rounds {p : Reader (Option α)} (rounds : ∀ k, Rounds k p p) : Keeps p :=
  fun ts _ _ read => ((rounds _ ts (Nat.lt_succ_self _)).1.ok read).1

theorem goesDown_of_rounds {p : Reader (Option α)} (rounds : ∀ k, Rounds k p p) : GoesDown p :=
  fun ts => (rounds _ ts (Nat.lt_succ_self _)).2

def whileStep (p : Reader (Option α)) (again : Reader (List α)) : Reader (List α) := do
  match ← p with
  | none => pure []
  | some a =>
    let as ← again
    pure (a :: as)

theorem whileStep_congr {p : Reader (Option α)} (down : GoesDown p) {again again' : Reader (List α)} {ts : Tokens}
    (same : ∀ us, us.length < ts.length → again us = again' us) : whileStep p again ts = whileStep p again' ts := by
  simp only [whileStep, Reader.bind_apply]
  cases read : p ts with
  | error e => rfl
  | ok x =>
    obtain ⟨found, rest⟩ := x
    cases found with
    | none => rfl
    | some a =>
      have others := same rest (down ts a rest read)
      simp only [Reader.bind_apply, others]

theorem whileSomeUpTo_enough {p : Reader (Option α)} (down : GoesDown p) {n m : Nat} {ts : Tokens}
    (less : ts.length < n) (less' : ts.length < m) : Reader.whileSomeUpTo p n ts = Reader.whileSomeUpTo p m ts := by
  induction n generalizing m ts with
  | zero => exact absurd less (Nat.not_lt_zero _)
  | succ n ih =>
    obtain ⟨m, rfl⟩ := Nat.exists_eq_add_one.mpr (Nat.zero_lt_of_lt less')
    exact whileStep_congr down fun us shorter => ih (by omega) (by omega)

theorem whileSome_eq {p : Reader (Option α)} (down : GoesDown p) :
    Reader.whileSome p = whileStep p (Reader.whileSome p) := by
  funext ts
  refine whileStep_congr down fun us shorter => ?_
  exact whileSomeUpTo_enough down shorter (Nat.lt_succ_self _)

def commaStep (close : Token) (what : String) (item : Reader α) (again : Reader (List α × Span)) :
    Reader (List α × Span) := do
  match ← Reader.eat? close with
  | some span => pure ([], span)
  | none =>
    let a ← item
    match ← Reader.eat? (.symbol .comma) with
    | none =>
      let span ← Reader.expect close what
      pure ([a], span)
    | some _ =>
      let (as, span) ← again
      pure (a :: as, span)

theorem commaStep_congr {close : Token} {what : String} {item : Reader α} (keeps : Keeps item)
    {again again' : Reader (List α × Span)} {ts : Tokens}
    (same : ∀ us, us.length < ts.length → again us = again' us) :
    commaStep close what item again ts = commaStep close what item again' ts := by
  simp only [commaStep, Reader.bind_apply]
  cases eaten : Reader.eat? close ts with
  | error e => rfl
  | ok x =>
    obtain ⟨closed, mid⟩ := x
    have first := ((alike_eat close ts (Nat.lt_succ_self _)).ok eaten).1.length_le
    cases closed with
    | some s => rfl
    | none =>
      simp only [Reader.bind_apply]
      cases read : item mid with
      | error e => rfl
      | ok y =>
        obtain ⟨a, mid'⟩ := y
        have second := (keeps mid a mid' read).length_le
        cases mid' with
        | nil => rfl
        | cons t us =>
          rw [List.length_cons] at second
          have others := same us (by omega)
          by_cases comma : t.value = .symbol .comma
          · simp [Reader.eat?, comma, others]
          · simp [Reader.eat?, comma]

theorem commaListUpTo_enough {close : Token} {what : String} {item : Reader α} (keeps : Keeps item) {n m : Nat}
    {ts : Tokens} (less : ts.length < n) (less' : ts.length < m) :
    Reader.commaListUpTo close what item n ts = Reader.commaListUpTo close what item m ts := by
  induction n generalizing m ts with
  | zero => exact absurd less (Nat.not_lt_zero _)
  | succ n ih =>
    obtain ⟨m, rfl⟩ := Nat.exists_eq_add_one.mpr (Nat.zero_lt_of_lt less')
    exact commaStep_congr keeps fun us shorter => ih (by omega) (by omega)

theorem commaList_eq {close : Token} {what : String} {item : Reader α} (keeps : Keeps item) :
    Reader.commaList close what item = commaStep close what item (Reader.commaList close what item) := by
  funext ts
  refine commaStep_congr keeps fun us shorter => ?_
  exact commaListUpTo_enough keeps shorter (Nat.lt_succ_self _)

def itemsStep (gap : Reader Unit) (close : Token) (item : Reader α) (again : Reader (List α × Span)) :
    Reader (List α × Span) := do
  gap
  match ← Reader.eat? close with
  | some span => pure ([], span)
  | none =>
    let a ← item
    let (as, span) ← again
    pure (a :: as, span)

theorem itemsStep_congr {gap : Reader Unit} {close : Token} {item : Reader α} (passes : Keeps gap)
    (shrinks : Shrinks item) {again again' : Reader (List α × Span)} {ts : Tokens}
    (same : ∀ us, us.length < ts.length → again us = again' us) :
    itemsStep gap close item again ts = itemsStep gap close item again' ts := by
  simp only [itemsStep, Reader.bind_apply]
  cases passed : gap ts with
  | error e => rfl
  | ok x =>
    obtain ⟨_, mid⟩ := x
    have first := (passes ts _ mid passed).length_le
    dsimp only
    cases eaten : Reader.eat? close mid with
    | error e => rfl
    | ok x =>
      obtain ⟨closed, mid'⟩ := x
      have second := ((alike_eat close mid (Nat.lt_succ_self _)).ok eaten).1.length_le
      cases closed with
      | some s => rfl
      | none =>
        simp only [Reader.bind_apply]
        cases read : item mid' with
        | error e => rfl
        | ok y =>
          obtain ⟨a, rest⟩ := y
          have third := (shrinks mid' a rest read).2
          have others := same rest (by omega)
          simp only [others]

theorem itemsUpTo_enough {gap : Reader Unit} {close : Token} {item : Reader α} (passes : Keeps gap)
    (shrinks : Shrinks item) {n m : Nat} {ts : Tokens} (less : ts.length < n) (less' : ts.length < m) :
    Reader.itemsUpTo gap close item n ts = Reader.itemsUpTo gap close item m ts := by
  induction n generalizing m ts with
  | zero => exact absurd less (Nat.not_lt_zero _)
  | succ n ih =>
    obtain ⟨m, rfl⟩ := Nat.exists_eq_add_one.mpr (Nat.zero_lt_of_lt less')
    exact itemsStep_congr passes shrinks fun us shorter => ih (by omega) (by omega)

theorem items_eq {gap : Reader Unit} {close : Token} {item : Reader α} (passes : Keeps gap) (shrinks : Shrinks item) :
    Reader.items gap close item = itemsStep gap close item (Reader.items gap close item) := by
  funext ts
  refine itemsStep_congr passes shrinks fun us shorter => ?_
  exact itemsUpTo_enough passes shrinks shorter (Nat.lt_succ_self _)

end ViewLang.Grammar
