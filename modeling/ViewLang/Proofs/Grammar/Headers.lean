import ViewLang.Proofs.Grammar.RoundTrip

namespace ViewLang.Grammar

open Reader

variable {α β : Type}

def Extends (p q : Reader α) : Prop :=
  ∀ ts a rest, p ts = .ok (a, rest) → front rest ≠ some (.symbol .leftBrace) → q ts = .ok (a, rest)

theorem Extends.refl (p : Reader α) : Extends p p := fun _ _ _ read _ => read

theorem Extends.behind {p : Reader α} {f g : α → Reader β} (next : ∀ a, Extends (f a) (g a)) :
    Extends (p >>= f) (p >>= g) := by
  intro ts b rest read free
  obtain ⟨a, mid, read₁, read₂⟩ := bind_ok.mp read
  exact bind_ok.mpr ⟨a, mid, read₁, next a mid b rest read₂ free⟩

/-- In front of readers that stop where a brace opens. -/
theorem Extends.bind {p q : Reader α} {f g : α → Reader β} (first : Extends p q)
    (stops : ∀ a mid b rest, f a mid = .ok (b, rest) → front mid = some (.symbol .leftBrace) → mid = rest)
    (next : ∀ a, Extends (f a) (g a)) : Extends (p >>= f) (q >>= g) := by
  intro ts b rest read free
  obtain ⟨a, mid, read₁, read₂⟩ := bind_ok.mp read
  have freeMid : front mid ≠ some (.symbol .leftBrace) := by
    intro brace
    obtain rfl := stops a mid b rest read₂ brace
    exact free brace
  exact bind_ok.mpr ⟨a, mid, first ts a mid read₁ freeMid, next a mid b rest read₂ free⟩

theorem Extends.map {p q : Reader α} (first : Extends p q) (f : α → β) : Extends (f <$> p) (f <$> q) :=
  first.bind (fun _ _ _ _ read _ => (pure_ok.mp read).2) fun _ => .refl _

theorem Extends.within {p q : Reader α} (first : Extends p q) : Extends (within p) (within q) :=
  fun ts a rest read free => within_ok.mpr (first ts a rest (within_ok.mp read) free)

theorem Extends.whileSome {p q : Reader (Option α)} (first : Extends p q)
    (stops : ∀ ts, front ts = some (.symbol .leftBrace) → p ts = .ok (none, ts)) :
    Extends (whileSome p) (whileSome q) := by
  suffices ∀ n, Extends (whileSomeUpTo p n) (whileSomeUpTo q n) from fun ts => this _ ts
  intro n
  induction n with
  | zero => exact .refl _
  | succ n ih =>
    refine first.bind ?_ fun o => ?_
    · intro o mid as rest read brace
      cases o with
      | none => exact (pure_ok.mp read).2
      | some a =>
        obtain ⟨as, mid', read', done⟩ := bind_ok.mp read
        obtain ⟨-, rfl⟩ := pure_ok.mp done
        cases n with
        | zero => exact (pure_ok.mp read').2
        | succ n =>
          rw [whileSomeUpTo, bind_of_ok (stops mid brace)] at read'
          exact (pure_ok.mp read').2
    · cases o with
      | none => exact .refl _
      | some a => exact ih.map _

section

variable {r : Rules} (operands : Extends (r.primary false) (r.primary true))

include operands

theorem extends_link : Extends (link? r false) (link? r true) := by
  refine .behind fun t => ?_
  cases t with
  | none => exact .refl _
  | some t =>
    dsimp only
    split
    · exact .refl _
    · exact .behind fun _ => operands.within.map _

theorem extends_exprWith : Extends (exprWith r false) (exprWith r true) := by
  have stops (ts : Tokens) (brace : front ts = some (.symbol .leftBrace)) : link? r false ts = .ok (none, ts) :=
    link?_stops (by rw [brace]; rfl)
  refine operands.bind ?_ fun head => ?_
  · intro head mid e rest read brace
    obtain ⟨tail, mid', read', done⟩ := bind_ok.mp read
    obtain ⟨-, rfl⟩ := pure_ok.mp done
    rw [whileSome_stop (stops mid brace)] at read'
    cases read'
    rfl
  · exact ((extends_link operands).whileSome stops).map _

omit operands in
theorem extends_suffixes (p : Primary) : Extends (suffixes r false p) (suffixes r true p) := by
  suffices ∀ n p, Extends (suffixesUpTo r false n p) (suffixesUpTo r true n p) from fun ts => this _ p ts
  intro n
  induction n with
  | zero => exact fun p => .refl _
  | succ n ih =>
    intro p ts a rest read free
    by_cases brace : front ts = some (.symbol .leftBrace)
    · have stops : suffix? r false p ts = .ok (none, ts) := suffix?_stops (by rw [brace]; rfl)
      rw [suffixesUpTo, bind_of_ok stops] at read
      obtain ⟨-, rfl⟩ := pure_ok.mp read
      exact absurd brace free
    · have alike : suffix? r true p ts = suffix? r false p ts := by
        unfold suffix?
        rw [bind_of_ok peek?_apply, bind_of_ok peek?_apply]
        generalize front ts = first at brace
        split <;> first | rfl | exact absurd rfl brace
      obtain ⟨o, mid, found, read⟩ := bind_ok.mp read
      refine bind_ok.mpr ⟨o, mid, alike ▸ found, ?_⟩
      cases o with
      | none => exact read
      | some longer => exact ih longer mid a rest read free

theorem extends_primaryStep : Extends (primaryStep r false) (primaryStep r true) := by
  refine .behind fun t => ?_
  cases t with
  | none => exact .refl _
  | some t =>
    dsimp only
    split
    · exact .behind fun _ => operands.within.map _
    · split
      · exact .refl _
      · exact .behind fun p => extends_suffixes p

end

theorem rules_extend (n : Nat) : Extends ((rules n).primary false) ((rules n).primary true) := by
  induction n with
  | zero => exact .refl _
  | succ n ih => exact extends_primaryStep ih

/-- An expression that takes all tokens where no composite literal may stand is read where one may. -/
theorem expr_extends {c c' : Bool} {ts : Tokens} {e : Expr} (wider : c = true → c' = true)
    (read : expr c ts = .ok (e, [])) : expr c' ts = .ok (e, []) := by
  cases c with
  | true => rwa [wider rfl]
  | false =>
    cases c' with
    | false => exact read
    | true => exact extends_exprWith (rules_extend _) ts e [] read nofun

end ViewLang.Grammar
