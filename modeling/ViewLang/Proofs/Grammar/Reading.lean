import Mathlib.Data.List.Basic
import ViewLang.Proofs.Grammar.Canonical

namespace ViewLang.Grammar

open Canonical (plain sym word commaEach commaSep)

variable {α β : Type}

def Yields (p : Reader α) (a : α) : Prop := ∃ ts rest, p ts = .ok (a, rest)

def Reads (p : Reader α) (ts : Tokens) (a : α) (ends : Option Token → Bool) : Prop :=
  ∀ rest, ends (front rest) = true → p (ts ++ rest) = .ok (a, rest)

theorem front_append {ts : Tokens} {t : Token} (first : front ts = some t) (us : Tokens) :
    front (ts ++ us) = some t := by
  cases ts with
  | nil => cases first
  | cons u us => exact first

theorem front_append_ne {ts : Tokens} {t u : Token} (first : front ts = some t) (other : t ≠ u) (us : Tokens) :
    front (ts ++ us) ≠ some u := by
  rw [front_append first]
  exact fun same => other (Option.some.inj same)

/-- Where the end of the tokens is not allowed, there is a token. -/
theorem exists_of_allowed {allows : Option Token → Bool} {o : Option Token} (allowed : allows o = true)
    (notEnd : allows none = false) : ∃ t, o = some t ∧ allows (some t) = true := by
  cases o with
  | none => simp [notEnd] at allowed
  | some t => exact ⟨t, rfl, allowed⟩

theorem ne_of_allowed {allows : Option Token → Bool} {t u : Token} (allowed : allows (some t) = true)
    (other : allows (some u) = false) : t ≠ u := by
  rintro rfl
  simp [allowed] at other

namespace Reader

variable {p : Reader α} {f : α → Reader β} {ts rest : Tokens}

@[simp] theorem pure_apply (a : α) : (pure a : Reader α) ts = .ok (a, ts) := rfl

@[simp] theorem bind_apply : (p >>= f) ts = match p ts with
    | .ok (a, rest) => f a rest
    | .error e => .error e := rfl

theorem bind_of_ok {a : α} (first : p ts = .ok (a, rest)) : (p >>= f) ts = f a rest := by
  rw [bind_apply, first]

theorem bind_assoc {γ : Type} (g : β → Reader γ) : (p >>= f) >>= g = p >>= fun a => f a >>= g := by
  funext ts
  simp only [bind_apply]
  cases p ts <;> rfl

theorem ite_bind {b : Bool} {q : Reader α} :
    (if b = true then p >>= f else q >>= f) = (if b = true then p else q) >>= f := by
  cases b <;> rfl

@[simp] theorem map_apply (g : α → β) : (g <$> p) ts = match p ts with
    | .ok (a, rest) => .ok (g a, rest)
    | .error e => .error e := rfl

theorem map_of_ok {a : α} (g : α → β) (read : p ts = .ok (a, rest)) : (g <$> p) ts = .ok (g a, rest) := by
  rw [map_apply, read]

@[simp] theorem within_apply : within p ts = match p ts with
    | .ok r => .ok r
    | .error e => .error { e with starts := e.starts ++ [ts.length] } := rfl

@[simp] theorem sized_apply (q : Nat → Reader α) : sized q ts = q ts.length ts := rfl

@[simp] theorem skip_apply : skip ts = .ok ((), ts.tail) := rfl

@[simp] theorem next?_apply : next? ts = .ok (ts.head?, ts) := rfl

@[simp] theorem peek?_apply : peek? ts = .ok (front ts, ts) := rfl

@[simp] theorem second?_apply : second? ts = .ok (front ts.tail, ts) := by
  cases ts with
  | nil => rfl
  | cons t ts => cases ts <;> rfl

@[simp] theorem at?_apply (t : Token) : at? t ts = .ok (decide (front ts = some t), ts) := by
  cases ts with
  | nil => rfl
  | cons u us => simp [at?, beq_eq_decide]

@[simp] theorem eat?_cons_self (t : Token) (s : Span) : eat? t (⟨t, s⟩ :: rest) = .ok (some s, rest) := by
  simp [eat?]

theorem eat?_of_ne {t : Token} (other : front ts ≠ some t) : eat? t ts = .ok (none, ts) := by
  cases ts with
  | nil => rfl
  | cons u us =>
    have different : u.value ≠ t := fun same => other (by rw [front_cons, same])
    simp [eat?, different]

@[simp] theorem expect_cons_self (t : Token) (s : Span) (what : String) :
    expect t what (⟨t, s⟩ :: rest) = .ok (s, rest) := by
  simp [expect]

@[simp] theorem ident_cons (n : String) (s : Span) : ident (⟨.ident n, s⟩ :: rest) = .ok (⟨n, s⟩, rest) := rfl

theorem pure_ok {a b : α} : (pure a : Reader α) ts = .ok (b, rest) ↔ a = b ∧ ts = rest := by
  simp

theorem bind_ok {b : β} :
    (p >>= f) ts = .ok (b, rest) ↔ ∃ a mid, p ts = .ok (a, mid) ∧ f a mid = .ok (b, rest) := by
  rw [bind_apply]
  cases p ts with
  | error e => simp
  | ok x => exact ⟨fun h => ⟨x.1, x.2, rfl, h⟩, fun ⟨a, mid, same, h⟩ => by cases same; exact h⟩

theorem map_ok {g : α → β} {b : β} : (g <$> p) ts = .ok (b, rest) ↔ ∃ a, p ts = .ok (a, rest) ∧ g a = b := by
  rw [map_apply]
  cases p ts with
  | error e => simp
  | ok x => cases x; simp [and_comm]

theorem within_ok {x : α × Tokens} : within p ts = .ok x ↔ p ts = .ok x := by
  rw [within_apply]
  cases p ts <;> simp

theorem fail_ok {what : String} {x : α × Tokens} : fail what ts = .ok x ↔ False := by
  simp [fail]

theorem ident_ok {n : Name} : ident ts = .ok (n, rest) ↔ ts = ⟨.ident n.value, n.span⟩ :: rest := by
  unfold ident
  split
  · obtain ⟨n, s⟩ := n
    simp [and_assoc]
  · rename_i other
    simp only [reduceCtorEq, false_iff]
    rintro rfl
    exact other _ _ _ rfl

def unlessAt (t : Token) (p : Reader α) : Reader (Option α) := do
  if ← at? t then pure none else some <$> p

theorem unlessAt_yields {t : Token} {o : Option α} (h : unlessAt t p ts = .ok (o, rest)) :
    ∀ a ∈ o, Yields p a := by
  obtain ⟨stop, mid, -, h⟩ := bind_ok.mp h
  cases stop with
  | true =>
    obtain ⟨rfl, rfl⟩ := pure_ok.mp h
    simp
  | false =>
    obtain ⟨a, read, rfl⟩ := map_ok.mp h
    intro b member
    cases member
    exact ⟨_, _, read⟩

theorem unlessAt_some {t : Token} {a : α} (other : front ts ≠ some t) (read : p ts = .ok (a, rest)) :
    unlessAt t p ts = .ok (some a, rest) := by
  simp [unlessAt, other, read]

/-- A part that may be missing, in front of a token that it does not start with. -/
theorem unlessAt_reads {γ : Type} {o : Option γ} {piece : γ → Tokens} {g : γ → α} {ends : Option Token → Bool}
    {t : Token} (each : ∀ a ∈ o, Reads p (piece a) (g a) ends)
    (opens : ∀ a ∈ o, ∃ u, front (piece a) = some u ∧ u ≠ t) (ended : ends (some t) = true) (rest : Tokens) :
    unlessAt t p (o.elim [] piece ++ plain t :: rest) = .ok (o.map g, plain t :: rest) := by
  cases o with
  | none => simp [unlessAt]
  | some a =>
    obtain ⟨u, first, other⟩ := opens a rfl
    exact unlessAt_some (front_append_ne first other _) (each a rfl (plain t :: rest) ended)

theorem whileSomeUpTo_yields {p : Reader (Option α)} {n : Nat} {as : List α}
    (h : whileSomeUpTo p n ts = .ok (as, rest)) : ∀ a ∈ as, Yields p (some a) := by
  induction n generalizing ts as with
  | zero =>
    obtain ⟨rfl, rfl⟩ := pure_ok.mp h
    simp
  | succ n ih =>
    obtain ⟨found, mid, first, h⟩ := bind_ok.mp h
    cases found with
    | none =>
      obtain ⟨rfl, rfl⟩ := pure_ok.mp h
      simp
    | some a =>
      obtain ⟨as', mid', others, h⟩ := bind_ok.mp h
      obtain ⟨rfl, rfl⟩ := pure_ok.mp h
      exact List.forall_mem_cons.mpr ⟨⟨_, _, first⟩, ih others⟩

theorem commaListUpTo_yields {close : Token} {what : String} {item : Reader α} {n : Nat} {as : List α} {s : Span}
    (h : commaListUpTo close what item n ts = .ok ((as, s), rest)) : ∀ a ∈ as, Yields item a := by
  induction n generalizing ts as with
  | zero => cases fail_ok.mp h
  | succ n ih =>
    obtain ⟨closed, mid, -, h⟩ := bind_ok.mp h
    cases closed with
    | some s' =>
      obtain ⟨same, rfl⟩ := pure_ok.mp h
      cases same
      simp
    | none =>
      obtain ⟨a, mid', first, h⟩ := bind_ok.mp h
      obtain ⟨comma, mid'', -, h⟩ := bind_ok.mp h
      cases comma with
      | none =>
        obtain ⟨s', mid₃, -, h⟩ := bind_ok.mp h
        obtain ⟨same, rfl⟩ := pure_ok.mp h
        cases same
        exact List.forall_mem_singleton.mpr ⟨_, _, first⟩
      | some _ =>
        obtain ⟨⟨as', s'⟩, mid₃, others, h⟩ := bind_ok.mp h
        obtain ⟨same, rfl⟩ := pure_ok.mp h
        cases same
        exact List.forall_mem_cons.mpr ⟨⟨_, _, first⟩, ih others⟩

theorem itemsUpTo_yields {gap : Reader Unit} {close : Token} {item : Reader α} {n : Nat} {as : List α} {s : Span}
    (h : itemsUpTo gap close item n ts = .ok ((as, s), rest)) : ∀ a ∈ as, Yields item a := by
  induction n generalizing ts as with
  | zero => cases fail_ok.mp h
  | succ n ih =>
    obtain ⟨_, mid, -, h⟩ := bind_ok.mp h
    obtain ⟨closed, mid', -, h⟩ := bind_ok.mp h
    cases closed with
    | some s' =>
      obtain ⟨same, rfl⟩ := pure_ok.mp h
      cases same
      simp
    | none =>
      obtain ⟨a, mid'', first, h⟩ := bind_ok.mp h
      obtain ⟨⟨as', s'⟩, mid₃, others, h⟩ := bind_ok.mp h
      obtain ⟨same, rfl⟩ := pure_ok.mp h
      cases same
      exact List.forall_mem_cons.mpr ⟨⟨_, _, first⟩, ih others⟩

section Written

variable {γ : Type} {ends : Option Token → Bool} {as : List γ} {piece : γ → Tokens}

theorem length_le_flatMap (opens : ∀ a ∈ as, ∃ t, front (piece a) = some t) :
    as.length ≤ (as.flatMap piece).length := by
  induction as with
  | nil => simp
  | cons a as ih =>
    obtain ⟨t, first⟩ := opens a List.mem_cons_self
    have others := ih fun b member => opens b (List.mem_cons_of_mem a member)
    have nonempty : piece a ≠ [] := by
      rintro same
      simp [same] at first
    have := List.length_pos_iff.mpr nonempty
    simp only [List.length_cons, List.flatMap_cons, List.length_append]
    omega

theorem length_le_flatMap_of_mem (f : γ → Tokens) {a : γ} (member : a ∈ as) :
    (f a).length ≤ (as.flatMap f).length := by
  induction as with
  | nil => cases member
  | cons b as ih =>
    rw [List.flatMap_cons, List.length_append]
    rcases List.mem_cons.mp member with rfl | member
    · omega
    · have := ih member
      omega

theorem front_flatMap (opens : ∀ a ∈ as, ∃ t, front (piece a) = some t ∧ ends (some t) = true)
    (ended : ends (front rest) = true) : ends (front (as.flatMap piece ++ rest)) = true := by
  cases as with
  | nil => exact ended
  | cons a as =>
    obtain ⟨t, first, allowed⟩ := opens a List.mem_cons_self
    rw [List.flatMap_cons, List.append_assoc, front_append first]
    exact allowed

theorem whileSome_reads {p : Reader (Option β)} {g : γ → β}
    (each : ∀ a ∈ as, Reads p (piece a) (some (g a)) ends)
    (opens : ∀ a ∈ as, ∃ t, front (piece a) = some t ∧ ends (some t) = true)
    (stop : p rest = .ok (none, rest)) (ended : ends (front rest) = true) :
    whileSome p (as.flatMap piece ++ rest) = .ok (as.map g, rest) := by
  have rounds : as.length < (as.flatMap piece ++ rest).length + 1 := by
    have := length_le_flatMap fun a member => (opens a member).imp fun _ h => h.1
    rw [List.length_append]
    omega
  unfold whileSome
  rw [sized_apply]
  generalize (as.flatMap piece ++ rest).length + 1 = n at rounds
  induction as generalizing n with
  | nil =>
    obtain ⟨n, rfl⟩ := Nat.exists_eq_add_one.mpr rounds
    simp [whileSomeUpTo, stop]
  | cons a as ih =>
    obtain ⟨n, rfl⟩ := Nat.exists_eq_add_one.mpr (Nat.zero_lt_of_lt rounds)
    have opensRest : ∀ b ∈ as, _ := fun b member => opens b (List.mem_cons_of_mem a member)
    have first := each a List.mem_cons_self _ (front_flatMap opensRest ended)
    have others := ih (fun b member => each b (List.mem_cons_of_mem a member)) opensRest n
      (Nat.lt_of_succ_lt_succ rounds)
    simp [whileSomeUpTo, List.append_assoc, first, others]

theorem whileSome_stop {p : Reader (Option β)} (stop : p rest = .ok (none, rest)) :
    whileSome p rest = .ok ([], rest) := by
  simp [whileSome, whileSomeUpTo, stop]

theorem length_le_commaSep (pieces : List Tokens) : pieces.length ≤ (commaSep pieces).length + 1 := by
  cases pieces with
  | nil => simp
  | cons piece pieces =>
    have commas : pieces.length ≤ (commaEach pieces).length := length_le_flatMap fun _ _ => ⟨_, rfl⟩
    simp only [commaSep, List.length_cons, List.length_append]
    omega

theorem length_le_commaEach_of_mem {piece : Tokens} {pieces : List Tokens} (member : piece ∈ pieces) :
    piece.length < (commaEach pieces).length := length_le_flatMap_of_mem (sym .comma :: ·) member

theorem length_le_commaSep_of_mem {piece : Tokens} {pieces : List Tokens} (member : piece ∈ pieces) :
    piece.length ≤ (commaSep pieces).length := by
  cases pieces with
  | nil => cases member
  | cons other pieces =>
    rw [commaSep, List.length_append]
    rcases List.mem_cons.mp member with rfl | member
    · omega
    · have := length_le_commaEach_of_mem member
      omega

/-- Items with commas between them, none of which starts with the closing token. -/
theorem commaList_reads {close : Token} {what : String} {item : Reader β} {g : γ → β}
    (each : ∀ a ∈ as, Reads item (piece a) (g a) ends)
    (opens : ∀ a ∈ as, ∃ t, front (piece a) = some t ∧ t ≠ close)
    (commaEnds : ends (some (.symbol .comma)) = true) (closeEnds : ends (some close) = true)
    (noComma : close ≠ .symbol .comma) :
    commaList close what item (commaSep (as.map piece) ++ plain close :: rest) = .ok ((as.map g, Span.none), rest) := by
  have rounds : as.length < (commaSep (as.map piece) ++ plain close :: rest).length + 1 := by
    have := length_le_commaSep (as.map piece)
    rw [List.length_map] at this
    rw [List.length_append, List.length_cons]
    omega
  -- There is a round for each item, and the last takes the closing token.
  unfold commaList
  rw [sized_apply]
  generalize (commaSep (as.map piece) ++ plain close :: rest).length + 1 = n at rounds
  induction as generalizing n with
  | nil =>
    obtain ⟨n, rfl⟩ := Nat.exists_eq_add_one.mpr rounds
    simp [commaListUpTo]
  | cons a as ih =>
    obtain ⟨n, rfl⟩ := Nat.exists_eq_add_one.mpr (Nat.zero_lt_of_lt rounds)
    obtain ⟨t, starts, other⟩ := opens a List.mem_cons_self
    have notClosed : ∀ us, eat? close (piece a ++ us) = .ok (none, piece a ++ us) := fun us =>
      eat?_of_ne (front_append_ne starts other us)
    have first := each a List.mem_cons_self
    cases as with
    | nil =>
      have last : eat? (.symbol .comma) (plain close :: rest) = .ok (none, plain close :: rest) :=
        eat?_of_ne (by simpa using noComma)
      have read := first (plain close :: rest) closeEnds
      simp [commaListUpTo, notClosed, read, last]
    | cons b bs =>
      have read := fun us => first (sym .comma :: us) commaEnds
      have others := ih (fun c member => each c (List.mem_cons_of_mem a member))
        (fun c member => opens c (List.mem_cons_of_mem a member)) n (Nat.lt_of_succ_lt_succ rounds)
      rw [List.map_cons] at others
      simp [commaListUpTo, notClosed, read, others]

/-- Items through `close`, each with `after` behind it; what stands `before` the first is a gap, and so is `after`. -/
theorem itemsUpTo_reads {gap : Reader Unit} {close : Token} {item : Reader β} {g : γ → β} {before after : Tokens}
    (starts : Option Token → Bool) {n : Nat} (rounds : as.length < n)
    (each : ∀ a ∈ as, Reads item (piece a) (g a) ends)
    (opens : ∀ a ∈ as, ∃ t, front (piece a) = some t ∧ starts (some t) = true ∧ t ≠ close)
    (closeStarts : starts (some close) = true)
    (afterEnds : ∀ us, starts (front us) = true → ends (front (after ++ us)) = true)
    (passesBefore : ∀ us, starts (front us) = true → gap (before ++ us) = .ok ((), us))
    (passesAfter : ∀ us, starts (front us) = true → gap (after ++ us) = .ok ((), us)) :
    itemsUpTo gap close item n (before ++ (as.flatMap (fun a => piece a ++ after) ++ plain close :: rest)) =
      .ok ((as.map g, Span.none), rest) := by
  induction as generalizing n before with
  | nil =>
    obtain ⟨n, rfl⟩ := Nat.exists_eq_add_one.mpr rounds
    have passed := passesBefore (plain close :: rest) closeStarts
    simp [itemsUpTo, passed]
  | cons a as ih =>
    obtain ⟨n, rfl⟩ := Nat.exists_eq_add_one.mpr (Nat.zero_lt_of_lt rounds)
    -- What stands before the other items is what stands after this one.
    have others := ih (Nat.lt_of_succ_lt_succ rounds) (fun b member => each b (List.mem_cons_of_mem a member))
      (fun b member => opens b (List.mem_cons_of_mem a member)) passesAfter
    generalize more : as.flatMap (fun a => piece a ++ after) ++ plain close :: rest = us at others
    have usStarts : starts (front us) = true := by
      cases as with
      | nil => exact more ▸ closeStarts
      | cons b bs =>
        obtain ⟨t, first, allowed, -⟩ := opens b (by simp)
        rw [← more, List.flatMap_cons, List.append_assoc, List.append_assoc, front_append first]
        exact allowed
    obtain ⟨t, first, allowed, other⟩ := opens a List.mem_cons_self
    have passed := passesBefore (piece a ++ (after ++ us)) (by rw [front_append first]; exact allowed)
    have notClosed : eat? close (piece a ++ (after ++ us)) = .ok (none, piece a ++ (after ++ us)) :=
      eat?_of_ne (front_append_ne first other _)
    have read := each a List.mem_cons_self (after ++ us) (afterEnds us usStarts)
    simp [itemsUpTo, more, passed, notClosed, read, others]

theorem items_reads {gap : Reader Unit} {close : Token} {item : Reader β} {g : γ → β} {after : Tokens}
    (starts : Option Token → Bool)
    (each : ∀ a ∈ as, Reads item (piece a) (g a) ends)
    (opens : ∀ a ∈ as, ∃ t, front (piece a) = some t ∧ starts (some t) = true ∧ t ≠ close)
    (closeStarts : starts (some close) = true)
    (afterEnds : ∀ us, starts (front us) = true → ends (front (after ++ us)) = true)
    (stays : ∀ us, starts (front us) = true → gap us = .ok ((), us))
    (passes : ∀ us, starts (front us) = true → gap (after ++ us) = .ok ((), us)) :
    items gap close item (as.flatMap (fun a => piece a ++ after) ++ plain close :: rest) =
      .ok ((as.map g, Span.none), rest) := by
  have rounds : as.length < (as.flatMap (fun a => piece a ++ after) ++ plain close :: rest).length + 1 := by
    have : as.length ≤ (as.flatMap fun a => piece a ++ after).length := length_le_flatMap fun a member => by
      obtain ⟨t, first, -⟩ := opens a member
      exact ⟨t, front_append first _⟩
    rw [List.length_append]
    omega
  rw [items, sized_apply, ← List.nil_append (as.flatMap _ ++ _)]
  exact itemsUpTo_reads starts rounds each opens closeStarts afterEnds stays passes

end Written

end Reader
end ViewLang.Grammar
