import Mathlib.Data.Prod.Lex
import ViewLang.LineIndex
import ViewLang.Proofs.Go.Quoting

namespace ViewLang.LineIndex

open Go.Literal (bytes bytes_eq utf8EncodeChar_ascii ascii_not_mem)

def newline : UInt8 := 10

def breaksBefore (source : String) (offset : Nat) : Nat := ((bytes source).take offset).count newline

/-- The line of the offset starts here: just behind the last newline byte before the offset, or with the text if there
is none. -/
structure StartsLine (source : String) (offset start : Nat) : Prop where
  le : start ≤ offset
  behind_break : start = 0 ∨ ∃ i, start = i + 1 ∧ (bytes source)[i]? = some newline
  unbroken : ∀ i, start ≤ i → i < offset → (bytes source)[i]? ≠ some newline

def bisect (p : Nat → Bool) (table : List Nat) (low high : Nat) : Option Nat :=
  if low < high then
    let middle := (low + high) / 2
    match table[middle]? with
    | some x => if p x then bisect p table (middle + 1) high else bisect p table low middle
    | none => none
  else some low
termination_by high - low

/-- Line and column looked up by halving; nothing if an access falls outside of the table or the line starts behind the
offset. -/
def lookUp? (index : LineIndex) (offset : Nat) : Option (Nat × Nat) :=
  (bisect (· ≤ offset) index.starts 0 index.starts.length).bind fun behind =>
    index.starts[behind - 1]?.bind fun start =>
      if start ≤ offset then some (behind - 1 + 1, offset - start + 1) else none

/-- Halving a table in which `p` holds up to some place finds the place. -/
theorem bisect_split {p : Nat → Bool} {front back : List Nat} (front_holds : ∀ x ∈ front, p x = true)
    (back_fails : ∀ x ∈ back, p x = false) {low high : Nat} (low_le : low ≤ front.length)
    (le_high : front.length ≤ high) (inside : high ≤ (front ++ back).length) :
    bisect p (front ++ back) low high = some front.length := by
  fun_induction bisect p (front ++ back) low high with
  | case1 low high less middle x found holds ih =>
    refine ih ?_ le_high inside
    rcases Nat.lt_or_ge middle front.length with before | behind
    · exact before
    · rw [List.getElem?_append_right behind] at found
      rw [back_fails x (List.mem_of_getElem? found)] at holds
      cases holds
  | case2 low high less middle x found fails ih =>
    refine ih low_le ?_ (by omega)
    rcases Nat.lt_or_ge middle front.length with before | behind
    · rw [List.getElem?_append_left before] at found
      exact absurd (front_holds x (List.mem_of_getElem? found)) fails
    · exact behind
  | case3 low high less middle outside =>
    rw [List.getElem?_eq_none_iff] at outside
    omega
  | case4 low high done =>
    rw [Option.some.injEq]
    omega

theorem startsAfter_eq (pos : Nat) (cs : List Char) :
    startsAfter pos cs = (cs.flatMap String.utf8EncodeChar).idxsOf newline (pos + 1) := by
  induction cs generalizing pos with
  | nil => rfl
  | cons c cs ih =>
    rw [startsAfter, List.flatMap_cons, List.idxsOf_append, String.length_utf8EncodeChar]
    split
    · rename_i same
      have one : String.utf8EncodeChar c = [newline] := by
        rw [same]
        exact utf8EncodeChar_ascii (by decide)
      rw [one, ih, same]
      rfl
    · rename_i other
      have absent : newline ∉ String.utf8EncodeChar c :=
        ascii_not_mem (by decide) fun same => other (Char.toNat_inj.mp same)
      have none : (String.utf8EncodeChar c).idxsOf newline (pos + 1) = [] := by
        rw [List.idxsOf_eq_nil_iff]
        intro b member
        rw [beq_eq_false_iff_ne]
        rintro rfl
        exact absent member
      rw [none, List.nil_append, ih, Nat.add_right_comm]

theorem later_eq (source : String) : (ofText source).later = (bytes source).idxsOf newline 1 := by
  rw [bytes_eq]
  exact startsAfter_eq 0 source.toList

theorem starts_sorted (source : String) : (ofText source).starts.Pairwise (· < ·) := by
  rw [starts, later_eq, List.pairwise_cons]
  exact ⟨fun start member => List.ge_of_mem_idxsOf start member, List.pairwise_idxsOf⟩

structure SplitAt (source : String) (offset : Nat) (front back : List Nat) : Prop where
  whole : (ofText source).later = front ++ back
  length : front.length = breaksBefore source offset
  reached : ∀ start, start ∈ front ↔ ∃ i < offset, start = i + 1 ∧ (bytes source)[i]? = some newline
  behind : ∀ start ∈ back, offset < start

theorem exists_splitAt (source : String) (offset : Nat) : ∃ front back, SplitAt source offset front back := by
  refine ⟨((bytes source).take offset).idxsOf newline 1,
    ((bytes source).drop offset).idxsOf newline (1 + ((bytes source).take offset).length), ?_, ?_, ?_, ?_⟩
  · rw [later_eq, ← List.idxsOf_append, List.take_append_drop]
  · rw [List.length_idxsOf, breaksBefore]
  · intro start
    rw [List.mem_idxsOf_iff_getElem_sub_pos]
    constructor
    · rintro ⟨positive, inside, found⟩
      rw [List.length_take] at inside
      refine ⟨start - 1, by omega, by omega, ?_⟩
      rw [List.getElem_take, beq_iff_eq] at found
      rw [List.getElem?_eq_getElem (by omega), found]
    · rintro ⟨i, before, rfl, found⟩
      obtain ⟨inside, found⟩ := List.getElem?_eq_some_iff.mp found
      refine ⟨by omega, by rw [List.length_take]; omega, ?_⟩
      simpa [List.getElem_take] using found
  · intro start member
    have low := List.ge_of_mem_idxsOf start member
    have high := List.lt_add_of_mem_idxsOf start member
    rw [List.length_drop, List.length_take] at high
    rw [List.length_take] at low
    omega

theorem locate_split {offset : Nat} {front back : List Nat} (reached : ∀ start ∈ front, start ≤ offset)
    (behind : ∀ start ∈ back, offset < start) (line start : Nat) :
    locate offset line start (front ++ back) =
      (line + front.length, offset - (start :: front).getLast (List.cons_ne_nil _ _) + 1) := by
  induction front generalizing line start with
  | nil =>
    cases back with
    | nil => rfl
    | cons next rest =>
      have passed := behind next List.mem_cons_self
      rw [List.nil_append, locate, if_neg (by omega)]
      rfl
  | cons next rest ih =>
    rw [List.cons_append, locate, if_pos (reached next List.mem_cons_self),
      ih fun start member => reached start (List.mem_cons_of_mem _ member), List.length_cons, List.getLast_cons_cons]
    congr 1
    omega

variable {source : String} {offset : Nat} {front back : List Nat}

theorem SplitAt.le (split : SplitAt source offset front back) : ∀ start ∈ 0 :: front, start ≤ offset := by
  intro start member
  rcases List.mem_cons.mp member with rfl | later
  · exact Nat.zero_le offset
  · obtain ⟨i, before, rfl, -⟩ := (split.reached start).mp later
    exact before

/-- The last start up to the offset starts its line. -/
theorem SplitAt.startsLine (split : SplitAt source offset front back) :
    StartsLine source offset ((0 :: front).getLast (List.cons_ne_nil _ _)) := by
  have last := List.getLast_mem (List.cons_ne_nil 0 front)
  refine ⟨split.le _ last, ?_, ?_⟩
  · rcases List.mem_cons.mp last with zero | later
    · exact .inl zero
    · obtain ⟨i, -, place, found⟩ := (split.reached _).mp later
      exact .inr ⟨i, place, found⟩
  · intro i low high found
    -- A newline behind the last start would make a later one.
    have later : i + 1 ∈ front := (split.reached _).mpr ⟨i, high, rfl, found⟩
    have sorted : (0 :: front).Pairwise (· < ·) := by
      have all := starts_sorted source
      rw [starts, split.whole, ← List.cons_append] at all
      exact (List.pairwise_append.mp all).1
    have bounded := (sorted.imp Nat.le_of_lt).rel_getLast (List.mem_cons_of_mem 0 later)
    omega

theorem SplitAt.lineCol_eq (split : SplitAt source offset front back) : (ofText source).lineCol offset =
    (1 + front.length, offset - (0 :: front).getLast (List.cons_ne_nil _ _) + 1) := by
  rw [lineCol, split.whole]
  exact locate_split (fun start member => split.le start (List.mem_cons_of_mem 0 member)) split.behind 1 0

theorem SplitAt.start_eq (split : SplitAt source offset front back) :
    (ofText source).starts[front.length]? = some ((0 :: front).getLast (List.cons_ne_nil _ _)) := by
  rw [starts, split.whole, ← List.cons_append, List.getElem?_append_left (Nat.lt_succ_self _),
    List.getLast_eq_getElem]
  exact List.getElem?_eq_getElem _

theorem SplitAt.lookUp?_eq (split : SplitAt source offset front back) :
    (ofText source).lookUp? offset = some ((ofText source).lineCol offset) := by
  have halved : bisect (· ≤ offset) (ofText source).starts 0 (ofText source).starts.length =
      some (front.length + 1) := by
    rw [starts, split.whole, ← List.cons_append]
    refine bisect_split ?_ ?_ (Nat.zero_le _) ?_ (Nat.le_refl _)
    · intro start member
      exact decide_eq_true (split.le start member)
    · intro start member
      exact decide_eq_false (Nat.not_le.mpr (split.behind start member))
    · rw [List.length_append]
      exact Nat.le_add_right _ _
  rw [lookUp?, halved, Option.bind_some, Nat.add_sub_cancel, split.start_eq, Option.bind_some,
    if_pos split.startsLine.le, split.lineCol_eq, Nat.add_comm 1]

theorem breaksBefore_mono (source : String) : Monotone (breaksBefore source) :=
  fun _ _ le => ((List.take_prefix_take_left le).sublist).count_le newline

/-- Every offset stands in the line that as many newline bytes as precede it make, in the column that its distance to
the start of that line makes; halving the table finds both, and the table tells the offset again. A later offset has a
later line, or a later column in the same line. No sum on the way exceeds the offset by more than one. -/
theorem lineCol_locates (source : String) :
    (ofText source).starts.Pairwise (· < ·) ∧
    (∀ offset, ∃ start, StartsLine source offset start ∧
      (ofText source).lineCol offset = (1 + breaksBefore source offset, offset - start + 1) ∧
      (ofText source).lookUp? offset = some ((ofText source).lineCol offset) ∧
      (ofText source).starts[((ofText source).lineCol offset).1 - 1]? = some start ∧
      start + ((ofText source).lineCol offset).2 - 1 = offset ∧
      ((ofText source).lineCol offset).1 ≤ offset + 1 ∧ ((ofText source).lineCol offset).2 ≤ offset + 1) ∧
    StrictMono fun offset => toLex ((ofText source).lineCol offset) := by
  refine ⟨starts_sorted source, fun offset => ?_, fun a b less => ?_⟩
  · obtain ⟨front, back, split⟩ := exists_splitAt source offset
    have line := split.startsLine
    have few : breaksBefore source offset ≤ offset :=
      Nat.le_trans (List.count_le_length) (List.length_take_le offset _)
    have start_le := line.le
    refine ⟨_, line, ?_, split.lookUp?_eq, ?_, ?_, ?_, ?_⟩
    · rw [split.lineCol_eq, split.length]
    · rw [split.lineCol_eq, Nat.add_sub_cancel_left, split.start_eq]
    · rw [split.lineCol_eq]
      omega
    · rw [split.lineCol_eq, split.length]
      omega
    · rw [split.lineCol_eq]
      omega
  · obtain ⟨front, back, split⟩ := exists_splitAt source a
    obtain ⟨front', back', split'⟩ := exists_splitAt source b
    rw [Prod.Lex.toLex_lt_toLex', split.lineCol_eq, split'.lineCol_eq]
    refine ⟨?_, fun same => ?_⟩
    · have grows := breaksBefore_mono source (Nat.le_of_lt less)
      rw [← split.length, ← split'.length] at grows
      exact Nat.add_le_add_left grows 1
    · have start_eq := split.start_eq
      rw [Nat.add_left_cancel same, split'.start_eq, Option.some.injEq] at start_eq
      have start_le := split.startsLine.le
      rw [start_eq]
      dsimp only
      omega

example : (ofText "ab\ncd").lineCol 2 = (1, 3) ∧ (ofText "ab\ncd").lineCol 3 = (2, 1) := by decide

end ViewLang.LineIndex
