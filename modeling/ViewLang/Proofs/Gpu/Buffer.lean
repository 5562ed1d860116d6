import Mathlib.Data.Nat.Basic
import Mathlib.Tactic.Common

namespace ViewLang.Gpu.Buffer

/-- The buffer with a block at an offset. There is none when the block does not fit. -/
def splice (buf : List UInt8) (start : Nat) (block : List UInt8) : Option (List UInt8) :=
  if start + block.length ≤ buf.length then
    some (buf.take start ++ block ++ buf.drop (start + block.length))
  else none

theorem splice_ok {buf block : List UInt8} {start : Nat} (fits : start + block.length ≤ buf.length) :
    ∃ after, splice buf start block = some after ∧ after.length = buf.length ∧
      ∀ k, after[k]? = if start ≤ k ∧ k < start + block.length then block[k - start]? else buf[k]? := by
  refine ⟨_, if_pos fits, ?_, ?_⟩
  · simp only [List.length_append, List.length_take, List.length_drop]
    omega
  · intro k
    have taken : (buf.take start).length = start := by
      rw [List.length_take]
      omega
    rw [List.append_assoc]
    rcases Nat.lt_or_ge k start with before | within
    · rw [List.getElem?_append_left (taken.symm ▸ before), List.getElem?_take_of_lt before, if_neg (by omega)]
    · rw [List.getElem?_append_right (taken.symm ▸ within), taken]
      rcases Nat.lt_or_ge k (start + block.length) with inside | behind
      · rw [List.getElem?_append_left (by omega), if_pos ⟨within, inside⟩]
      · rw [List.getElem?_append_right (by omega), List.getElem?_drop, if_neg (by omega)]
        congr 1
        omega

theorem splice_append {buf first second : List UInt8} {start : Nat}
    (fits : start + (first ++ second).length ≤ buf.length) :
    (splice buf start first).bind (splice · (start + first.length) second) = splice buf start (first ++ second) := by
  obtain ⟨whole, wrote, _, all⟩ := splice_ok fits
  rw [List.length_append] at fits all
  have room : start + first.length ≤ buf.length := by omega
  obtain ⟨between, written, same, bytes⟩ := splice_ok room
  have left : start + first.length + second.length ≤ between.length := by omega
  obtain ⟨after, rewritten, _, final⟩ := splice_ok left
  rw [written, Option.bind_some, rewritten, wrote]
  congr 1
  refine List.ext_getElem? fun k => ?_
  rw [final, all, bytes]
  rcases Nat.lt_or_ge k (start + first.length) with early | late
  · rw [if_neg (by omega)]
    by_cases inside : start ≤ k
    · rw [if_pos ⟨inside, early⟩, if_pos (by omega), List.getElem?_append_left (by omega)]
    · rw [if_neg (by omega), if_neg (by omega)]
  · by_cases inside : k < start + first.length + second.length
    · rw [if_pos ⟨late, inside⟩, if_pos (by omega), List.getElem?_append_right (by omega)]
      congr 1
      omega
    · rw [if_neg (by omega), if_neg (by omega), if_neg (by omega)]

structure Piece where
  start : Nat
  block : List UInt8
deriving Repr, DecidableEq

namespace Piece

def stop (p : Piece) : Nat := p.start + p.block.length

def put (buf : List UInt8) (p : Piece) : Option (List UInt8) := splice buf p.start p.block

end Piece

def Ascending (finish : Nat) : Nat → List Piece → Prop
  | stop, [] => stop ≤ finish
  | stop, p :: rest => stop ≤ p.start ∧ Ascending finish p.stop rest

theorem Ascending.le {finish stop : Nat} {pieces : List Piece} (ascending : Ascending finish stop pieces) :
    stop ≤ finish := by
  induction pieces generalizing stop with
  | nil => exact ascending
  | cons p rest ih =>
    obtain ⟨start, later⟩ := ascending
    have rest := ih later
    unfold Piece.stop at rest
    omega

/-- All pieces are there in the end, and outside of them the buffer is as before. -/
theorem pieces_ok {buf : List UInt8} {stop : Nat} {pieces : List Piece}
    (ascending : Ascending buf.length stop pieces) :
    ∃ after, pieces.foldlM Piece.put buf = some after ∧ after.length = buf.length ∧
      (∀ k < stop, after[k]? = buf[k]?) ∧
      (∀ p ∈ pieces, ∀ k < p.block.length, after[p.start + k]? = p.block[k]?) ∧
      ∀ k, (∀ p ∈ pieces, ¬ (p.start ≤ k ∧ k < p.stop)) → after[k]? = buf[k]? := by
  induction pieces generalizing buf stop with
  | nil => exact ⟨buf, rfl, rfl, fun _ _ => rfl, fun _ member => absurd member List.not_mem_nil, fun _ _ => rfl⟩
  | cons p rest ih =>
    obtain ⟨here, later⟩ := ascending
    obtain ⟨between, written, same, bytes⟩ := splice_ok later.le
    rw [← same] at later
    obtain ⟨after, run, length, before, held, others⟩ := ih later
    unfold Piece.stop at before
    refine ⟨after, ?_, length.trans same, ?_, ?_, ?_⟩
    · rw [List.foldlM_cons, Piece.put, written]
      exact run
    · intro k less
      rw [before k (by omega), bytes, if_neg (by omega)]
    · intro other member k less
      rcases List.mem_cons.mp member with rfl | member
      · rw [before _ (by omega), bytes, if_pos (by omega)]
        congr 1
        omega
      · exact held other member k less
    · intro k outside
      have apart := outside p List.mem_cons_self
      unfold Piece.stop at apart
      rw [others k fun other member => outside other (List.mem_cons_of_mem _ member), bytes, if_neg apart]

def byteAt (word : UInt32) (place : Nat) : UInt8 := UInt8.ofNat (word.toNat >>> (8 * place))

def wordBytes (word : UInt32) : List UInt8 := [byteAt word 0, byteAt word 1, byteAt word 2, byteAt word 3]

def HoldsWord (buf : List UInt8) (start : Nat) (word : UInt32) : Prop :=
  ∀ place < 4, buf[start + place]? = some (byteAt word place)

theorem HoldsWord.of_bytes {buf block : List UInt8} {start offset : Nat} {word : UInt32}
    (held : HoldsWord block offset word) (bytes : ∀ k < block.length, buf[start + k]? = block[k]?) :
    HoldsWord buf (start + offset) word := by
  intro place less
  have byte := held place less
  have inside : offset + place < block.length := (List.getElem?_eq_some_iff.mp byte).1
  rw [Nat.add_assoc, bytes _ inside, byte]

/-- The word of an element stands four bytes behind the word of the element before. -/
theorem holdsWord_flatMap {α : Type} (word : α → UInt32) {xs : List α} {i : Nat} {x : α} (found : xs[i]? = some x) :
    HoldsWord (xs.flatMap fun x => wordBytes (word x)) (4 * i) (word x) := by
  induction xs generalizing i with
  | nil => cases found
  | cons y ys ih =>
    have front : (wordBytes (word y)).length = 4 := rfl
    intro place less
    rw [List.flatMap_cons]
    cases i with
    | zero =>
      cases found
      rw [List.getElem?_append_left (by omega), Nat.mul_zero, Nat.zero_add]
      match place, less with
      | 0, _ | 1, _ | 2, _ | 3, _ => rfl
    | succ i =>
      rw [List.getElem?_append_right (by omega), front, ← ih found place less]
      congr 1
      omega

theorem length_flatMap_wordBytes {α : Type} (word : α → UInt32) (xs : List α) :
    (xs.flatMap fun x => wordBytes (word x)).length = 4 * xs.length := by
  induction xs with
  | nil => rfl
  | cons x xs ih =>
    have front : (wordBytes (word x)).length = 4 := rfl
    rw [List.flatMap_cons, List.length_append, ih, front, List.length_cons]
    omega

end ViewLang.Gpu.Buffer
