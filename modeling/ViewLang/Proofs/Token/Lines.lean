import ViewLang.Proofs.Token.Partition
import ViewLang.Proofs.Token.Writing

namespace ViewLang

def Span.shift (k : Nat) (s : Span) : Span := ⟨s.start + k, s.stop + k⟩

def Located.shift {α : Type} (k : Nat) (x : Located α) : Located α := ⟨x.value, x.span.shift k⟩

def Label.shift (k : Nat) (l : Label) : Label := { l with span := l.span.shift k }

def Diagnostic.shift (k : Nat) (d : Diagnostic) : Diagnostic := { d with labels := d.labels.map (Label.shift k) }

namespace Lexer

def Nesting.shift (k : Nat) (n : Nesting) : Nesting := ⟨n.modes, n.starts.map (· + k)⟩

def State.shift (k : Nat) (s : State) : State := ⟨s.pos + k, s.rest, s.nesting.shift k⟩

theorem transition_shift (k start : Nat) (n : Nesting) (t : Token) :
    transition (start + k) (n.shift k) t = ((transition start n t).1, (transition start n t).2.shift k) := by
  obtain ⟨modes, starts⟩ := n
  rcases modes with _ | ⟨_ | ⟨_ | d⟩, outer⟩ <;> cases t with
  | symbol s => cases s <;> rfl
  | templateEnd => simp [transition, Nesting.shift]
  | _ => rfl

theorem advance_shift (k : Nat) (s : State) (width : Nat) (n : Nesting) :
    (s.shift k).advance width (n.shift k) = (s.advance width n).shift k := by
  obtain ⟨pos, rest, old⟩ := s
  cases rest with
  | nil => rfl
  | cons c cs =>
    simp only [State.advance, State.shift]
    congr 1
    omega

theorem offset_shift (k : Nat) (s : State) (width : Nat) : (s.shift k).offset width = s.offset width + k := by
  simp only [State.offset, State.shift]
  omega

theorem diagnostic_shift (k : Nat) (s : State) (f : Fault) : f.diagnostic (s.shift k) = (f.diagnostic s).shift k := by
  have pos : (s.shift k).pos = s.pos + k := rfl
  cases f <;>
    simp [Fault.diagnostic, Diagnostic.errorAt, Diagnostic.withHelp, Diagnostic.shift, Label.shift, Span.shift,
      offset_shift, pos, Nat.add_right_comm]

def shiftStep (k : Nat) : Except Diagnostic (Option (Located Token) × State) →
    Except Diagnostic (Option (Located Token) × State)
  | .ok (t, s) => .ok (t.map (Located.shift k), s.shift k)
  | .error d => .error (d.shift k)

theorem step_shift (k : Nat) (s : State) : step (s.shift k) = shiftStep k (step s) := by
  unfold step
  have same : front (s.shift k).nesting.modes (s.shift k).rest = front s.nesting.modes s.rest := rfl
  rw [same]
  cases front s.nesting.modes s.rest with
  | token t width =>
    have changed := transition_shift k s.pos s.nesting t
    have moved := advance_shift k s width (transition s.pos s.nesting t).2
    simp only [State.shift] at changed moved ⊢
    simp only [changed, moved]
    rfl
  | trivia width =>
    have moved := advance_shift k s width s.nesting
    exact congrArg (fun next => Except.ok (none, next)) moved
  | fault f => exact congrArg Except.error (diagnostic_shift k s f)

def shiftRun (k : Nat) : Except Diagnostic (List (Located Token)) → Except Diagnostic (List (Located Token))
  | .ok ts => .ok (ts.map (Located.shift k))
  | .error d => .error (d.shift k)

theorem run_shift (k : Nat) (s : State) : run (s.shift k) = shiftRun k (run s) := by
  induction length : s.rest.length using Nat.strongRecOn generalizing s with
  | ind n ih =>
    by_cases ended : s.rest = []
    · have ended' : (s.shift k).rest = [] := ended
      rw [run_of_end ended, run_of_end ended']
      simp only [State.shift, Nesting.shift]
      cases s.nesting.starts with
      | nil => rfl
      | cons start outer => rfl
    · have ended' : (s.shift k).rest ≠ [] := ended
      have moved := step_shift k s
      cases stepped : step s with
      | error d =>
        rw [stepped] at moved
        rw [run_refused ended stepped, run_refused ended' moved]
        rfl
      | ok result =>
        obtain ⟨t, s'⟩ := result
        rw [stepped] at moved
        rw [run_step ended stepped, run_step ended' moved,
          ih s'.rest.length (length ▸ step_rest_lt ended stepped) s' rfl]
        cases run s' with
        | error d => rfl
        | ok ts =>
          simp only [shiftRun, Except.map, List.map_append]
          cases t <;> rfl

def Stays (width : List Char → Nat) : Prop :=
  ∀ cs rest, '\n' ∈ cs → width (cs ++ rest) = width cs ∧ '\n' ∈ cs.drop (width cs)

theorem takeWhile_append_of_break {p : Char → Bool} (stops : p '\n' = false) {cs : List Char} (broken : '\n' ∈ cs)
    (rest : List Char) : (cs ++ rest).takeWhile p = cs.takeWhile p := by
  rw [List.takeWhile_append]
  split
  · rename_i whole
    have all := List.takeWhile_prefix (p := p) (l := cs) |>.eq_of_length whole
    rw [← all] at broken
    have holds := List.mem_takeWhile_imp broken
    rw [stops] at holds
    cases holds
  · rfl

theorem stays_takeWhile {p : Char → Bool} (stops : p '\n' = false) : Stays fun cs => (cs.takeWhile p).length := by
  intro cs rest broken
  refine ⟨congrArg List.length (takeWhile_append_of_break stops broken rest), ?_⟩
  have whole := List.takeWhile_append_dropWhile (p := p) (l := cs)
  rw [drop_takeWhile_length]
  rw [← whole] at broken
  rcases List.mem_append.mp broken with before | behind
  · have holds := List.mem_takeWhile_imp before
    rw [stops] at holds
    cases holds
  · exact behind

theorem width_lt {cs : List Char} {w : Nat} (behind : '\n' ∈ cs.drop w) : w < cs.length := by
  have some_left := List.length_pos_of_mem behind
  rw [List.length_drop] at some_left
  omega

theorem Stays.andThen {f g : List Char → Nat} (first : Stays f) (second : Stays g) :
    Stays fun cs => f cs + g (cs.drop (f cs)) := by
  intro cs rest broken
  obtain ⟨same, behind⟩ := first cs rest broken
  obtain ⟨same', behind'⟩ := second (cs.drop (f cs)) rest behind
  have less := width_lt behind
  refine ⟨?_, ?_⟩
  · dsimp only
    rw [same, List.drop_append_of_le_length (by omega), same']
  · rw [← List.drop_drop]
    exact behind'

theorem mem_tail_of_break {c : Char} {cs : List Char} (broken : '\n' ∈ c :: cs) (other : c ≠ '\n') : '\n' ∈ cs := by
  rcases List.mem_cons.mp broken with same | later
  · exact absurd same.symm other
  · exact later

theorem stays_fractionWidth : Stays fractionWidth := by
  intro cs rest broken
  cases cs with
  | nil => cases broken
  | cons c cs =>
    by_cases point : c = '.'
    · subst point
      have later := mem_tail_of_break broken (by decide)
      obtain ⟨same, behind⟩ := stays_takeWhile (p := Char.isDigit) (by decide) cs rest later
      dsimp only at same behind
      obtain ⟨d, ds, rfl⟩ := List.exists_cons_of_ne_nil (List.ne_nil_of_mem later)
      rw [List.cons_append] at same
      simp only [fractionWidth, List.cons_append, same, true_and]
      split
      · rw [Nat.add_comm 1, List.drop_succ_cons]
        exact behind
      · split
        · exact broken
        · exact later
    · have none (more : List Char) : fractionWidth (c :: more) = 0 := by
        unfold fractionWidth
        split
        · rename_i same
          exact absurd (List.cons.inj same).1 point
        · rfl
      rw [List.cons_append, none, none]
      exact ⟨rfl, broken⟩

theorem stays_exponentWidth : Stays exponentWidth := by
  intro cs rest broken
  cases cs with
  | nil => cases broken
  | cons e cs =>
    by_cases mark : e = 'e' ∨ e = 'E'
    · have marked : (e == 'e' || e == 'E') = true := by simpa using mark
      have later : '\n' ∈ cs := mem_tail_of_break broken (by rcases mark with rfl | rfl <;> decide)
      obtain ⟨c, cs, rfl⟩ := List.exists_cons_of_ne_nil (List.ne_nil_of_mem later)
      by_cases signed : c = '+' ∨ c = '-'
      · have isSign : (c == '+' || c == '-') = true := by simpa using signed
        have digits : '\n' ∈ cs := mem_tail_of_break later (by rcases signed with rfl | rfl <;> decide)
        obtain ⟨same, behind⟩ := stays_takeWhile (p := Char.isDigit) (by decide) cs rest digits
        dsimp only at same behind
        simp only [exponentWidth, List.cons_append, marked, isSign, ↓reduceIte, List.drop_succ_cons, List.drop_zero,
          same, true_and]
        split
        · rw [Nat.add_comm, List.drop_succ_cons, List.drop_succ_cons]
          exact behind
        · exact broken
      · have noSign : (c == '+' || c == '-') = false := by simpa using signed
        obtain ⟨same, behind⟩ := stays_takeWhile (p := Char.isDigit) (by decide) (c :: cs) rest later
        dsimp only at same behind
        rw [List.cons_append] at same
        simp only [exponentWidth, List.cons_append, marked, noSign, Bool.false_eq_true, ↓reduceIte, List.drop_zero,
          same, true_and]
        split
        · rw [Nat.add_zero, Nat.add_comm, List.drop_succ_cons]
          exact behind
        · exact broken
    · have unmarked : (e == 'e' || e == 'E') = false := by simpa using mark
      simp only [exponentWidth, List.cons_append, unmarked, Bool.false_eq_true, ↓reduceIte, List.drop_zero, true_and]
      exact broken

/-- A hexadecimal number does not depend on what stands behind the line, and ends before its end. -/
theorem hexWidth?_break {cs : List Char} (broken : '\n' ∈ cs) (rest : List Char) :
    hexWidth? (cs ++ rest) = hexWidth? cs ∧ ∀ w ∈ hexWidth? cs, '\n' ∈ cs.drop w := by
  match cs, broken with
  | [c], broken =>
    obtain rfl := List.mem_singleton.mp broken
    refine ⟨by cases rest <;> rfl, ?_⟩
    intro w read
    cases read
  | c :: x :: cs, broken =>
    by_cases zero : c = '0'
    · subst zero
      have later := mem_tail_of_break broken (by decide)
      by_cases mark : (x == 'x' || x == 'X') = true
      · have digits : '\n' ∈ cs := by
          refine mem_tail_of_break later ?_
          rintro rfl
          cases mark
        obtain ⟨same, behind⟩ := stays_takeWhile (p := Text.isHexDigit) (by decide) cs rest digits
        dsimp only at same behind
        simp only [hexWidth?, List.cons_append, mark, Bool.true_and, same, true_and]
        intro w found
        split at found
        · cases found
          rw [Nat.add_comm 2, List.drop_succ_cons, List.drop_succ_cons]
          exact behind
        · cases found
      · rw [Bool.not_eq_true] at mark
        simp [hexWidth?, mark]
    · have none (more : List Char) : hexWidth? (c :: more) = none := by
        unfold hexWidth?
        split
        · rename_i same
          exact absurd (List.cons.inj same).1 zero
        · rfl
      rw [List.cons_append, none, none]
      refine ⟨rfl, ?_⟩
      intro w read
      cases read

theorem numberWidth_break {cs : List Char} (broken : '\n' ∈ cs) (rest : List Char) :
    numberWidth (cs ++ rest) = numberWidth cs ∧ '\n' ∈ cs.drop (numberWidth cs).1 := by
  obtain ⟨hex, inside⟩ := hexWidth?_break broken rest
  unfold numberWidth
  rw [hex]
  cases found : hexWidth? cs with
  | some w => exact ⟨rfl, inside w found⟩
  | none =>
    have digits := stays_takeWhile (p := Char.isDigit) (by decide)
    have fraction := digits.andThen stays_fractionWidth
    have exponent := fraction.andThen stays_exponentWidth
    obtain ⟨whole, behind⟩ := digits cs rest broken
    obtain ⟨point, behind'⟩ := fraction cs rest broken
    obtain ⟨mark, behind''⟩ := exponent cs rest broken
    dsimp only at whole behind point behind' mark behind'' ⊢
    have less := width_lt behind
    have less' := width_lt behind'
    rw [whole, List.drop_append_of_le_length (by omega)] at point mark ⊢
    have fractions := Nat.add_left_cancel point
    rw [fractions, List.drop_append_of_le_length (by omega)] at mark ⊢
    have exponents := Nat.add_left_cancel mark
    rw [exponents]
    exact ⟨rfl, behind''⟩

theorem number_break {cs : List Char} (broken : '\n' ∈ cs) (rest : List Char) : number (cs ++ rest) = number cs := by
  obtain ⟨same, behind⟩ := numberWidth_break broken rest
  have less := width_lt behind
  obtain ⟨c, more, left⟩ := List.exists_cons_of_ne_nil (List.ne_nil_of_mem behind)
  unfold number
  rw [same]
  dsimp only
  rw [List.drop_append_of_le_length (by omega), List.take_append_of_le_length (by omega), left]
  rfl

theorem word_break {cs : List Char} (broken : '\n' ∈ cs) (rest : List Char) : word (cs ++ rest) = word cs := by
  unfold word
  rw [takeWhile_append_of_break (by decide) broken]

theorem isPrefixOf_break {text cs : List Char} (inLine : '\n' ∉ text) (broken : '\n' ∈ cs) (rest : List Char) :
    text.isPrefixOf (cs ++ rest) = text.isPrefixOf cs := by
  induction text generalizing cs with
  | nil => simp
  | cons x text ih =>
    cases cs with
    | nil => cases broken
    | cons c cs =>
      rw [List.cons_append, List.isPrefixOf_cons_cons, List.isPrefixOf_cons_cons]
      by_cases same : x = c
      · subst same
        rw [List.mem_cons, not_or] at inLine
        rw [ih inLine.2 (mem_tail_of_break broken (Ne.symm inLine.1))]
      · rw [beq_false_of_ne same]
        rfl

theorem symbol?_break {cs : List Char} (broken : '\n' ∈ cs) (rest : List Char) : symbol? (cs ++ rest) = symbol? cs := by
  have inLine (s : Symbol) : '\n' ∉ s.text.toList := by cases s <;> decide
  unfold symbol?
  congr 1
  funext s
  rw [isPrefixOf_break (inLine s) broken]

theorem commentWidth?_append {cs : List Char} {w : Nat} (found : commentWidth? cs = some w) (rest : List Char) :
    commentWidth? (cs ++ rest) = some w ∧ w ≤ cs.length := by
  fun_induction commentWidth? cs generalizing w with
  | case1 => cases found
  | case2 cs =>
    cases found
    exact ⟨rfl, by simp⟩
  | case3 c cs notClosed ih =>
    rw [Option.map_eq_some_iff] at found
    obtain ⟨v, found, rfl⟩ := found
    obtain ⟨same, less⟩ := ih found
    have notEmpty : cs ≠ [] := by
      rintro rfl
      cases found
    rw [List.cons_append, commentWidth?, same]
    · exact ⟨rfl, Nat.succ_le_succ less⟩
    · intro more star slash
      obtain ⟨d, ds, rfl⟩ := List.exists_cons_of_ne_nil notEmpty
      rw [List.cons_append, List.cons.injEq] at slash
      exact notClosed ds star (by rw [slash.1])

theorem stringRest_append {cs text : List Char} {w : Nat} (closed : stringRest cs = .closed text w)
    (rest : List Char) : stringRest (cs ++ rest) = .closed text w ∧ w ≤ cs.length := by
  obtain ⟨body, taken, written⟩ := stringRest_closed closed
  have whole := List.take_append_drop w cs
  rw [taken, List.append_assoc, List.singleton_append] at whole
  have read := stringRest_written written (cs.drop w)
  rw [whole, closed] at read
  cases read
  rw [← whole, List.append_assoc, List.cons_append]
  refine ⟨stringRest_written written _, ?_⟩
  rw [List.length_append, List.length_cons]
  omega

theorem templateRun_append {cs text : List Char} {w : Nat} (closed : templateRun cs = .closed text w)
    (less : w < cs.length) (rest : List Char) : templateRun (cs ++ rest) = .closed text w := by
  obtain ⟨written, ends⟩ := templateRun_closed closed
  have whole := List.take_append_drop w cs
  have length : (cs.take w).length = w := List.length_take_of_le (by omega)
  have some_left : cs.drop w ≠ [] := by simpa using less
  obtain ⟨c, more, left⟩ := List.exists_cons_of_ne_nil some_left
  have read : templateRun (cs.take w ++ (cs.drop w ++ rest)) = .closed text (cs.take w).length := by
    apply templateRun_written written
    rw [left] at ends ⊢
    exact ends
  rwa [← List.append_assoc, whole, length] at read

def Front.Within (cs : List Char) : Front → Prop
  | .token _ width => width ≤ cs.length
  | .trivia width => width ≤ cs.length
  | .fault _ => False

def Fixed (cs rest : List Char) : Prop := codeFront (cs ++ rest) = codeFront cs ∧ (codeFront cs).Within cs

theorem fixed_string {cs : List Char} (sound : ∀ f, codeFront ('"' :: cs) ≠ .fault f) (rest : List Char) :
    Fixed ('"' :: cs) rest := by
  unfold Fixed
  simp only [codeFront, List.cons_append] at sound ⊢
  cases closed : stringRest cs with
  | closed text w =>
    obtain ⟨same, less⟩ := stringRest_append closed rest
    rw [same]
    refine ⟨rfl, ?_⟩
    rw [Front.Within, List.length_cons]
    omega
  | unclosed w => exact absurd (by rw [closed]) (sound (.openString (1 + w)))
  | badEscape w => exact absurd (by rw [closed]) (sound (.badStringEscape (1 + w)))

theorem fixed_lineComment {cs : List Char} (broken : '\n' ∈ cs) (rest : List Char) :
    Fixed ('/' :: '/' :: cs) rest := by
  obtain ⟨same, behind⟩ := stays_takeWhile (p := (· != '\n')) (by decide) cs rest broken
  have less := width_lt behind
  dsimp only at same less
  unfold Fixed
  simp only [codeFront, List.cons_append]
  rw [same]
  refine ⟨rfl, ?_⟩
  rw [Front.Within, List.length_cons, List.length_cons]
  omega

theorem fixed_blockComment {cs : List Char} (sound : ∀ f, codeFront ('/' :: '*' :: cs) ≠ .fault f)
    (rest : List Char) : Fixed ('/' :: '*' :: cs) rest := by
  unfold Fixed
  simp only [codeFront, List.cons_append] at sound ⊢
  cases closed : commentWidth? cs with
  | some w =>
    obtain ⟨same, less⟩ := commentWidth?_append closed rest
    rw [same]
    refine ⟨rfl, ?_⟩
    rw [Front.Within, List.length_cons, List.length_cons]
    omega
  | none => exact absurd (by rw [closed]) (sound .openComment)

theorem number_within {cs : List Char} (broken : '\n' ∈ cs) (sound : ∀ f, number cs ≠ .fault f) :
    (number cs).Within cs := by
  have less := width_lt (numberWidth_break broken []).2
  unfold number at sound ⊢
  dsimp only at sound ⊢
  split
  · rename_i runsOn
    rw [if_pos runsOn] at sound
    exact absurd rfl (sound .badCharacter)
  · exact Nat.le_of_lt less

theorem word_within {cs : List Char} (broken : '\n' ∈ cs) : (word cs).Within cs := by
  have less := width_lt (stays_takeWhile (p := isIdentChar) (by decide) cs [] broken).2
  unfold word
  dsimp only at less ⊢
  split <;> exact Nat.le_of_lt less

theorem symbol?_within {cs : List Char} {s : Symbol} (found : symbol? cs = some s) :
    s.text.toList.length ≤ cs.length := by
  have front := List.find?_some found
  exact (List.isPrefixOf_iff_prefix.mp front).length_le

/-- Code in front of the end of a line reads the same whatever follows the line, but blanks go on behind it. -/
theorem codeFront_break {cs : List Char} (broken : '\n' ∈ cs) (sound : ∀ f, codeFront cs ≠ .fault f)
    (rest : List Char) : Fixed cs rest ∨ codeFront cs = .trivia cs.length ∧
      codeFront (cs ++ rest) = .trivia (cs.length + (rest.takeWhile Text.isBlank).length) := by
  obtain ⟨c, cs, rfl⟩ := List.exists_cons_of_ne_nil (List.ne_nil_of_mem broken)
  by_cases quote : c = '"'
  · subst quote
    exact .inl (fixed_string sound rest)
  by_cases tick : c = '\x60'
  · subst tick
    exact .inl ⟨rfl, Nat.succ_pos _⟩
  by_cases comment : c = '/' ∧ ∃ d ∈ cs.head?, d = '/' ∨ d = '*'
  · obtain ⟨rfl, d, first, kind⟩ := comment
    obtain ⟨cs, rfl⟩ := List.head?_eq_some_iff.mp first
    rcases kind with rfl | rfl
    · exact .inl (fixed_lineComment (mem_tail_of_break (mem_tail_of_break broken (by decide)) (by decide)) rest)
    · exact .inl (fixed_blockComment sound rest)
  -- What is left is told by the first character: blanks, a number, a word or a symbol.
  have uncommented (more : List Char) (next : c = '/' → ∀ d ∈ more.head?, d ∈ cs.head?) (slash : c = '/') :
      ∀ d ∈ more.head?, d ≠ '/' ∧ d ≠ '*' := by
    intro d head
    exact ⟨fun same => comment ⟨slash, d, next slash d head, .inl same⟩,
      fun same => comment ⟨slash, d, next slash d head, .inr same⟩⟩
  have plain (more : List Char) (next : c = '/' → ∀ d ∈ more.head?, d ∈ cs.head?) :=
    codeFront_cons quote tick (uncommented more next)
  have here := plain cs fun _ _ same => same
  have after : c = '/' → ∀ d ∈ (cs ++ rest).head?, d ∈ cs.head? := by
    rintro rfl d head
    obtain ⟨e, es, rfl⟩ := List.exists_cons_of_ne_nil (List.ne_nil_of_mem (mem_tail_of_break broken (by decide)))
    exact head
  unfold Fixed
  rw [here] at sound
  rw [List.cons_append, here, plain _ after, ← List.cons_append]
  by_cases blank : Text.isBlank c = true
  · rw [if_pos blank, if_pos blank]
    by_cases all : ∀ d ∈ c :: cs, Text.isBlank d = true
    · right
      rw [List.takeWhile_append_of_pos all, List.length_append, List.takeWhile_eq_self_iff.mpr all]
      exact ⟨rfl, rfl⟩
    · left
      have ended : ((c :: cs).takeWhile Text.isBlank).length ≠ (c :: cs).length := by
        intro whole
        have same := List.takeWhile_prefix (p := Text.isBlank) (l := c :: cs) |>.eq_of_length whole
        exact all (List.takeWhile_eq_self_iff.mp same)
      rw [List.takeWhile_append, if_neg ended]
      exact ⟨rfl, (List.takeWhile_prefix _).length_le⟩
  · rw [if_neg blank] at sound
    rw [if_neg blank, if_neg blank, number_break broken, word_break broken, symbol?_break broken]
    refine .inl ⟨rfl, ?_⟩
    by_cases digit : c.isDigit = true
    · rw [if_pos digit] at sound ⊢
      exact number_within broken sound
    · rw [if_neg digit] at sound ⊢
      by_cases letter : isIdentStart c = true
      · rw [if_pos letter]
        exact word_within broken
      · rw [if_neg letter] at sound ⊢
        cases found : symbol? (c :: cs) with
        | some s => exact symbol?_within found
        | none =>
          rw [found] at sound
          exact absurd rfl (sound .badCharacter)

/-- Text of a template in front of the end of a line reads the same whatever follows, unless it goes on to the end of
what is there. -/
theorem templateFront_append {cs : List Char} {t : Token} {w : Nat} (inhabited : cs ≠ [])
    (read : templateFront cs = .token t w) (rest : List Char) :
    templateFront (cs ++ rest) = .token t w ∧ w ≤ cs.length ∨ cs.drop w = [] ∧ ∃ text, t = .templateText text := by
  obtain ⟨c, cs, rfl⟩ := List.exists_cons_of_ne_nil inhabited
  by_cases tick : c = '\x60'
  · subst tick
    cases read
    exact .inl ⟨rfl, Nat.succ_pos _⟩
  by_cases brace : c = '\x7b'
  · subst brace
    cases read
    exact .inl ⟨rfl, Nat.succ_pos _⟩
  have text (more : List Char) := templateFront.eq_3 (c :: more) (fun _ same => tick (List.cons.inj same).1)
    (fun _ same => brace (List.cons.inj same).1)
  rw [text] at read
  split at read
  · rename_i run width closed
    cases read
    by_cases less : w < (c :: cs).length
    · left
      rw [List.cons_append, text, ← List.cons_append, templateRun_append closed less]
      exact ⟨rfl, Nat.le_of_lt less⟩
    · right
      exact ⟨List.drop_eq_nil_of_le (Nat.le_of_not_lt less), _, rfl⟩
  · cases read
  · cases read

def State.append (s : State) (more : List Char) : State := { s with rest := s.rest ++ more }

def State.skipBlanks (s : State) : State :=
  ⟨s.pos + byteLength (s.rest.takeWhile Text.isBlank), s.rest.dropWhile Text.isBlank, s.nesting⟩

theorem advance_append {s : State} {width : Nat} (inhabited : s.rest ≠ []) (positive : 0 < width)
    (inside : width ≤ s.rest.length) (n : Nesting) (more : List Char) :
    (s.append more).advance width n = (s.advance width n).append more := by
  have inhabited' : (s.append more).rest ≠ [] := by simp [State.append, inhabited]
  rw [advance_eq inhabited positive, advance_eq inhabited' positive]
  simp only [State.append]
  rw [List.take_append_of_le_length inside, List.drop_append_of_le_length inside]

theorem step_of_token {s : State} {u : Token} {width : Nat} (found : front s.nesting.modes s.rest = .token u width) :
    step s = .ok
      (some ⟨(transition s.pos s.nesting u).1, ⟨s.pos, (s.advance width (transition s.pos s.nesting u).2).pos⟩⟩,
      s.advance width (transition s.pos s.nesting u).2) := by
  rw [step, found]

theorem step_of_trivia {s : State} {width : Nat} (found : front s.nesting.modes s.rest = .trivia width) :
    step s = .ok (none, s.advance width s.nesting) := by
  rw [step, found]

/-- A step that sees the same in front of more text does the same. -/
theorem step_append_of_front {s s' : State} {t : Option (Located Token)} {more : List Char} (inhabited : s.rest ≠ [])
    (stepped : step s = .ok (t, s'))
    (same : front s.nesting.modes (s.rest ++ more) = front s.nesting.modes s.rest)
    (within : (front s.nesting.modes s.rest).Within s.rest) :
    step (s.append more) = .ok (t, s'.append more) := by
  have fits := front_fits s.nesting.modes inhabited
  have same' : front (s.append more).nesting.modes (s.append more).rest = front s.nesting.modes s.rest := same
  cases found : front s.nesting.modes s.rest with
  | token u width =>
    rw [found] at same' within fits
    rw [step_of_token found] at stepped
    rw [step_of_token same']
    have moved := advance_append inhabited fits.1 within (transition s.pos s.nesting u).2 more
    cases stepped
    simp only [State.append] at moved ⊢
    rw [moved]
  | trivia width =>
    rw [found] at same' within fits
    have positive : 0 < width := by
      rcases Nat.eq_zero_or_pos width with rfl | positive
      · exact absurd rfl fits.ne_nil
      · exact positive
    rw [step_of_trivia found] at stepped
    rw [step_of_trivia same']
    have moved := advance_append inhabited positive within s.nesting more
    cases stepped
    simp only [State.append] at moved ⊢
    rw [moved]
  | fault f =>
    rw [found] at within
    cases within

/-- A step in a line does the same in front of more text, unless it comes to the end of what is there: in a template,
or with blanks, which go on behind it. -/
theorem step_append {s s' : State} {t : Option (Located Token)} (broken : '\n' ∈ s.rest)
    (stepped : step s = .ok (t, s')) (more : List Char) :
    step (s.append more) = .ok (t, s'.append more) ∨
    (s'.rest = [] ∧ s'.nesting.modes ≠ []) ∨
    (s'.rest = [] ∧ t = none ∧ step (s.append more) = .ok (none, (s'.append more).skipBlanks)) := by
  have inhabited := List.ne_nil_of_mem broken
  obtain ⟨width, positive, pos, rest, read⟩ := step_cases inhabited stepped
  by_cases inText : s.nesting.modes.head? = some .template
  · rcases read with ⟨-, -, trivia, -⟩ | ⟨u, rfl, after, found, -⟩
    · rw [front_text inText] at trivia
      exact absurd trivia (templateFront_ne_trivia inhabited width)
    · have found' := found
      rw [front_text inText] at found'
      rcases templateFront_append inhabited found' more with ⟨same, within⟩ | ⟨ended, text, rfl⟩
      · left
        apply step_append_of_front inhabited stepped
        · rw [front_text inText, front_text inText, same, found']
        · rw [found]
          exact within
      · right
        left
        have kept : s'.nesting = s.nesting := by
          rw [after]
          obtain ⟨outer, modes⟩ := List.head?_eq_some_iff.mp inText
          obtain ⟨p, r, ms, starts⟩ := s
          dsimp only at modes
          rw [modes]
          rfl
        refine ⟨rest.trans ended, ?_⟩
        rw [kept]
        intro nothing
        rw [nothing] at inText
        cases inText
  · have sound (f : Fault) : codeFront s.rest ≠ .fault f := by
      intro failed
      rw [← front_code inText] at failed
      rw [step, failed] at stepped
      cases stepped
    rcases codeFront_break broken sound more with ⟨same, within⟩ | ⟨whole, onward⟩
    · left
      apply step_append_of_front inhabited stepped
      · rw [front_code inText, front_code inText, same]
      · rw [front_code inText]
        exact within
    · right
      right
      -- The blanks are all that is left, and they go on as far as there are more of them.
      have whole' : front s.nesting.modes s.rest = .trivia s.rest.length := by rw [front_code inText, whole]
      have onward' : front (s.append more).nesting.modes (s.append more).rest =
          .trivia (s.rest.length + (more.takeWhile Text.isBlank).length) := by
        rw [← onward]
        exact front_code inText _
      have inhabited' : (s.append more).rest ≠ [] := by simp [State.append, inhabited]
      have length : 0 < s.rest.length := List.length_pos_iff.mpr inhabited
      rw [step_of_trivia whole', advance_eq inhabited length] at stepped
      cases stepped
      refine ⟨List.drop_length, rfl, ?_⟩
      rw [step_of_trivia onward', advance_eq inhabited' (by omega)]
      simp only [State.append, State.skipBlanks, List.take_length, List.drop_length, List.nil_append]
      rw [List.take_length_add_append, List.drop_length_add_append, take_takeWhile_length, drop_takeWhile_length,
        byteLength_append, Nat.add_assoc]

def EndsLine (cs : List Char) : Prop := cs = [] ∨ cs.getLast? = some '\n'

theorem EndsLine.broken {before cs : List Char} (ends : EndsLine (before ++ cs)) (inhabited : cs ≠ []) : '\n' ∈ cs := by
  rcases ends with nothing | last
  · exact absurd (List.append_eq_nil_iff.mp nothing).2 inhabited
  · rw [List.getLast?_append_of_ne_nil _ inhabited] at last
    exact List.mem_of_getLast? last

/-- The places that the lexer comes to in a text that ends with its line are places of it in front of more text. -/
theorem Reaches.append {a b : String} (ends : EndsLine a.toList) {ts : List (Located Token)} {s : State}
    (reaches : Reaches (State.start a) ts s) :
    Reaches (State.start (a ++ b)) ts (s.append b.toList) ∨
    (s.rest = [] ∧ s.nesting.modes ≠ []) ∨
    (s.rest = [] ∧ Reaches (State.start (a ++ b)) ts (s.append b.toList).skipBlanks) := by
  induction reaches with
  | start =>
    left
    have same : (State.start a).append b.toList = State.start (a ++ b) := by
      simp [State.append, State.start, String.toList_append]
    rw [same]
    exact .start
  | @step ts t s s' before inhabited stepped ih =>
    rcases ih with along | ⟨ended, -⟩ | ⟨ended, -⟩
    · obtain ⟨done, whole, -⟩ := before.tiled.place
      have broken := EndsLine.broken (whole ▸ ends) inhabited
      have inhabited' : (s.append b.toList).rest ≠ [] := by simp [State.append, inhabited]
      rcases step_append broken stepped b.toList with same | open_ | ⟨ended, rfl, skipped⟩
      · exact .inl (along.step inhabited' same)
      · exact .inr (.inl open_)
      · exact .inr (.inr ⟨ended, along.step inhabited' skipped⟩)
    · exact absurd ended inhabited
    · exact absurd ended inhabited

/-- Outside of templates, blanks may be passed over first. -/
theorem run_skipBlanks {s : State} (inCode : s.nesting.modes.head? ≠ some .template) : run s.skipBlanks = run s := by
  obtain ⟨pos, rest, nesting⟩ := s
  cases rest with
  | nil => rfl
  | cons c cs =>
    by_cases blank : Text.isBlank c = true
    · have length := takeWhile_length_pos blank cs
      have found : front nesting.modes (c :: cs) = .trivia ((c :: cs).takeWhile Text.isBlank).length := by
        rw [front_code inCode, codeFront_cons, if_pos blank]
        all_goals
          rintro rfl
          exact absurd blank (by decide)
      have stepped := step_of_trivia (s := ⟨pos, c :: cs, nesting⟩) found
      rw [advance_eq (List.cons_ne_nil c cs) length, take_takeWhile_length, drop_takeWhile_length] at stepped
      rw [run_step (List.cons_ne_nil c cs) stepped, State.skipBlanks]
      cases run _ <;> rfl
    · simp [State.skipBlanks, blank]

/-- A text that is read and ends with its line can be read in front of any other: the tokens of the other follow, moved
by the bytes of the first, or the other is refused, at the place where it is refused by itself, moved in the same
way. -/
theorem tokenize_line_append {a : String} {ts : List (Located Token)} (read : tokenize a = .ok ts)
    (ends : EndsLine a.toList) (b : String) :
    tokenize (a ++ b) = match tokenize b with
      | .ok us => .ok (ts ++ us.map (Located.shift (byteLength a.toList)))
      | .error d => .error (d.shift (byteLength a.toList)) := by
  obtain ⟨s, reaches, ended, closed⟩ := run_ok read
  have nothing := reaches.nested.opened.starts_eq_nil_iff.mp closed
  have place : s.append b.toList = (State.start b).shift (byteLength a.toList) := by
    obtain ⟨done, whole, pos⟩ := reaches.tiled.place
    rw [ended, List.append_nil] at whole
    obtain ⟨pos', rest, modes, starts⟩ := s
    dsimp only at ended nothing closed pos
    rw [State.append, ended, nothing, closed, pos, whole]
    simp [State.start, State.shift, Nesting.shift]
  have inCode : (s.append b.toList).nesting.modes.head? ≠ some .template := by
    rw [place]
    intro templated
    cases templated
  have along : run (State.start (a ++ b)) = (run (s.append b.toList)).map (ts ++ ·) := by
    rcases reaches.append (b := b) ends with same | ⟨-, open_⟩ | ⟨-, skipped⟩
    · exact same.run_eq
    · exact absurd nothing open_
    · rw [skipped.run_eq, run_skipBlanks inCode]
  rw [tokenize, along, place, run_shift, tokenize]
  cases run (State.start b) <;> rfl

/-- A line with a template and a comment, in front of a line that can be read and in front of a template that is left
open. -/
theorem tokenize_line_append_open :
    tokenize "x := \x60\x7bb\x7d\x60 // done\ny" = .ok
      [⟨.ident "x", ⟨0, 1⟩⟩, ⟨.symbol .define, ⟨2, 4⟩⟩, ⟨.templateStart, ⟨5, 6⟩⟩, ⟨.interpOpen, ⟨6, 7⟩⟩,
        ⟨.ident "b", ⟨7, 8⟩⟩, ⟨.interpClose, ⟨8, 9⟩⟩, ⟨.templateEnd, ⟨9, 10⟩⟩, ⟨.ident "y", ⟨19, 20⟩⟩] ∧
    tokenize "x := \x60\x7bb\x7d\x60 // done\n \x60c" = .error (openTemplateDiagnostic 20 22) := by
  have read : tokenize "x := \x60\x7bb\x7d\x60 // done\n" = .ok
      [⟨.ident "x", ⟨0, 1⟩⟩, ⟨.symbol .define, ⟨2, 4⟩⟩, ⟨.templateStart, ⟨5, 6⟩⟩, ⟨.interpOpen, ⟨6, 7⟩⟩,
        ⟨.ident "b", ⟨7, 8⟩⟩, ⟨.interpClose, ⟨8, 9⟩⟩, ⟨.templateEnd, ⟨9, 10⟩⟩] := by decide +kernel
  have ends : EndsLine "x := \x60\x7bb\x7d\x60 // done\n".toList := .inr (by decide)
  constructor
  · have other : tokenize "y" = .ok [⟨.ident "y", ⟨0, 1⟩⟩] := by decide +kernel
    have joined := tokenize_line_append read ends "y"
    rw [other] at joined
    exact joined
  · have other : tokenize " \x60c" = .error (openTemplateDiagnostic 1 3) := by decide +kernel
    have joined := tokenize_line_append read ends " \x60c"
    rw [other] at joined
    exact joined

end Lexer
end ViewLang
