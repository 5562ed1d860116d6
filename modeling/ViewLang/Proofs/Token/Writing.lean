import ViewLang.Proofs.Token.Partition

namespace ViewLang.Lexer

def stringChar (c : Char) : List Char :=
  if c = '"' then ['\\', '"']
  else if c = '\\' then ['\\', '\\']
  else if c = '\n' then ['\\', 'n']
  else if c = '\r' then ['\\', 'r']
  else [c]

def textChar (c : Char) : List Char := if c = '\x60' ∨ c = '\x7b' ∨ c = '\\' then ['\\', c] else [c]

def spell : Token → List Char
  | .keyword k => k.text.toList
  | .ident name => name.toList
  | .int text => text.toList
  | .float text => text.toList
  | .string text => '"' :: (text.toList.flatMap stringChar ++ ['"'])
  | .templateStart => ['\x60']
  | .templateText text => text.toList.flatMap textChar
  | .interpOpen => ['\x7b']
  | .interpClose => ['\x7d']
  | .templateEnd => ['\x60']
  | .symbol s => s.text.toList

instance (t : Token) : Decidable (Continues t) := inferInstanceAs (Decidable (_ ∨ _ ∨ _))

/-- What is written between two tokens: nothing in the text of a template, else a blank. The blank behind the opening
brace of an interpolation and the one in front of its closing brace may be left out. -/
def gap (tight : Token → Bool) (t u : Token) : List Char :=
  if Continues t then []
  else if (t = .interpOpen ∧ tight t = true) ∨ (u = .interpClose ∧ tight u = true) then []
  else [' ']

def spellAll (tight : Token → Bool) : List Token → List Char
  | [] => []
  | [t] => spell t
  | t :: u :: ts => spell t ++ (gap tight t u ++ spellAll tight (u :: ts))

def Digits (cs : List Char) : Prop := cs ≠ [] ∧ ∀ c ∈ cs, c.isDigit = true

inductive IntText : List Char → Prop
  | decimal {cs : List Char} (digits : Digits cs) : IntText cs
  | hex {x : Char} {cs : List Char} (mark : x = 'x' ∨ x = 'X') (inhabited : cs ≠ [])
    (digits : ∀ c ∈ cs, Text.isHexDigit c = true) : IntText ('0' :: x :: cs)

inductive ExponentText : List Char → Prop
  | plain {e : Char} {cs : List Char} (mark : e = 'e' ∨ e = 'E') (digits : Digits cs) : ExponentText (e :: cs)
  | signed {e sign : Char} {cs : List Char} (mark : e = 'e' ∨ e = 'E') (signed : sign = '+' ∨ sign = '-')
    (digits : Digits cs) : ExponentText (e :: sign :: cs)

/-- Digits with a point, a fraction or an exponent. No exponent follows a point without digits. -/
inductive FloatText : List Char → Prop
  | point {whole : List Char} (digits : Digits whole) : FloatText (whole ++ ['.'])
  | fraction {whole cs : List Char} (digits : Digits whole) (fraction : Digits cs) : FloatText (whole ++ '.' :: cs)
  | exponent {whole es : List Char} (digits : Digits whole) (exponent : ExponentText es) : FloatText (whole ++ es)
  | both {whole cs es : List Char} (digits : Digits whole) (fraction : Digits cs) (exponent : ExponentText es) :
    FloatText (whole ++ '.' :: (cs ++ es))

/-- A name is a word that is no keyword, and a number one of the language. -/
def Legal : Token → Prop
  | .ident name => (∃ c ∈ name.toList.head?, isIdentStart c = true) ∧ (∀ c ∈ name.toList, isIdentChar c = true) ∧
      ∀ k : Keyword, k.text ≠ name
  | .int text => IntText text.toList
  | .float text => FloatText text.toList
  | _ => True

def Apart (rest : List Char) : Prop := ∀ c ∈ rest.head?, c = ' ' ∨ c = '\x7d'

theorem Apart.head {rest : List Char} {p : Char → Bool} (apart : Apart rest) (blank : p ' ' = false)
    (brace : p '\x7d' = false) : ∀ c ∈ rest.head?, p c = false := by
  intro c next
  rcases apart c next with rfl | rfl
  · exact blank
  · exact brace

theorem takeWhile_eq_left {p : Char → Bool} {cs rest : List Char} (inside : ∀ c ∈ cs, p c = true)
    (stops : ∀ c ∈ rest.head?, p c = false) : (cs ++ rest).takeWhile p = cs := by
  have nothing : rest.takeWhile p = [] := by
    cases rest with
    | nil => rfl
    | cons c rest => rw [List.takeWhile_cons_of_neg (by rw [stops c rfl]; exact Bool.false_ne_true)]
  rw [List.takeWhile_append_of_pos inside, nothing, List.append_nil]

/-- Behind a character that starts neither a comment, a string nor a template. -/
theorem codeFront_cons {c : Char} {cs : List Char} (noQuote : c ≠ '"') (noTick : c ≠ '\x60')
    (noComment : c = '/' → ∀ d ∈ cs.head?, d ≠ '/' ∧ d ≠ '*') : codeFront (c :: cs) =
      if Text.isBlank c then .trivia ((c :: cs).takeWhile Text.isBlank).length
      else if c.isDigit then number (c :: cs)
      else if isIdentStart c then word (c :: cs)
      else match symbol? (c :: cs) with
        | some s => .token (.symbol s) s.text.toList.length
        | none => .fault .badCharacter := by
  unfold codeFront
  split
  · rename_i same
    cases same
    exact absurd rfl (noComment rfl '/' rfl).1
  · rename_i same
    cases same
    exact absurd rfl (noComment rfl '*' rfl).2
  · rename_i same
    cases same
    exact absurd rfl noQuote
  · rename_i same
    cases same
    exact absurd rfl noTick
  · rfl

theorem isDigit_iff_range {c : Char} : c.isDigit = true ↔ 48 ≤ c.toNat ∧ c.toNat ≤ 57 := by
  rw [Char.isDigit, Bool.and_eq_true, decide_eq_true_eq, decide_eq_true_eq, ge_iff_le, UInt32.le_iff_toNat_le,
    UInt32.le_iff_toNat_le]
  rfl

theorem isAlpha_iff_range {c : Char} :
    c.isAlpha = true ↔ (65 ≤ c.toNat ∧ c.toNat ≤ 90) ∨ (97 ≤ c.toNat ∧ c.toNat ≤ 122) := by
  change (decide (c.val ≥ 65 ∧ c.val ≤ 90) || (decide (c.val ≥ 97) && decide (c.val ≤ 122))) = true ↔ _
  simp only [Bool.or_eq_true, Bool.and_eq_true, decide_eq_true_eq, ge_iff_le, UInt32.le_iff_toNat_le]
  rfl

theorem isIdentChar_range {c : Char} (h : isIdentChar c = true) : 48 ≤ c.toNat ∧ c.toNat ≤ 122 := by
  simp only [isIdentChar, Char.isAlphanum, Bool.or_eq_true, beq_iff_eq] at h
  rcases h with (letter | digit) | rfl
  · have range := isAlpha_iff_range.mp letter
    omega
  · have range := isDigit_iff_range.mp digit
    omega
  · decide

theorem not_blank_of_isIdentChar {c : Char} (h : isIdentChar c = true) : Text.isBlank c = false := by
  have range := isIdentChar_range h
  simp only [Text.isBlank, Text.blank, Text.inRanges, List.any_cons, List.any_nil, Bool.or_false, Bool.or_eq_false_iff,
    Bool.and_eq_false_iff, decide_eq_false_iff_not]
  omega

theorem isIdentChar_of_start {c : Char} (h : isIdentStart c = true) : isIdentChar c = true := by
  simp only [isIdentStart, isIdentChar, Char.isAlphanum, Bool.or_eq_true] at h ⊢
  rcases h with letter | line
  · exact .inl (.inl letter)
  · exact .inr line

theorem isIdentChar_of_digit {c : Char} (h : c.isDigit = true) : isIdentChar c = true := by
  simp only [isIdentChar, Char.isAlphanum, h, Bool.or_true, Bool.true_or]

theorem not_digit_of_start {c : Char} (h : isIdentStart c = true) : c.isDigit = false := by
  simp only [isIdentStart, Bool.or_eq_true, beq_iff_eq] at h
  rcases h with letter | rfl
  · have range := isAlpha_iff_range.mp letter
    rw [← Bool.not_eq_true, isDigit_iff_range]
    omega
  · decide

theorem isIdentChar_of_hexDigit {c : Char} (h : Text.isHexDigit c = true) : isIdentChar c = true := by
  have inside : (48 ≤ c.toNat ∧ c.toNat ≤ 57) ∨ (97 ≤ c.toNat ∧ c.toNat ≤ 102) ∨ (65 ≤ c.toNat ∧ c.toNat ≤ 70) := by
    unfold Text.isHexDigit Text.hexValue? at h
    split at h
    · exact .inl ‹_›
    · split at h
      · exact .inr (.inl ‹_›)
      · split at h
        · exact .inr (.inr ‹_›)
        · cases h
  simp only [isIdentChar, Char.isAlphanum, Bool.or_eq_true]
  rcases inside with digit | letter
  · exact .inl (.inr (isDigit_iff_range.mpr digit))
  · refine .inl (.inl (isAlpha_iff_range.mpr ?_))
    omega

def EndsWord (rest : List Char) : Prop := ∀ c ∈ rest.head?, isIdentChar c = false

theorem Apart.endsWord {rest : List Char} (apart : Apart rest) : EndsWord rest := apart.head (by decide) (by decide)

theorem EndsWord.head {rest : List Char} {p : Char → Bool} (ends : EndsWord rest)
    (inside : ∀ c, p c = true → isIdentChar c = true) : ∀ c ∈ rest.head?, p c = false := by
  intro c next
  have other := ends c next
  cases held : p c with
  | false => rfl
  | true => rw [inside c held] at other; cases other

/-- Code that starts with a letter, a digit or a line below is a word or a number. -/
theorem codeFront_identChar {c : Char} {cs : List Char} (h : isIdentChar c = true) : codeFront (c :: cs) =
    if c.isDigit then number (c :: cs)
    else if isIdentStart c then word (c :: cs)
    else match symbol? (c :: cs) with
      | some s => .token (.symbol s) s.text.toList.length
      | none => .fault .badCharacter := by
  rw [codeFront_cons, not_blank_of_isIdentChar h]
  · rfl
  · rintro rfl
    cases h
  · rintro rfl
    cases h
  · rintro rfl
    cases h

theorem codeFront_word {cs rest : List Char} {found : Option Keyword}
    (start : ∃ c ∈ cs.head?, isIdentStart c = true) (inside : ∀ c ∈ cs, isIdentChar c = true) (ends : EndsWord rest)
    (known : Keyword.ofText? (String.ofList cs) = found) :
    codeFront (cs ++ rest) = .token (found.elim (.ident (String.ofList cs)) .keyword) cs.length := by
  obtain ⟨c, first, letter⟩ := start
  obtain ⟨more, rfl⟩ := List.head?_eq_some_iff.mp first
  have whole : ((c :: more) ++ rest).takeWhile isIdentChar = c :: more :=
    takeWhile_eq_left inside ends
  rw [List.cons_append, codeFront_identChar (isIdentChar_of_start letter), not_digit_of_start letter, letter,
    ← List.cons_append]
  change word ((c :: more) ++ rest) = _
  simp only [word, whole, known]
  cases found <;> rfl

theorem codeFront_ident {name : String} {rest : List Char} (legal : Legal (.ident name)) (ends : EndsWord rest) :
    codeFront (name.toList ++ rest) = .token (.ident name) name.toList.length := by
  obtain ⟨start, inside, other⟩ := legal
  have none : Keyword.ofText? name = none := by
    rw [Keyword.ofText?, List.find?_eq_none]
    intro k _
    simpa using other k
  have read := codeFront_word start inside ends rfl
  rw [String.ofList_toList, none] at read
  exact read

theorem keyword_head (k : Keyword) : ∃ c ∈ k.text.toList.head?, isIdentStart c = true := by
  cases k <;> exact ⟨_, rfl, by decide⟩

theorem codeFront_keyword (k : Keyword) {rest : List Char} (ends : EndsWord rest) :
    codeFront (k.text.toList ++ rest) = .token (.keyword k) k.text.toList.length := by
  have inside : k.text.toList.all isIdentChar = true := by cases k <;> decide
  have found : Keyword.ofText? k.text = some k := by cases k <;> decide
  have read := codeFront_word (keyword_head k) (List.all_eq_true.mp inside) ends rfl
  rw [String.ofList_toList, found] at read
  exact read

theorem Digits.head {cs : List Char} (digits : Digits cs) : ∃ c more, cs = c :: more ∧ c.isDigit = true := by
  obtain ⟨inhabited, all⟩ := digits
  obtain ⟨c, more, rfl⟩ := List.exists_cons_of_ne_nil inhabited
  exact ⟨c, more, rfl, all c List.mem_cons_self⟩

theorem hexWidth?_hex {x : Char} {cs rest : List Char} (mark : x = 'x' ∨ x = 'X') (inhabited : cs ≠ [])
    (digits : ∀ c ∈ cs, Text.isHexDigit c = true) (ends : EndsWord rest) :
    hexWidth? ('0' :: x :: (cs ++ rest)) = some (2 + cs.length) := by
  have whole : (cs ++ rest).takeWhile Text.isHexDigit = cs :=
    takeWhile_eq_left digits (ends.head fun _ => isIdentChar_of_hexDigit)
  have positive : cs.length ≠ 0 := by simpa using inhabited
  rcases mark with rfl | rfl <;> simp [hexWidth?, whole, positive]

/-- Behind its digits, a decimal number goes on with something that marks no hexadecimal number. -/
theorem hexWidth?_decimal {whole tail : List Char} (digits : Digits whole)
    (other : ∀ c ∈ tail.head?, c ≠ 'x' ∧ c ≠ 'X') : hexWidth? (whole ++ tail) = none := by
  obtain ⟨c, more, rfl, first⟩ := digits.head
  have second : ∀ d ∈ (more ++ tail).head?, d ≠ 'x' ∧ d ≠ 'X' := by
    cases more with
    | nil => exact other
    | cons d more =>
      rintro _ ⟨⟩
      have digit := digits.2 d (List.mem_cons_of_mem _ List.mem_cons_self)
      refine ⟨?_, ?_⟩
      · rintro rfl
        cases digit
      · rintro rfl
        cases digit
  unfold hexWidth?
  split
  · rename_i x cs same
    rw [List.cons_append, List.cons.injEq] at same
    have apart := second x (by rw [same.2]; rfl)
    simp [apart.1, apart.2]
  · rfl

theorem numberWidth_decimal {whole tail : List Char} (digits : Digits whole)
    (other : ∀ c ∈ tail.head?, c ≠ 'x' ∧ c ≠ 'X') (ends : ∀ c ∈ tail.head?, c.isDigit = false) :
    numberWidth (whole ++ tail) =
      let fraction := fractionWidth tail
      let exponent := exponentWidth (tail.drop fraction)
      (whole.length + fraction + exponent, fraction != 0 || exponent != 0) := by
  simp only [numberWidth, hexWidth?_decimal digits other, takeWhile_eq_left digits.2 ends, List.drop_left,
    ← List.drop_drop]

theorem fractionWidth_digits {cs tail : List Char} (digits : Digits cs) (ends : ∀ c ∈ tail.head?, c.isDigit = false) :
    fractionWidth ('.' :: (cs ++ tail)) = 1 + cs.length := by
  have positive : cs.length ≠ 0 := by simpa using digits.1
  simp [fractionWidth, takeWhile_eq_left digits.2 ends, positive]

theorem fractionWidth_point {rest : List Char} (ends : EndsWord rest) (single : ∀ c ∈ rest.head?, c ≠ '.') :
    fractionWidth ('.' :: rest) = 1 := by
  cases rest with
  | nil => rfl
  | cons c rest =>
    have noDigit : c.isDigit = false := ends.head (fun _ => isIdentChar_of_digit) c rfl
    simp [fractionWidth, noDigit, ends c rfl, single c rfl]

theorem fractionWidth_none {tail : List Char} (other : ∀ c ∈ tail.head?, c ≠ '.') : fractionWidth tail = 0 := by
  unfold fractionWidth
  split
  · exact absurd rfl (other '.' rfl)
  · rfl

theorem exponentWidth_none {rest : List Char} (ends : EndsWord rest) : exponentWidth rest = 0 := by
  cases rest with
  | nil => rfl
  | cons c rest =>
    have noMark : (c == 'e' || c == 'E') = false := by
      have other := ends c rfl
      rw [Bool.or_eq_false_iff, beq_eq_false_iff_ne, beq_eq_false_iff_ne]
      refine ⟨?_, ?_⟩ <;> rintro rfl <;> cases other
    simp [exponentWidth, noMark]

theorem exponentWidth_text {es rest : List Char} (exponent : ExponentText es) (ended : EndsWord rest) :
    exponentWidth (es ++ rest) = es.length := by
  have ends : ∀ c ∈ rest.head?, c.isDigit = false := ended.head fun _ => isIdentChar_of_digit
  cases exponent with
  | @plain e cs mark digits =>
    have positive : cs.length ≠ 0 := by simpa using digits.1
    obtain ⟨c, more, rfl, digit⟩ := digits.head
    have noSign : (c == '+' || c == '-') = false := by
      rw [Bool.or_eq_false_iff, beq_eq_false_iff_ne, beq_eq_false_iff_ne]
      refine ⟨?_, ?_⟩ <;> rintro rfl <;> cases digit
    have whole := takeWhile_eq_left digits.2 ends
    rw [List.cons_append] at whole
    rcases mark with rfl | rfl <;> simp [exponentWidth, noSign, whole, Nat.add_comm]
  | @signed e sign cs mark signed digits =>
    have positive : cs.length ≠ 0 := by simpa using digits.1
    have whole := takeWhile_eq_left digits.2 ends
    rcases mark with rfl | rfl <;> rcases signed with rfl | rfl <;>
      simp [exponentWidth, whole, positive] <;> omega

theorem ExponentText.head {es : List Char} (exponent : ExponentText es) :
    ∃ e more, es = e :: more ∧ (e = 'e' ∨ e = 'E') := by
  cases exponent with
  | plain mark _ => exact ⟨_, _, rfl, mark⟩
  | signed mark _ _ => exact ⟨_, _, rfl, mark⟩

theorem codeFront_number (isFloat : Bool) {text : String} {rest : List Char}
    (first : ∃ c ∈ text.toList.head?, c.isDigit = true)
    (width : numberWidth (text.toList ++ rest) = (text.toList.length, isFloat)) (ends : EndsWord rest) :
    codeFront (text.toList ++ rest) =
      .token (if isFloat then .float text else .int text) text.toList.length := by
  obtain ⟨c, head, digit⟩ := first
  obtain ⟨more, same⟩ := List.head?_eq_some_iff.mp head
  have ended : (rest.head?.any isIdentChar) = false := by
    rw [Option.any_eq_false]
    intro c next
    rw [ends c next]
  have read : codeFront (text.toList ++ rest) = number (text.toList ++ rest) := by
    rw [same, List.cons_append, codeFront_identChar (isIdentChar_of_digit digit), digit]
    rfl
  rw [read, number, width]
  simp only [List.drop_left, ended, Bool.false_eq_true, ↓reduceIte, List.take_left, String.ofList_toList]

/-- Nothing that follows makes a fraction of the integer. -/
theorem codeFront_int {text : String} {rest : List Char} (legal : IntText text.toList) (ends : EndsWord rest)
    (whole : fractionWidth rest = 0) :
    codeFront (text.toList ++ rest) = .token (.int text) text.toList.length := by
  have noDigit : ∀ c ∈ rest.head?, c.isDigit = false := ends.head fun _ => isIdentChar_of_digit
  have other : ∀ c ∈ rest.head?, c ≠ 'x' ∧ c ≠ 'X' := by
    intro c next
    have outside := ends c next
    refine ⟨?_, ?_⟩ <;> rintro rfl <;> cases outside
  refine codeFront_number false ?_ ?_ ends
  · generalize text.toList = cs at legal
    cases legal with
    | decimal digits =>
      obtain ⟨c, more, rfl, digit⟩ := digits.head
      exact ⟨c, rfl, digit⟩
    | hex _ _ _ => exact ⟨'0', rfl, by decide⟩
  · generalize text.toList = cs at legal
    cases legal with
    | decimal digits =>
      rw [numberWidth_decimal digits other noDigit, whole]
      simp only [List.drop_zero, exponentWidth_none ends]
      rfl
    | hex mark inhabited digits =>
      simp only [numberWidth, List.cons_append, hexWidth?_hex mark inhabited digits ends, List.length_cons]
      rw [Nat.add_comm 2]

/-- No point follows a number that ends with its point. -/
theorem codeFront_float {text : String} {rest : List Char} (legal : FloatText text.toList) (ended : EndsWord rest)
    (single : text.toList.getLast? = some '.' → ∀ c ∈ rest.head?, c ≠ '.') :
    codeFront (text.toList ++ rest) = .token (.float text) text.toList.length := by
  have ends : ∀ c ∈ rest.head?, c.isDigit = false := ended.head fun _ => isIdentChar_of_digit
  have pointed {tail : List Char} : (∀ c ∈ ('.' :: tail).head?, c ≠ 'x' ∧ c ≠ 'X') ∧
      ∀ c ∈ ('.' :: tail).head?, c.isDigit = false := by
    refine ⟨?_, ?_⟩ <;> rintro _ ⟨⟩ <;> decide
  refine codeFront_number true ?_ ?_ ended
  · have start {whole tail : List Char} (digits : Digits whole) :
        ∃ c ∈ (whole ++ tail).head?, c.isDigit = true := by
      obtain ⟨c, more, rfl, digit⟩ := digits.head
      exact ⟨c, rfl, digit⟩
    generalize text.toList = cs at legal
    cases legal with
    | point digits => exact start digits
    | fraction digits _ => exact start digits
    | exponent digits _ => exact start digits
    | both digits _ _ => exact start digits
  · generalize text.toList = cs at legal single
    cases legal with
    | point digits =>
      rw [List.append_assoc, List.singleton_append, numberWidth_decimal digits pointed.1 pointed.2,
        fractionWidth_point ended (single (List.getLast?_append_of_ne_nil _ (by simp)))]
      simp only [List.drop_succ_cons, List.drop_zero, exponentWidth_none ended, List.length_append,
        List.length_singleton]
      rfl
    | @fraction whole cs digits fraction =>
      rw [List.append_assoc, List.cons_append, numberWidth_decimal digits pointed.1 pointed.2,
        fractionWidth_digits fraction ends]
      simp only [Nat.add_comm 1, List.drop_succ_cons, List.drop_left, exponentWidth_none ended, List.length_append,
        List.length_cons]
      simp
    | @exponent whole es digits exponent =>
      have width := exponentWidth_text exponent ended
      obtain ⟨e, more, rfl, mark⟩ := exponent.head
      have next {p : Char → Prop} (lower : p 'e') (upper : p 'E') : ∀ c ∈ ((e :: more) ++ rest).head?, p c := by
        rintro _ ⟨⟩
        rcases mark with rfl | rfl
        · exact lower
        · exact upper
      rw [List.append_assoc, numberWidth_decimal digits (next (by decide) (by decide)) (next rfl rfl),
        fractionWidth_none (next (by decide) (by decide))]
      simp only [List.drop_zero, width, List.length_append, List.length_cons]
      simp
    | @both whole cs es digits fraction exponent =>
      have width := exponentWidth_text exponent ended
      have stops : ∀ c ∈ (es ++ rest).head?, c.isDigit = false := by
        obtain ⟨e, more, rfl, mark⟩ := exponent.head
        rintro _ ⟨⟩
        rcases mark with rfl | rfl <;> rfl
      rw [List.append_assoc, List.cons_append, List.append_assoc, numberWidth_decimal digits pointed.1 pointed.2,
        fractionWidth_digits fraction stops]
      simp only [Nat.add_comm 1, List.drop_succ_cons, List.drop_left, width, List.length_append, List.length_cons]
      simp [Nat.add_assoc, Nat.add_comm 1]

/-- A text is written if each of its characters is: as an escape, or as it is. -/
theorem written_flatMap {escape? : Char → Option Char} {plain : Char → Bool} {write : Char → List Char}
    {text : List Char}
    (each : ∀ c ∈ text, (∃ e, write c = ['\\', e] ∧ escape? e = some c) ∨ (write c = [c] ∧ plain c = true)) :
    Written escape? plain (text.flatMap write) text := by
  induction text with
  | nil => exact .nil
  | cons c text ih =>
    have more := ih fun d member => each d (List.mem_cons_of_mem c member)
    rw [List.flatMap_cons]
    rcases each c List.mem_cons_self with ⟨e, same, known⟩ | ⟨same, allowed⟩
    · rw [same]
      exact .escape known more
    · rw [same]
      exact .plain allowed more

theorem written_string (text : List Char) : Written stringEscape? isStringChar (text.flatMap stringChar) text := by
  refine written_flatMap fun c _ => ?_
  unfold stringChar
  split
  · rename_i same
    exact .inl ⟨_, rfl, by rw [same]; rfl⟩
  · split
    · rename_i same
      exact .inl ⟨_, rfl, by rw [same]; rfl⟩
    · split
      · rename_i same
        exact .inl ⟨_, rfl, by rw [same]; rfl⟩
      · split
        · rename_i same
          exact .inl ⟨_, rfl, by rw [same]; rfl⟩
        · exact .inr ⟨rfl, by simp [isStringChar, *]⟩

theorem written_text (text : List Char) : Written templateEscape? isTemplateChar (text.flatMap textChar) text := by
  refine written_flatMap fun c _ => ?_
  unfold textChar
  split
  · rename_i special
    refine .inl ⟨c, rfl, ?_⟩
    rcases special with rfl | rfl | rfl <;> rfl
  · rename_i plain
    simp only [not_or] at plain
    exact .inr ⟨rfl, by simp [isTemplateChar, plain]⟩

theorem stringRest_written {body text : List Char} (written : Written stringEscape? isStringChar body text)
    (rest : List Char) : stringRest (body ++ '"' :: rest) = .closed text (body.length + 1) := by
  induction written with
  | nil => rfl
  | @plain c body text allowed _ ih =>
    simp only [isStringChar, Bool.and_eq_true, bne_iff_ne, ne_eq] at allowed
    obtain ⟨⟨⟨quote, slash⟩, line⟩, back⟩ := allowed
    rw [List.cons_append, stringRest.eq_4 c _ (fun same _ => slash same) (fun _ _ same _ => slash same), ih]
    simp [quote, line, back, Run.cons, Nat.add_comm 1]
  | @escape e c body text known _ ih =>
    rw [List.cons_append, List.cons_append, stringRest, known]
    simp only [ih, Run.cons, List.length_cons, Nat.add_comm 2]

theorem templateRun_written {body text rest : List Char}
    (written : Written templateEscape? isTemplateChar body text) (ends : EndsText rest) :
    templateRun (body ++ rest) = .closed text body.length := by
  induction written with
  | nil =>
    cases rest with
    | nil => rfl
    | cons c rest => rcases ends c rfl with rfl | rfl <;> rfl
  | @plain c body text allowed _ ih =>
    simp only [isTemplateChar, Bool.and_eq_true, bne_iff_ne, ne_eq] at allowed
    obtain ⟨⟨tick, brace⟩, slash⟩ := allowed
    rw [List.cons_append, templateRun.eq_4 c _ (fun same _ => slash same) (fun _ _ same _ => slash same), ih]
    simp [tick, brace, Run.cons, Nat.add_comm 1]
  | @escape e c body text known _ ih =>
    rw [List.cons_append, List.cons_append, templateRun, known]
    simp only [ih, Run.cons, List.length_cons, Nat.add_comm 2]

theorem codeFront_string (text : String) (rest : List Char) :
    codeFront (spell (.string text) ++ rest) = .token (.string text) (spell (.string text)).length := by
  have read := stringRest_written (written_string text.toList) rest
  rw [spell, List.cons_append, List.append_assoc, List.singleton_append, codeFront, read]
  simp only [String.ofList_toList, List.length_cons, List.length_append, List.length_nil, Nat.add_comm 1]

theorem written_head {body text : List Char} (written : Written templateEscape? isTemplateChar body text)
    (inhabited : text ≠ []) : ∃ c more, body = c :: more ∧ c ≠ '\x60' ∧ c ≠ '\x7b' := by
  cases written with
  | nil => exact absurd rfl inhabited
  | @plain c body _ allowed _ =>
    simp only [isTemplateChar, Bool.and_eq_true, bne_iff_ne, ne_eq] at allowed
    exact ⟨c, body, rfl, allowed.1.1, allowed.1.2⟩
  | @escape e _ body _ _ _ => exact ⟨'\\', e :: body, rfl, by decide, by decide⟩

theorem templateFront_text {text : String} {rest : List Char} (inhabited : text ≠ "") (ends : EndsText rest) :
    templateFront (spell (.templateText text) ++ rest) =
      .token (.templateText text) (spell (.templateText text)).length := by
  have written := written_text text.toList
  have read := templateRun_written written ends
  obtain ⟨c, more, same, noTick, noBrace⟩ := written_head written (by simpa using inhabited)
  rw [spell]
  rw [same] at read ⊢
  rw [List.cons_append] at read ⊢
  rw [templateFront.eq_3 _ (fun _ h => noTick (List.cons.inj h).1) (fun _ h => noBrace (List.cons.inj h).1), read]
  simp only [String.ofList_toList]

def runsInto (s : Symbol) (c : Char) : Bool :=
  Symbol.all.any (fun s' => (s.text.toList ++ [c]).isPrefixOf s'.text.toList) || s == .slash && (c == '/' || c == '*')

theorem Symbol.mem_all (s : Symbol) : s ∈ Symbol.all := by
  cases s <;> decide

theorem symbol?_text (s : Symbol) : symbol? s.text.toList = some s := by
  cases s <;> rfl

/-- A symbol starts like no other token and no trivia. -/
theorem symbol_head (s : Symbol) {c : Char} (first : c ∈ s.text.toList.head?) :
    c ≠ '"' ∧ c ≠ '\x60' ∧ Text.isBlank c = false ∧ c.isDigit = false ∧ isIdentStart c = false := by
  cases s <;> cases first <;> decide

/-- No symbol goes on with what is written between tokens of code. -/
theorem runsInto_gap (s : Symbol) {c : Char} (gap : c = ' ' ∨ c = '\x7d') : runsInto s c = false := by
  rcases gap with rfl | rfl <;> cases s <;> rfl

/-- A symbol that starts what is written is no longer than the one written first, unless that runs on. -/
theorem prefix_of_ends {s s' : Symbol} {rest : List Char} (ends : ∀ c ∈ rest.head?, runsInto s c = false)
    (front : s'.text.toList <+: s.text.toList ++ rest) : s'.text.toList <+: s.text.toList := by
  cases rest with
  | nil => rwa [List.append_nil] at front
  | cons c rest =>
    by_cases short : s'.text.toList.length ≤ s.text.toList.length
    · exact List.prefix_of_prefix_length_le front (List.prefix_append _ _) short
    · have further : s.text.toList ++ [c] <+: s'.text.toList := by
        refine List.prefix_of_prefix_length_le ⟨rest, ?_⟩ front ?_
        · rw [List.append_assoc, List.singleton_append]
        · rw [List.length_append, List.length_singleton]
          omega
      have runs : runsInto s c = true := by
        rw [runsInto, Bool.or_eq_true, List.any_eq_true]
        exact .inl ⟨s', Symbol.mem_all s', List.isPrefixOf_iff_prefix.mpr further⟩
      rw [ends c rfl] at runs
      cases runs

theorem symbol?_of_ends (s : Symbol) {rest : List Char} (ends : ∀ c ∈ rest.head?, runsInto s c = false) :
    symbol? (s.text.toList ++ rest) = some s := by
  have alike (s' : Symbol) : s'.text.toList.isPrefixOf (s.text.toList ++ rest) =
      s'.text.toList.isPrefixOf s.text.toList := by
    rw [Bool.eq_iff_iff, List.isPrefixOf_iff_prefix, List.isPrefixOf_iff_prefix]
    exact ⟨prefix_of_ends ends, fun front => front.trans (List.prefix_append _ _)⟩
  rw [← symbol?_text s, symbol?, symbol?, funext alike, ← symbol?, symbol?_text]

theorem Symbol.no_comment (s : Symbol) {rest : List Char} (ends : ∀ c ∈ rest.head?, runsInto s c = false)
    (slash : s.text.toList.head? = some '/') :
    ∀ d ∈ (s.text.toList.tail ++ rest).head?, d ≠ '/' ∧ d ≠ '*' := by
  have which : s = .slash ∨ s = .slashAssign := by
    revert slash
    cases s <;> decide
  rcases which with rfl | rfl
  · intro d next
    have other := ends d next
    refine ⟨?_, ?_⟩ <;> rintro rfl <;> cases other
  · rintro _ ⟨⟩
    decide

theorem codeFront_symbol (s : Symbol) {rest : List Char} (ends : ∀ c ∈ rest.head?, runsInto s c = false) :
    codeFront (s.text.toList ++ rest) = .token (.symbol s) s.text.toList.length := by
  have found := symbol?_of_ends s ends
  have noComment := Symbol.no_comment s ends
  obtain ⟨c, text, same⟩ := List.exists_cons_of_ne_nil (text_ne_nil s)
  obtain ⟨noQuote, noTick, noBlank, noDigit, noLetter⟩ := symbol_head s (by rw [same]; rfl : c ∈ s.text.toList.head?)
  rw [same] at noComment found ⊢
  rw [List.cons_append] at found ⊢
  have plain : c = '/' → ∀ d ∈ (text ++ rest).head?, d ≠ '/' ∧ d ≠ '*' := fun slash => noComment (by rw [slash]; rfl)
  rw [codeFront_cons noQuote noTick plain, found, noBlank, noDigit, noLetter]
  simp [same]

/-- What may be written behind a token of code so that the token is read no further. -/
def Stops : Token → List Char → Prop
  | .keyword _, rest => EndsWord rest
  | .ident _, rest => EndsWord rest
  | .int _, rest => EndsWord rest ∧ fractionWidth rest = 0
  | .float text, rest => EndsWord rest ∧ (text.toList.getLast? = some '.' → ∀ c ∈ rest.head?, c ≠ '.')
  | .symbol s, rest => ∀ c ∈ rest.head?, runsInto s c = false
  | _, _ => True

theorem Apart.stops {rest : List Char} (apart : Apart rest) (t : Token) : Stops t rest := by
  have noPoint : ∀ c ∈ rest.head?, c ≠ '.' := by
    intro c next
    rcases apart c next with rfl | rfl <;> decide
  cases t with
  | keyword k => exact apart.endsWord
  | ident name => exact apart.endsWord
  | int text => exact ⟨apart.endsWord, fractionWidth_none noPoint⟩
  | float text => exact ⟨apart.endsWord, fun _ => noPoint⟩
  | symbol s => exact fun c next => runsInto_gap s (apart c next)
  | _ => trivial

end ViewLang.Lexer
