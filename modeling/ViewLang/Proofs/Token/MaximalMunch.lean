import ViewLang.Proofs.Token.Writing

namespace ViewLang.Lexer

structure LongestSymbol (s : Symbol) (cs : List Char) : Prop where
  stands : s.text.toList <+: cs
  longest : ∀ s' : Symbol, s'.text.toList <+: cs → s'.text.toList.length ≤ s.text.toList.length
  no_comment : ¬ ['/', '/'] <+: cs ∧ ¬ ['/', '*'] <+: cs

structure WholeWord (piece rest : List Char) : Prop where
  start : ∃ c ∈ piece.head?, isIdentStart c = true
  inside : ∀ c ∈ piece, isIdentChar c = true
  ends : EndsWord rest

def TakesPoint (cs : List Char) : Prop :=
  ∃ more, cs = '.' :: more ∧ ∀ c ∈ more.head?, c.isDigit = true ∨ isIdentChar c = false ∧ c ≠ '.'

def FractionText (cs : List Char) : Prop := cs = [] ∨ ∃ ds, cs = '.' :: ds ∧ ∀ c ∈ ds, c.isDigit = true

/-- A number in front of `rest`: a hexadecimal one, or digits with a fraction and an exponent or without. It has a
fraction exactly if the point behind its first digits belongs to it. -/
inductive Numeral : Bool → List Char → List Char → Prop
  | hex {x : Char} {ds rest : List Char} (mark : x = 'x' ∨ x = 'X') (inhabited : ds ≠ [])
    (digits : ∀ c ∈ ds, Text.isHexDigit c = true) : Numeral false ('0' :: x :: ds) rest
  | decimal {isFloat : Bool} {whole fs es rest : List Char} (digits : Digits whole) (fraction : FractionText fs)
    (exponent : es = [] ∨ ExponentText es) (point : fs ≠ [] ↔ TakesPoint (fs ++ (es ++ rest)))
    (float : isFloat = true ↔ fs ≠ [] ∨ es ≠ []) : Numeral isFloat (whole ++ (fs ++ es)) rest

/-- The piece of the text in front of `rest` is all that a token of code can take. -/
def Munched : Token → List Char → List Char → Prop
  | .keyword k, piece, rest => WholeWord piece rest ∧ piece = k.text.toList
  | .ident _, piece, rest => WholeWord piece rest ∧ ∀ k : Keyword, piece ≠ k.text.toList
  | .int _, piece, rest => Numeral false piece rest ∧ EndsWord rest
  | .float _, piece, rest => Numeral true piece rest ∧ EndsWord rest
  | .symbol s, piece, rest => LongestSymbol s (piece ++ rest)
  | .interpClose, piece, rest => LongestSymbol .rightBrace (piece ++ rest)
  | _, _, _ => True

theorem Symbol.longest_first : Symbol.all.Pairwise fun s s' => s'.text.toList.length ≤ s.text.toList.length := by
  decide

/-- The first symbol of the table that stands here is the longest one. -/
theorem symbol?_longest {cs : List Char} {s : Symbol} (found : symbol? cs = some s) :
    s.text.toList <+: cs ∧ ∀ s' : Symbol, s'.text.toList <+: cs → s'.text.toList.length ≤ s.text.toList.length := by
  obtain ⟨stands, longer, shorter, table, passed⟩ := List.find?_eq_some_iff_append.mp found
  refine ⟨List.isPrefixOf_iff_prefix.mp stands, ?_⟩
  intro s' stands'
  have member := Symbol.mem_all s'
  have order := Symbol.longest_first
  rw [table] at member order
  rcases List.mem_append.mp member with before | behind
  · have other := passed s' before
    rw [List.isPrefixOf_iff_prefix.mpr stands'] at other
    cases other
  · rcases List.mem_cons.mp behind with rfl | behind
    · exact Nat.le_refl _
    · exact List.rel_of_pairwise_cons (List.pairwise_append.mp order).2.1 behind

theorem takeWhile_split (p : Char → Bool) (cs : List Char) :
    ∃ more, cs = cs.takeWhile p ++ more ∧ ∀ c ∈ more.head?, p c = false := by
  refine ⟨cs.dropWhile p, List.takeWhile_append_dropWhile.symm, ?_⟩
  intro c first
  have stops := List.head?_dropWhile_not p cs
  rw [Option.mem_def.mp first] at stops
  simpa using stops

theorem digits_takeWhile {cs : List Char} (some_digit : (cs.takeWhile Char.isDigit).length ≠ 0) :
    Digits (cs.takeWhile Char.isDigit) :=
  ⟨fun none => some_digit (by rw [none]; rfl), fun _ member => List.mem_takeWhile_imp member⟩

/-- Behind the digits stands no fraction, or a point with the digits that follow it. -/
theorem fractionWidth_split (cs : List Char) : ∃ fs behind, cs = fs ++ behind ∧ fractionWidth cs = fs.length ∧
    FractionText fs ∧ (fs ≠ [] ↔ TakesPoint cs) := by
  have nothing {cs : List Char} (selects : ¬ TakesPoint cs) : ∃ fs behind, cs = fs ++ behind ∧ 0 = fs.length ∧
      FractionText fs ∧ (fs ≠ [] ↔ TakesPoint cs) :=
    ⟨[], cs, rfl, rfl, .inl rfl, iff_of_false (· rfl) selects⟩
  unfold fractionWidth
  split
  · rename_i cs
    obtain ⟨behind, whole, -⟩ := takeWhile_split Char.isDigit cs
    have text : FractionText ('.' :: cs.takeWhile Char.isDigit) :=
      .inr ⟨_, rfl, fun _ member => List.mem_takeWhile_imp member⟩
    dsimp only
    split
    · rename_i some_digit
      obtain ⟨d, ds, first, digit⟩ := (digits_takeWhile (by simpa using some_digit)).head
      have takes : TakesPoint ('.' :: cs) := by
        refine ⟨cs, rfl, ?_⟩
        rw [whole, first]
        rintro _ ⟨⟩
        exact .inl digit
      refine ⟨_, behind, by rw [List.cons_append, ← whole], ?_, text, iff_of_true (List.cons_ne_nil _ _) takes⟩
      rw [List.length_cons, Nat.add_comm]
    · rename_i no_digit
      split
      · rename_i c cs
        split
        · rename_i name_or_point
          refine nothing ?_
          rintro ⟨_, ⟨⟩, takes⟩
          rcases takes c rfl with digit | ⟨noName, noPoint⟩
          · simp [digit] at no_digit
          · simp [noName, noPoint] at name_or_point
        · rename_i other
          simp only [Bool.or_eq_true, not_or, Bool.not_eq_true, beq_eq_false_iff_ne] at other
          have takes : TakesPoint ('.' :: c :: cs) := by
            refine ⟨_, rfl, ?_⟩
            rintro _ ⟨⟩
            exact .inr other
          exact ⟨['.'], c :: cs, rfl, rfl, .inr ⟨[], rfl, nofun⟩, iff_of_true (List.cons_ne_nil _ _) takes⟩
      · exact ⟨['.'], [], rfl, rfl, .inr ⟨[], rfl, nofun⟩, iff_of_true (List.cons_ne_nil _ _) ⟨[], rfl, nofun⟩⟩
  · rename_i noPoint
    refine nothing ?_
    rintro ⟨more, same, -⟩
    exact noPoint more same

/-- Behind the fraction stands no exponent, or a whole one. -/
theorem exponentWidth_split (cs : List Char) : ∃ es behind, cs = es ++ behind ∧ exponentWidth cs = es.length ∧
    (es = [] ∨ ExponentText es) := by
  have nothing {cs : List Char} (zero : exponentWidth cs = 0) : ∃ es behind, cs = es ++ behind ∧
      exponentWidth cs = es.length ∧ (es = [] ∨ ExponentText es) :=
    ⟨[], cs, rfl, zero, .inl rfl⟩
  rcases cs with _ | ⟨e, _ | ⟨c, cs⟩⟩
  · exact nothing rfl
  · exact nothing (by simp [exponentWidth])
  · by_cases mark : e = 'e' ∨ e = 'E'
    · have marked : (e == 'e' || e == 'E') = true := by simpa using mark
      by_cases signed : c = '+' ∨ c = '-'
      · have isSign : (c == '+' || c == '-') = true := by simpa using signed
        obtain ⟨behind, whole, -⟩ := takeWhile_split Char.isDigit cs
        by_cases no_digit : (cs.takeWhile Char.isDigit).length = 0
        · exact nothing (by simp [exponentWidth, isSign, no_digit])
        · refine ⟨_, behind, ?_, ?_, .inr (.signed mark signed (digits_takeWhile no_digit))⟩
          · rw [List.cons_append, List.cons_append, ← whole]
          · simp [exponentWidth, marked, isSign, no_digit]
            omega
      · have noSign : (c == '+' || c == '-') = false := by simpa using signed
        obtain ⟨behind, whole, -⟩ := takeWhile_split Char.isDigit (c :: cs)
        by_cases no_digit : ((c :: cs).takeWhile Char.isDigit).length = 0
        · exact nothing (by simp [exponentWidth, noSign, no_digit])
        · refine ⟨_, behind, ?_, ?_, .inr (.plain mark (digits_takeWhile no_digit))⟩
          · rw [List.cons_append, ← whole]
          · simp [exponentWidth, marked, noSign, no_digit, Nat.add_comm]
    · exact nothing (by simp [exponentWidth, mark])

theorem hexWidth?_some {cs : List Char} {w : Nat} (found : hexWidth? cs = some w) (rest : List Char) :
    ∃ text behind, cs = text ++ behind ∧ w = text.length ∧ Numeral false text rest := by
  unfold hexWidth? at found
  split at found
  · rename_i x cs
    dsimp only at found
    split at found
    · rename_i marked
      simp only [Bool.and_eq_true, Bool.or_eq_true, beq_iff_eq, bne_iff_ne, ne_eq] at marked
      cases found
      obtain ⟨behind, whole, -⟩ := takeWhile_split Text.isHexDigit cs
      refine ⟨'0' :: x :: cs.takeWhile Text.isHexDigit, behind, ?_, ?_, .hex marked.1 ?_ ?_⟩
      · rw [List.cons_append, List.cons_append, ← whole]
      · rw [Nat.add_comm]
        rfl
      · exact fun none => marked.2 (by rw [none]; rfl)
      · exact fun c member => List.mem_takeWhile_imp member
    · cases found
  · cases found

theorem numberWidth_split {c : Char} (digit : c.isDigit = true) (cs : List Char) :
    ∃ isFloat piece rest, c :: cs = piece ++ rest ∧ numberWidth (c :: cs) = (piece.length, isFloat) ∧
      Numeral isFloat piece rest := by
  generalize whole : c :: cs = source
  have some_digit : (source.takeWhile Char.isDigit).length ≠ 0 := by
    rw [← whole]
    exact Nat.ne_of_gt (takeWhile_length_pos digit cs)
  unfold numberWidth
  split
  · rename_i w found
    obtain ⟨text, rest, rfl, rfl, numeral⟩ := hexWidth?_some found (source.drop w)
    rw [List.drop_left] at numeral
    exact ⟨false, text, rest, rfl, rfl, numeral⟩
  · have digits := digits_takeWhile some_digit
    obtain ⟨tail, split, -⟩ := takeWhile_split Char.isDigit source
    generalize source.takeWhile Char.isDigit = front at digits split
    subst split
    obtain ⟨fs, behind, rfl, width, fraction, point⟩ := fractionWidth_split tail
    obtain ⟨es, rest, rfl, width', exponent⟩ := exponentWidth_split behind
    simp only [← List.drop_drop, List.drop_left, width, width']
    refine ⟨fs.length != 0 || es.length != 0, front ++ (fs ++ es), rest, by simp only [List.append_assoc], ?_,
      .decimal digits fraction exponent point (by simp)⟩
    rw [List.length_append, List.length_append, Nat.add_assoc]

theorem number_munched {c : Char} (digit : c.isDigit = true) {cs : List Char} {t : Token} {w : Nat}
    (read : number (c :: cs) = .token t w) : Munched t ((c :: cs).take w) ((c :: cs).drop w) := by
  obtain ⟨isFloat, piece, rest, whole, width, numeral⟩ := numberWidth_split digit cs
  rw [whole] at width read ⊢
  simp only [number, width, List.drop_left, List.take_left] at read
  split at read
  · cases read
  · rename_i ended
    cases read
    rw [List.take_left, List.drop_left]
    have ends : EndsWord rest := by
      intro c next
      simpa [Option.mem_def.mp next] using ended
    cases isFloat <;> exact ⟨numeral, ends⟩

theorem word_munched {c : Char} (start : isIdentStart c = true) {cs : List Char} {t : Token} {w : Nat}
    (read : word (c :: cs) = .token t w) : Munched t ((c :: cs).take w) ((c :: cs).drop w) := by
  have inside := isIdentChar_of_start start
  obtain ⟨rest, whole, ends⟩ := takeWhile_split isIdentChar (c :: cs)
  have wholeWord : WholeWord ((c :: cs).takeWhile isIdentChar) rest := by
    refine ⟨⟨c, ?_, start⟩, fun _ member => List.mem_takeWhile_imp member, ends⟩
    rw [List.takeWhile_cons_of_pos inside]
    rfl
  unfold word at read
  dsimp only at read
  generalize (c :: cs).takeWhile isIdentChar = piece at read whole wholeWord
  rw [whole]
  split at read
  · rename_i k found
    cases read
    rw [List.take_left, List.drop_left]
    have spelled : k.text = String.ofList piece := by simpa using List.find?_some found
    exact ⟨wholeWord, by rw [spelled, String.toList_ofList]⟩
  · rename_i none
    cases read
    rw [List.take_left, List.drop_left]
    refine ⟨wholeWord, fun k same => ?_⟩
    rw [Keyword.ofText?, List.find?_eq_none] at none
    exact none k (by cases k <;> decide) (by simp [same])

theorem codeFront_munched {cs : List Char} {t : Token} {w : Nat} (read : codeFront cs = .token t w) :
    Munched t (cs.take w) (cs.drop w) := by
  cases codeFront_startsToken read with
  | string closed => exact True.intro
  | template cs => exact True.intro
  | number digit read => exact number_munched digit read
  | word start read => exact word_munched start read
  | symbol noLine noBlock found =>
    obtain ⟨stands, longest⟩ := symbol?_longest found
    rw [Munched, List.take_append_drop]
    refine ⟨stands, longest, ?_, ?_⟩
    · rintro ⟨more, same⟩
      exact noLine more same.symm
    · rintro ⟨more, same⟩
      exact noBlock more same.symm

theorem templateFront_munched {cs : List Char} {t : Token} {w : Nat} (read : templateFront cs = .token t w)
    (piece rest : List Char) : Munched t piece rest := by
  unfold templateFront at read
  split at read
  · cases read
    trivial
  · cases read
    trivial
  · split at read <;> cases read
    trivial

/-- The brace that closes an interpolation is read as a symbol. -/
theorem transition_munched {start : Nat} {n : Nesting} {t : Token} {piece rest : List Char}
    (munched : Munched t piece rest) : Munched (transition start n t).1 piece rest := by
  unfold transition
  split <;> exact munched

theorem step_munched {s s' : State} {t : Located Token} (inhabited : s.rest ≠ [])
    (stepped : step s = .ok (some t, s')) : ∃ width, 0 < width ∧
      s'.pos = s.pos + byteLength (s.rest.take width) ∧ s'.rest = s.rest.drop width ∧ t.span = ⟨s.pos, s'.pos⟩ ∧
      Spells t.value (s.rest.take width) ∧ Munched t.value (s.rest.take width) (s.rest.drop width) := by
  obtain ⟨width, positive, pos, rest, ⟨impossible, -⟩ | ⟨u, found, -, read, spelled⟩⟩ := step_cases inhabited stepped
  · cases impossible
  · cases found
    refine ⟨width, positive, pos, rest, rfl, transition_spells spelled, transition_munched ?_⟩
    unfold front at read
    split at read
    · exact templateFront_munched read _ _
    · exact codeFront_munched read

theorem Reaches.munched {source : String} {s : State} {ts : List (Located Token)}
    (reaches : Reaches (State.start source) ts s) : ∀ t ∈ ts, ∃ piece rest,
      StandsAt source.toList t.span piece rest ∧ Spells t.value piece ∧ Munched t.value piece rest := by
  intro t member
  obtain ⟨before, after, rfl⟩ := List.append_of_mem member
  obtain ⟨p, q, first, inhabited, stepped, -⟩ := reaches.split
  obtain ⟨width, positive, pos, rest, span, spelled, munched⟩ := step_munched inhabited stepped
  obtain ⟨-, stands, -⟩ := first.tiled.stands inhabited positive pos rest
  rw [rest] at stands
  exact ⟨_, _, span ▸ stands, spelled, munched⟩

/-- Every token stands in the text where its span says, and every token of code takes as much of the text as it can:
an operator or a mark of punctuation is the longest one that stands there and starts no comment, a word goes up to the
first character that belongs to no word and is a keyword exactly if it is spelled like one, and a number is followed
by no character of a word. A number is a float exactly if it has a fraction or an exponent, and has a fraction exactly
if the point behind its digits is followed by a digit, or by neither a name nor a point. -/
theorem tokens_maximal {source : String} {ts : List (Located Token)} (accepted : tokenize source = .ok ts) :
    ∀ t ∈ ts, ∃ piece rest, StandsAt source.toList t.span piece rest ∧ Spells t.value piece ∧
      Munched t.value piece rest := by
  obtain ⟨s, reaches, -, -⟩ := run_ok accepted
  exact reaches.munched

/-- A name that starts like a keyword, symbols that start like each other, points of three kinds, and a keyword. -/
def mixed : String := "formats<-1.x...2.5e3 0x1F \x60\x7bif\x7d\x60"

def mixedTokens : List (Located Token) :=
  [⟨.ident "formats", ⟨0, 7⟩⟩, ⟨.symbol .arrow, ⟨7, 9⟩⟩, ⟨.int "1", ⟨9, 10⟩⟩, ⟨.symbol .dot, ⟨10, 11⟩⟩,
    ⟨.ident "x", ⟨11, 12⟩⟩, ⟨.symbol .ellipsis, ⟨12, 15⟩⟩, ⟨.float "2.5e3", ⟨15, 20⟩⟩, ⟨.int "0x1F", ⟨21, 25⟩⟩,
    ⟨.templateStart, ⟨26, 27⟩⟩, ⟨.interpOpen, ⟨27, 28⟩⟩, ⟨.keyword .if_, ⟨28, 30⟩⟩, ⟨.interpClose, ⟨30, 31⟩⟩,
    ⟨.templateEnd, ⟨31, 32⟩⟩]

theorem tokens_maximal_mixed :
    tokenize mixed = .ok mixedTokens ∧ ∀ t ∈ mixedTokens, ∃ piece rest,
      StandsAt mixed.toList t.span piece rest ∧ Spells t.value piece ∧ Munched t.value piece rest := by
  have accepted : tokenize mixed = .ok mixedTokens := by decide +kernel
  exact ⟨accepted, tokens_maximal accepted⟩

end ViewLang.Lexer
