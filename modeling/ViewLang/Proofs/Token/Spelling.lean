import Mathlib.Data.List.TakeWhile
import ViewLang.Token.Lexer

namespace ViewLang

@[simp] theorem byteLength_nil : byteLength [] = 0 := rfl

@[simp] theorem byteLength_cons (c : Char) (cs : List Char) : byteLength (c :: cs) = c.utf8Size + byteLength cs := rfl

@[simp] theorem byteLength_append (left right : List Char) :
    byteLength (left ++ right) = byteLength left + byteLength right := by
  induction left with
  | nil => simp
  | cons c cs ih => simp only [List.cons_append, byteLength_cons, ih, Nat.add_assoc]

theorem byteLength_pos {cs : List Char} (inhabited : cs ≠ []) : 0 < byteLength cs := by
  cases cs with
  | nil => exact absurd rfl inhabited
  | cons c cs =>
    have size := c.utf8Size_pos
    rw [byteLength_cons]
    omega

namespace Lexer

inductive Written (escape? : Char → Option Char) (plain : Char → Bool) : List Char → List Char → Prop
  | nil : Written escape? plain [] []
  | plain {c : Char} {body text : List Char} (allowed : plain c = true) (rest : Written escape? plain body text) :
    Written escape? plain (c :: body) (c :: text)
  | escape {e c : Char} {body text : List Char} (known : escape? e = some c)
    (rest : Written escape? plain body text) : Written escape? plain ('\\' :: e :: body) (c :: text)

def isStringChar (c : Char) : Bool := c != '"' && c != '\\' && c != '\n' && c != '\r'

def isTemplateChar (c : Char) : Bool := c != '\x60' && c != '\x7b' && c != '\\'

def Spells : Token → List Char → Prop
  | .keyword k, cs => cs = k.text.toList
  | .ident name, cs => cs = name.toList
  | .int text, cs => cs = text.toList
  | .float text, cs => cs = text.toList
  | .string text, cs => ∃ body, cs = '"' :: (body ++ ['"']) ∧ Written stringEscape? isStringChar body text.toList
  | .templateStart, cs => cs = ['\x60']
  | .templateText text, cs => Written templateEscape? isTemplateChar cs text.toList
  | .interpOpen, cs => cs = ['\x7b']
  | .interpClose, cs => cs = ['\x7d']
  | .templateEnd, cs => cs = ['\x60']
  | .symbol s, cs => cs = s.text.toList

/-- A run of blanks or a comment, in front of `rest`. A comment with two slashes goes up to the end of its line, one
with a star through the first star and slash. -/
inductive Trivia : List Char → List Char → Prop
  | blanks {cs rest : List Char} (inhabited : cs ≠ []) (all : ∀ c ∈ cs, Text.isBlank c = true) : Trivia cs rest
  | line {cs rest : List Char} (inside : ∀ c ∈ cs, c ≠ '\n') (ended : ∀ c ∈ rest.head?, c = '\n') :
    Trivia ('/' :: '/' :: cs) rest
  | block {cs rest : List Char} (first : ¬ ['*', '/'] <:+: cs ++ ['*']) :
    Trivia ('/' :: '*' :: (cs ++ ['*', '/'])) rest

theorem Trivia.ne_nil {cs rest : List Char} (trivia : Trivia cs rest) : cs ≠ [] := by
  cases trivia with
  | blanks inhabited _ => exact inhabited
  | line _ _ => exact List.cons_ne_nil _ _
  | block _ => exact List.cons_ne_nil _ _

theorem cons_closed {c : Char} {n width : Nat} {text : List Char} {run : Run}
    (h : run.cons c n = .closed text width) : ∃ more w, run = .closed more w ∧ text = c :: more ∧ width = n + w := by
  cases run with
  | closed more w =>
    cases h
    exact ⟨more, w, rfl, rfl, rfl⟩
  | unclosed w => cases h
  | badEscape w => cases h

theorem ne_backslash {c : Char} {cs : List Char} (notLast : c = '\\' → cs = [] → False)
    (notEscape : ∀ d ds, c = '\\' → cs = d :: ds → False) : c ≠ '\\' := by
  intro same
  cases cs with
  | nil => exact notLast same rfl
  | cons d ds => exact notEscape d ds same rfl

theorem stringRest_closed {cs text : List Char} {width : Nat} (h : stringRest cs = .closed text width) :
    ∃ body, cs.take width = body ++ ['"'] ∧ Written stringEscape? isStringChar body text := by
  fun_induction stringRest cs generalizing text width with
  | case1 => cases h
  | case2 => cases h
  | case3 e cs c known ih =>
    obtain ⟨more, w, closed, rfl, rfl⟩ := cons_closed h
    obtain ⟨body, taken, written⟩ := ih closed
    exact ⟨'\\' :: e :: body, by simp [Nat.add_comm 2, taken], .escape known written⟩
  | case4 => cases h
  | case5 c cs _ _ quote =>
    cases h
    rw [beq_iff_eq] at quote
    exact ⟨[], by simp [quote], .nil⟩
  | case6 => cases h
  | case7 c cs notLast notEscape notQuote notBreak ih =>
    obtain ⟨more, w, closed, rfl, rfl⟩ := cons_closed h
    obtain ⟨body, taken, written⟩ := ih closed
    refine ⟨c :: body, by simp [Nat.add_comm 1, taken], .plain ?_ written⟩
    have other := ne_backslash notLast notEscape
    simp_all [isStringChar]

theorem templateRun_closed {cs text : List Char} {width : Nat} (h : templateRun cs = .closed text width) :
    Written templateEscape? isTemplateChar (cs.take width) text ∧
      ∀ c ∈ (cs.drop width).head?, c = '\x60' ∨ c = '\x7b' := by
  fun_induction templateRun cs generalizing text width with
  | case1 =>
    cases h
    exact ⟨.nil, by simp⟩
  | case2 => cases h
  | case3 e cs c known ih =>
    obtain ⟨more, w, closed, rfl, rfl⟩ := cons_closed h
    obtain ⟨written, ended⟩ := ih closed
    rw [Nat.add_comm 2]
    exact ⟨.escape known written, ended⟩
  | case4 => cases h
  | case5 c cs _ _ mark =>
    cases h
    exact ⟨.nil, by simpa using mark⟩
  | case6 c cs notLast notEscape notMark ih =>
    obtain ⟨more, w, closed, rfl, rfl⟩ := cons_closed h
    obtain ⟨written, ended⟩ := ih closed
    rw [Nat.add_comm 1]
    refine ⟨.plain ?_ written, ended⟩
    have other := ne_backslash notLast notEscape
    simp_all [isTemplateChar]

theorem commentWidth?_some {cs : List Char} {width : Nat} (h : commentWidth? cs = some width) :
    ∃ body, cs.take width = body ++ ['*', '/'] ∧ ¬ ['*', '/'] <:+: body ++ ['*'] := by
  fun_induction commentWidth? cs generalizing width with
  | case1 => cases h
  | case2 cs =>
    cases h
    exact ⟨[], rfl, by decide⟩
  | case3 c cs notClosed ih =>
    rw [Option.map_eq_some_iff] at h
    obtain ⟨w, found, rfl⟩ := h
    obtain ⟨body, taken, first⟩ := ih found
    refine ⟨c :: body, by simp [taken], ?_⟩
    rw [List.cons_append, List.infix_cons_iff]
    rintro (front | inside)
    · rw [List.cons_prefix_cons] at front
      obtain ⟨rfl, front⟩ := front
      cases body with
      | nil => simp at front
      | cons d body =>
        rw [List.cons_append, List.cons_prefix_cons] at front
        cases cs with
        | nil => simp at taken
        | cons e cs =>
          cases w with
          | zero => simp at taken
          | succ w =>
            rw [List.take_succ_cons, List.cons_append, List.cons.injEq] at taken
            exact notClosed cs rfl (by rw [taken.1, ← front.1])
    · exact first inside

theorem take_takeWhile_length (p : Char → Bool) (cs : List Char) :
    cs.take (cs.takeWhile p).length = cs.takeWhile p :=
  List.prefix_iff_eq_take.mp (List.takeWhile_prefix p) |>.symm

theorem drop_takeWhile_length (p : Char → Bool) (cs : List Char) :
    cs.drop (cs.takeWhile p).length = cs.dropWhile p := by
  have whole := List.takeWhile_append_dropWhile (p := p) (l := cs)
  calc cs.drop (cs.takeWhile p).length
      = (cs.takeWhile p ++ cs.dropWhile p).drop (cs.takeWhile p).length := by rw [whole]
    _ = cs.dropWhile p := List.drop_left

theorem takeWhile_length_pos {p : Char → Bool} {c : Char} (holds : p c = true) (cs : List Char) :
    0 < ((c :: cs).takeWhile p).length := by
  rw [List.takeWhile_cons_of_pos holds]
  exact Nat.succ_pos _

def Front.Fits (cs : List Char) : Front → Prop
  | .token t width => 0 < width ∧ Spells t (cs.take width)
  | .trivia width => Trivia (cs.take width) (cs.drop width)
  | .fault _ => True

theorem word_fits {c : Char} (start : isIdentStart c = true) (cs : List Char) : (word (c :: cs)).Fits (c :: cs) := by
  have inside : isIdentChar c = true := by
    simp only [isIdentStart, isIdentChar, Char.isAlphanum, Bool.or_eq_true] at start ⊢
    rcases start with letter | line
    · exact .inl (.inl letter)
    · exact .inr line
  have length := takeWhile_length_pos inside cs
  have taken := take_takeWhile_length isIdentChar (c :: cs)
  simp only [word]
  split
  · rename_i k found
    have same := List.find?_some found
    rw [beq_iff_eq] at same
    exact ⟨length, by rw [taken, Spells, same, String.toList_ofList]⟩
  · exact ⟨length, by rw [taken, Spells, String.toList_ofList]⟩

theorem numberWidth_pos {c : Char} (digit : c.isDigit = true) (cs : List Char) : 0 < (numberWidth (c :: cs)).1 := by
  unfold numberWidth
  split
  · rename_i w found
    unfold hexWidth? at found
    split at found
    · dsimp only at found
      split at found
      · cases found
        omega
      · cases found
    · cases found
  · have length := takeWhile_length_pos digit cs
    dsimp only
    omega

theorem number_fits {c : Char} (digit : c.isDigit = true) (cs : List Char) : (number (c :: cs)).Fits (c :: cs) := by
  have positive := numberWidth_pos digit cs
  simp only [number]
  split
  · exact True.intro
  · cases (numberWidth (c :: cs)).2 <;> exact ⟨positive, String.toList_ofList.symm⟩

theorem text_ne_nil (s : Symbol) : s.text.toList ≠ [] := by
  cases s <;> decide

theorem symbol?_fits {cs : List Char} {s : Symbol} (h : symbol? cs = some s) :
    0 < s.text.toList.length ∧ Spells (.symbol s) (cs.take s.text.toList.length) := by
  have front := List.find?_some h
  rw [List.isPrefixOf_iff_prefix] at front
  exact ⟨List.length_pos_iff.mpr (text_ne_nil s), (List.prefix_iff_eq_take.mp front).symm⟩

theorem lineComment_fits (cs : List Char) :
    Front.Fits ('/' :: '/' :: cs) (.trivia (2 + (cs.takeWhile (· != '\n')).length)) := by
  rw [Front.Fits, Nat.add_comm 2, List.take_succ_cons, List.take_succ_cons, List.drop_succ_cons,
    List.drop_succ_cons, take_takeWhile_length, drop_takeWhile_length]
  refine .line ?_ ?_
  · intro c inside
    simpa using List.mem_takeWhile_imp inside
  · intro c head
    have stops := List.head?_dropWhile_not (· != '\n') cs
    rw [Option.mem_def.mp head] at stops
    simpa using stops

theorem codeFront_fits (cs : List Char) : (codeFront cs).Fits cs := by
  unfold codeFront
  split
  · exact lineComment_fits _
  · rename_i cs
    split
    · rename_i w found
      obtain ⟨body, taken, first⟩ := commentWidth?_some found
      rw [Front.Fits, Nat.add_comm 2, List.take_succ_cons, List.take_succ_cons, taken]
      exact .block first
    · exact True.intro
  · rename_i cs
    split
    · rename_i text w closed
      obtain ⟨body, taken, written⟩ := stringRest_closed closed
      refine ⟨by omega, body, ?_, ?_⟩
      · rw [Nat.add_comm 1, List.take_succ_cons, taken]
      · rwa [String.toList_ofList]
    · exact True.intro
    · exact True.intro
  · exact ⟨Nat.one_pos, rfl⟩
  · split
    · exact True.intro
    · rename_i c head
      obtain ⟨cs, rfl⟩ := List.head?_eq_some_iff.mp head
      split
      · rename_i blank
        rw [Front.Fits, take_takeWhile_length]
        refine .blanks ?_ ?_
        · exact List.length_pos_iff.mp (takeWhile_length_pos blank cs)
        · intro d inside
          exact List.mem_takeWhile_imp inside
      · split
        · exact number_fits ‹_› cs
        · split
          · exact word_fits ‹_› cs
          · split
            · exact symbol?_fits ‹_›
            · exact True.intro

inductive StartsToken : List Char → Token → Nat → Prop
  | string {cs text : List Char} {w : Nat} (closed : stringRest cs = .closed text w) :
    StartsToken ('"' :: cs) (.string (String.ofList text)) (1 + w)
  | template (cs : List Char) : StartsToken ('\x60' :: cs) .templateStart 1
  | number {c : Char} {cs : List Char} {t : Token} {w : Nat} (digit : c.isDigit = true)
    (read : Lexer.number (c :: cs) = .token t w) : StartsToken (c :: cs) t w
  | word {c : Char} {cs : List Char} {t : Token} {w : Nat} (start : isIdentStart c = true)
    (read : Lexer.word (c :: cs) = .token t w) : StartsToken (c :: cs) t w
  | symbol {cs : List Char} {s : Symbol} (noLine : ∀ more, cs ≠ '/' :: '/' :: more)
    (noBlock : ∀ more, cs ≠ '/' :: '*' :: more) (found : symbol? cs = some s) :
    StartsToken cs (.symbol s) s.text.toList.length

theorem codeFront_startsToken {cs : List Char} {t : Token} {w : Nat} (read : codeFront cs = .token t w) :
    StartsToken cs t w := by
  unfold codeFront at read
  split at read
  · cases read
  · split at read <;> cases read
  · split at read <;> cases read
    exact .string ‹_›
  · cases read
    exact .template _
  · rename_i noLine noBlock noQuote noTick
    split at read
    · cases read
    · rename_i c head
      obtain ⟨cs, rfl⟩ := List.head?_eq_some_iff.mp head
      split at read
      · cases read
      · split at read
        · exact .number ‹_› read
        · split at read
          · exact .word ‹_› read
          · split at read <;> cases read
            exact .symbol noLine noBlock ‹_›

def EndsText (rest : List Char) : Prop := ∀ c ∈ rest.head?, c = '\x60' ∨ c = '\x7b'

theorem Written.ne_nil {escape? : Char → Option Char} {plain : Char → Bool} {body text : List Char}
    (written : Written escape? plain body text) (inhabited : body ≠ []) : text ≠ [] := by
  cases written with
  | nil => exact absurd rfl inhabited
  | plain _ _ => exact List.cons_ne_nil _ _
  | escape _ _ => exact List.cons_ne_nil _ _

structure TextFront (cs : List Char) (text : String) (width : Nat) : Prop where
  positive : 0 < width
  spelled : Spells (.templateText text) (cs.take width)
  inhabited : text ≠ ""
  started : ¬ EndsText cs
  ended : EndsText (cs.drop width)

theorem textFront_of_run {cs run : List Char} {width : Nat} (started : ¬ EndsText cs)
    (closed : templateRun cs = .closed run width) : TextFront cs (String.ofList run) width := by
  obtain ⟨written, ended⟩ := templateRun_closed closed
  have positive : 0 < width := by
    rcases Nat.eq_zero_or_pos width with rfl | positive
    · exact absurd ended started
    · exact positive
  have inhabited : cs ≠ [] := by
    rintro rfl
    exact started (by simp [EndsText])
  have taken : cs.take width ≠ [] := by simp [inhabited, Nat.ne_of_gt positive]
  refine ⟨positive, ?_, ?_, started, ended⟩
  · rwa [Spells, String.toList_ofList]
  · intro empty
    apply written.ne_nil taken
    have same := congrArg String.toList empty
    rwa [String.toList_ofList] at same

/-- A template holds no trivia: its end, the start of an interpolation or text stands in it. -/
theorem templateFront_cases {cs : List Char} (inhabited : cs ≠ []) :
    (templateFront cs = .token .templateEnd 1 ∧ cs.take 1 = ['\x60']) ∨
    (templateFront cs = .token .interpOpen 1 ∧ cs.take 1 = ['\x7b']) ∨
    (∃ text width, templateFront cs = .token (.templateText text) width ∧ TextFront cs text width) ∨
    ∃ f, templateFront cs = .fault f := by
  unfold templateFront
  split
  · exact .inl ⟨rfl, rfl⟩
  · exact .inr (.inl ⟨rfl, rfl⟩)
  · rename_i noTick noBrace
    have started : ¬ EndsText cs := by
      obtain ⟨c, cs, rfl⟩ := List.exists_cons_of_ne_nil inhabited
      intro ends
      rcases ends c rfl with rfl | rfl
      · exact noTick cs rfl
      · exact noBrace cs rfl
    split
    · exact .inr (.inr (.inl ⟨_, _, rfl, textFront_of_run started ‹_›⟩))
    · exact .inr (.inr (.inr ⟨_, rfl⟩))
    · exact .inr (.inr (.inr ⟨_, rfl⟩))

theorem front_fits (modes : List Mode) {cs : List Char} (inhabited : cs ≠ []) : (front modes cs).Fits cs := by
  unfold front
  split
  · rcases templateFront_cases inhabited with ⟨found, taken⟩ | ⟨found, taken⟩ | ⟨text, width, found, facts⟩ | ⟨f, found⟩
    · rw [found]
      exact ⟨Nat.one_pos, taken⟩
    · rw [found]
      exact ⟨Nat.one_pos, taken⟩
    · rw [found]
      exact ⟨facts.positive, facts.spelled⟩
    · rw [found]
      exact True.intro
  · exact codeFront_fits cs

end Lexer
end ViewLang
