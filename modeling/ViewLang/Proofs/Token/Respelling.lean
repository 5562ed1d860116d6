import ViewLang.Proofs.Token.Writing

namespace ViewLang.Lexer

/-- Tokens with templates and interpolations properly nested, braces in interpolations balanced, and texts neither
empty nor side by side. -/
def WellBracketed (values : List Token) : Prop :=
  ∃ ts opens closes, CodeTokens TextTokens false opens closes ts ∧ ts.map (·.value) = values

def textAfter? (outer : List Mode) : Token → Option (List Mode)
  | .templateText _ => some (.template :: outer)
  | .interpOpen => some (.interp 0 :: .template :: outer)
  | .templateEnd => some outer
  | _ => none

def codeAfter? (modes : List Mode) : Token → Option (List Mode)
  | .templateStart => some (.template :: modes)
  | .symbol .leftBrace => match modes with
    | .interp d :: outer => some (.interp (d + 1) :: outer)
    | _ => some modes
  | .symbol .rightBrace => match modes with
    | .interp (d + 1) :: outer => some (.interp d :: outer)
    | .interp 0 :: _ => none
    | _ => some modes
  | .interpClose => match modes with
    | .interp 0 :: outer => some outer
    | _ => none
  | .templateText _ => none
  | .interpOpen => none
  | .templateEnd => none
  | _ => some modes

def after? : List Mode → Token → Option (List Mode)
  | .template :: outer, t => textAfter? outer t
  | modes, t => codeAfter? modes t

theorem after?_inCode {modes : List Mode} (inCode : modes.head? ≠ some .template) (t : Token) :
    after? modes t = codeAfter? modes t := by
  unfold after?
  split
  · exact absurd rfl inCode
  · rfl

def walk : List Mode → List Token → Option (List Mode)
  | modes, [] => some modes
  | modes, t :: ts => (after? modes t).bind (walk · ts)

theorem walk_append (modes : List Mode) (ts us : List Token) :
    walk modes (ts ++ us) = (walk modes ts).bind (walk · us) := by
  induction ts generalizing modes with
  | nil => rfl
  | cons t ts ih =>
    simp only [List.cons_append, walk]
    cases after? modes t with
    | none => rfl
    | some modes' => exact ih modes'

theorem walk_concat {modes modes' : List Mode} {ts : List Token} {t : Token} (before : walk modes ts = some modes') :
    walk modes (ts ++ [t]) = after? modes' t := by
  rw [walk_append, before]
  change (after? modes' t).bind (walk · []) = _
  cases after? modes' t <;> rfl

def codeModes (inside : Bool) (depth : Nat) (outer : List Mode) : List Mode :=
  if inside = true then .interp depth :: outer else []

theorem codeModes_inCode (inside : Bool) (depth : Nat) (outer : List Mode) :
    (codeModes inside depth outer).head? ≠ some .template := by
  cases inside <;> simp [codeModes]

theorem codeAfter?_plain (modes : List Mode) {t : Token} (plain : isPlain t = true) :
    codeAfter? modes t = some modes := by
  cases t with
  | symbol s => cases s <;> first | rfl | cases plain
  | _ => first | rfl | cases plain

structure Spaced (ts : List Token) : Prop where
  inhabited : ∀ t ∈ ts, t ≠ .templateText ""
  apart : ts.IsChain fun t u => ¬ (isText t = true ∧ isText u = true)

theorem Spaced.append {ts us : List Token} (first : Spaced ts) (second : Spaced us)
    (apart : ∀ t ∈ ts.getLast?, ∀ u ∈ us.head?, ¬ (isText t = true ∧ isText u = true)) : Spaced (ts ++ us) := by
  refine ⟨?_, first.apart.append second.apart apart⟩
  intro t member
  rcases List.mem_append.mp member with left | right
  · exact first.inhabited t left
  · exact second.inhabited t right

theorem spaced_single {t : Token} (inhabited : t ≠ .templateText "") : Spaced [t] :=
  ⟨by simpa using inhabited, .singleton t⟩

theorem Spaced.concat {ts : List Token} {t : Token} (spaced : Spaced ts) (other : isText t = false) :
    Spaced (ts ++ [t]) := by
  refine spaced.append (spaced_single ?_) ?_
  · rintro rfl
    cases other
  · rintro u - _ ⟨⟩ ⟨-, text⟩
    rw [other] at text
    cases text

theorem Spaced.enclosed {ts body : List Token} {first last : Token} (before : Spaced ts) (inner : Spaced body)
    (start : isText first = false) (stop : isText last = false) : Spaced (ts ++ first :: (body ++ [last])) := by
  have opened : Spaced (first :: body) := by
    refine (spaced_single ?_).append inner ?_
    · rintro rfl
      cases start
    · intro t last u _ both
      rw [List.getLast?_singleton, Option.mem_some] at last
      rw [← last, start] at both
      cases both.1
  rw [← List.cons_append]
  refine before.append (opened.concat stop) ?_
  rintro t - _ ⟨⟩ ⟨-, text⟩
  rw [start] at text
  cases text

theorem isPlain.not_text {t : Token} (plain : isPlain t = true) : isText t = false := by
  cases t <;> first | rfl | cases plain

structure TextWalks (body : List Token) : Prop where
  walk : ∀ outer, walk (.template :: outer) body = some (.template :: outer)
  spaced : Spaced body

theorem walk_template {modes : List Mode} (inCode : modes.head? ≠ some .template) {body : List Token}
    (walks : TextWalks body) : walk modes (.templateStart :: (body ++ [.templateEnd])) = some modes := by
  have opened : after? modes .templateStart = some (.template :: modes) := after?_inCode inCode _
  rw [walk, opened, Option.bind_some]
  exact walk_concat (walks.walk modes)

/-- Code walks to where its braces leave it, if the templates in it do. -/
theorem code_walks {Body : List (Located Token) → Prop} {inside : Bool} {opens closes : Nat}
    {ts : List (Located Token)} (code : CodeTokens Body inside opens closes ts) (n : Nat)
    (bodies : ∀ body, Body body → body.length < n → TextWalks (body.map (·.value))) (short : ts.length ≤ n)
    (outer : List Mode) :
    walk (codeModes inside 0 outer) (ts.map (·.value)) = some (codeModes inside (opens - closes) outer) ∧
      Spaced (ts.map (·.value)) := by
  induction code with
  | nil => exact ⟨rfl, by simp, .nil⟩
  | @plain _ _ ts t _ plain ih =>
    rw [List.length_append, List.length_singleton] at short
    rw [List.map_append, List.map_singleton]
    obtain ⟨walks, spaced⟩ := ih (by omega)
    refine ⟨?_, spaced.concat (isPlain.not_text plain)⟩
    rw [walk_concat walks, after?_inCode (codeModes_inCode _ _ _), codeAfter?_plain _ plain]
  | @opening opens closes ts t before brace ih =>
    rw [List.length_append, List.length_singleton] at short
    rw [List.map_append, List.map_singleton, brace]
    obtain ⟨walks, spaced⟩ := ih (by omega)
    refine ⟨(walk_concat walks).trans ?_, spaced.concat rfl⟩
    cases inside with
    | false => rfl
    | true =>
      have balance : opens + 1 - closes = opens - closes + 1 := by
        have := before.closes_le
        omega
      rw [balance]
      rfl
  | @closing opens closes ts t before brace opened ih =>
    rw [List.length_append, List.length_singleton] at short
    rw [List.map_append, List.map_singleton, brace]
    obtain ⟨walks, spaced⟩ := ih (by omega)
    refine ⟨(walk_concat walks).trans ?_, spaced.concat rfl⟩
    cases inside with
    | false => rfl
    | true =>
      have more := opened rfl
      obtain ⟨d, balance⟩ : ∃ d, opens - closes = d + 1 := ⟨opens - closes - 1, by omega⟩
      have rest : opens - (closes + 1) = d := by omega
      rw [balance, rest]
      rfl
  | @template opens closes ts body first last _ start text stop ih =>
    rw [List.length_append, List.length_cons, List.length_append, List.length_singleton] at short
    rw [List.map_append, List.map_cons, List.map_append, List.map_singleton, start, stop]
    obtain ⟨walks, spaced⟩ := ih (by omega)
    have inner := bodies body text (by omega)
    refine ⟨?_, spaced.enclosed inner.spaced rfl rfl⟩
    rw [walk_append, walks, Option.bind_some]
    exact walk_template (codeModes_inCode _ _ _) inner

theorem text_walks (n : Nat) (body : List (Located Token)) (text : TextTokens body) (short : body.length < n) :
    TextWalks (body.map (·.value)) := by
  induction n generalizing body with
  | zero => exact absurd short (Nat.not_lt_zero _)
  | succ n ih =>
    cases text with
    | nil => exact ⟨fun _ => rfl, by simp, .nil⟩
    | @text ts t s before value inhabited apart =>
      rw [List.length_append, List.length_singleton] at short
      rw [List.map_append, List.map_singleton, value]
      obtain ⟨walks, spaced⟩ := ih ts before (by omega)
      refine ⟨fun outer => walk_concat (walks outer), spaced.append (spaced_single ?_) ?_⟩
      · rintro ⟨⟩
        exact inhabited rfl
      · intro u last _ _ both
        rw [List.getLast?_map] at last
        obtain ⟨v, found, rfl⟩ := Option.map_eq_some_iff.mp last
        rw [apart v found] at both
        cases both.1
    | @interp ts body first last braces before start code stop =>
      rw [List.length_append, List.length_cons, List.length_append, List.length_singleton] at short
      rw [List.map_append, List.map_cons, List.map_append, List.map_singleton, start, stop]
      obtain ⟨walks, spaced⟩ := ih ts before (by omega)
      have inner := code_walks code n ih (by omega)
      refine ⟨fun outer => ?_, spaced.enclosed (inner []).2 rfl rfl⟩
      have balanced := (inner (.template :: outer)).1
      rw [Nat.sub_self] at balanced
      rw [walk_append, walks outer, Option.bind_some]
      exact walk_concat balanced

theorem WellBracketed.walks {values : List Token} (well : WellBracketed values) :
    walk [] values = some [] ∧ Spaced values := by
  obtain ⟨ts, opens, closes, code, rfl⟩ := well
  exact code_walks code ts.length (fun body text _ => text_walks (body.length + 1) body text (Nat.lt_succ_self _))
    (Nat.le_refl _) []

def raw : Token → Token
  | .interpClose => .symbol .rightBrace
  | t => t

def Settles : Token → List Char → Prop
  | .templateText _, rest => EndsText rest
  | .string _, _ => True
  | .templateStart, _ => True
  | .interpOpen, _ => True
  | .interpClose, _ => True
  | .templateEnd, _ => True
  | _, rest => Apart rest

theorem codeFront_brace (rest : List Char) : codeFront ('\x7d' :: rest) = .token (.symbol .rightBrace) 1 := rfl

theorem codeFront_spell {modes modes' : List Mode} {t : Token} {rest : List Char}
    (fits : codeAfter? modes t = some modes') (legal : Legal t) (settles : Settles t rest) :
    codeFront (spell t ++ rest) = .token (raw t) (spell t).length := by
  cases t with
  | keyword k => exact codeFront_keyword k (Apart.endsWord settles)
  | ident name => exact codeFront_ident legal (Apart.endsWord settles)
  | int text =>
    obtain ⟨ends, whole⟩ := Apart.stops settles (.int text)
    exact codeFront_int legal ends whole
  | float text =>
    obtain ⟨ends, single⟩ := Apart.stops settles (.float text)
    exact codeFront_float legal ends single
  | string text => exact codeFront_string text rest
  | templateStart => rfl
  | templateText text => cases fits
  | interpOpen => cases fits
  | interpClose => exact codeFront_brace rest
  | templateEnd => cases fits
  | symbol s => exact codeFront_symbol s (Apart.stops settles (.symbol s))

/-- A template reads a token off what it is written as. -/
theorem templateFront_spell {outer modes' : List Mode} {t : Token} {rest : List Char}
    (fits : textAfter? outer t = some modes') (inhabited : t ≠ .templateText "") (settles : Settles t rest) :
    templateFront (spell t ++ rest) = .token t (spell t).length := by
  cases t with
  | templateText text =>
    refine templateFront_text ?_ settles
    rintro rfl
    exact inhabited rfl
  | interpOpen => rfl
  | templateEnd => rfl
  | _ => cases fits

theorem spell_ne_nil {t : Token} {modes modes' : List Mode} (fits : after? modes t = some modes') (legal : Legal t)
    (inhabited : t ≠ .templateText "") : spell t ≠ [] := by
  have alone : Settles t [] := by cases t <;> first | trivial | exact nofun
  intro empty
  unfold after? at fits
  split at fits
  · have read := templateFront_spell fits inhabited alone
    rw [empty] at read
    cases read
    exact inhabited rfl
  · have read := codeFront_spell fits legal alone
    rw [empty] at read
    cases read

theorem transition_text {pos : Nat} {outer : List Mode} {starts : List Nat} {t : Token} {modes' : List Mode}
    (fits : textAfter? outer t = some modes') :
    (transition pos ⟨.template :: outer, starts⟩ (raw t)).1 = t ∧
      (transition pos ⟨.template :: outer, starts⟩ (raw t)).2.modes = modes' := by
  cases t <;> cases fits <;> exact ⟨rfl, rfl⟩

theorem transition_code {pos : Nat} {n : Nesting} {t : Token} {modes' : List Mode}
    (inCode : n.modes.head? ≠ some .template) (fits : codeAfter? n.modes t = some modes') :
    (transition pos n (raw t)).1 = t ∧ (transition pos n (raw t)).2.modes = modes' := by
  have plain (p : isPlain t = true) :
      (transition pos n (raw t)).1 = t ∧ (transition pos n (raw t)).2.modes = modes' := by
    rw [codeAfter?_plain n.modes p] at fits
    have same : raw t = t := by cases t <;> first | rfl | cases p
    rw [same, transition_plain pos n p]
    exact ⟨rfl, Option.some.inj fits⟩
  obtain ⟨modes, starts⟩ := n
  cases t with
  | templateStart =>
    cases fits
    exact ⟨rfl, rfl⟩
  | templateText text => cases fits
  | interpOpen => cases fits
  | templateEnd => cases fits
  | interpClose =>
    rcases modes with _ | ⟨_ | ⟨_ | d⟩, outer⟩ <;> cases fits
    exact ⟨rfl, rfl⟩
  | symbol s =>
    cases s with
    | leftBrace =>
      rcases modes with _ | ⟨_ | d, outer⟩
      · cases fits
        exact ⟨rfl, rfl⟩
      · exact absurd rfl inCode
      · cases fits
        exact ⟨rfl, rfl⟩
    | rightBrace =>
      rcases modes with _ | ⟨_ | ⟨_ | d⟩, outer⟩
      · cases fits
        exact ⟨rfl, rfl⟩
      · exact absurd rfl inCode
      · cases fits
      · cases fits
        exact ⟨rfl, rfl⟩
    | _ => exact plain rfl
  | _ => exact plain rfl

/-- The lexer reads a token that may stand at its place off what it is written as. -/
theorem step_spelled {s : State} {t : Token} {modes' : List Mode} {rest : List Char}
    (fits : after? s.nesting.modes t = some modes') (legal : Legal t) (inhabited : t ≠ .templateText "")
    (settles : Settles t rest) (here : s.rest = spell t ++ rest) :
    ∃ span s', step s = .ok (some ⟨t, span⟩, s') ∧ s'.rest = rest ∧ s'.nesting.modes = modes' := by
  have some_left : s.rest ≠ [] := by
    rw [here]
    exact List.append_ne_nil_of_left_ne_nil (spell_ne_nil fits legal inhabited) rest
  have positive : 0 < (spell t).length := List.length_pos_iff.mpr (spell_ne_nil fits legal inhabited)
  have reads : Lexer.front s.nesting.modes s.rest = .token (raw t) (spell t).length ∧
      (transition s.pos s.nesting (raw t)).1 = t ∧ (transition s.pos s.nesting (raw t)).2.modes = modes' := by
    by_cases inText : s.nesting.modes.head? = some .template
    · obtain ⟨outer, same⟩ := List.head?_eq_some_iff.mp inText
      rw [front_text inText, here]
      rw [same] at fits
      have plain : raw t = t := by cases t <;> first | rfl | cases fits
      obtain ⟨pos, chars, modes, starts⟩ := s
      obtain rfl : modes = .template :: outer := same
      refine ⟨?_, transition_text fits⟩
      rw [plain]
      exact templateFront_spell fits inhabited settles
    · rw [after?_inCode inText] at fits
      rw [front_code inText, here]
      exact ⟨codeFront_spell fits legal settles, transition_code inText fits⟩
  obtain ⟨found, same, opened⟩ := reads
  unfold step
  rw [found]
  dsimp only
  rw [advance_eq some_left positive]
  refine ⟨_, _, by rw [same], ?_, opened⟩
  rw [here]
  exact List.drop_left

/-- A blank in code is passed over, alone if none follows it. -/
theorem step_blank {s : State} {rest : List Char} (inCode : s.nesting.modes.head? ≠ some .template)
    (here : s.rest = ' ' :: rest) (alone : ∀ c ∈ rest.head?, Text.isBlank c = false) :
    ∃ s', step s = .ok (none, s') ∧ s'.rest = rest ∧ s'.nesting = s.nesting := by
  have some_left : s.rest ≠ [] := by
    rw [here]
    exact List.cons_ne_nil _ _
  have blank : (' ' :: rest).takeWhile Text.isBlank = [' '] := by
    rw [← List.singleton_append]
    refine takeWhile_eq_left (fun c only => ?_) alone
    rw [List.mem_singleton.mp only]
    decide
  have found : Lexer.front s.nesting.modes s.rest = .trivia 1 := by
    rw [front_code inCode, here, codeFront_cons (by decide) (by decide) fun slash => absurd slash (by decide), blank]
    rfl
  unfold step
  rw [found]
  dsimp only
  rw [advance_eq some_left Nat.one_pos]
  refine ⟨_, rfl, ?_, rfl⟩
  rw [here]
  rfl

theorem alternating_depth {d d' : Nat} {outer : List Mode} (alternating : Alternating (.interp d :: outer)) :
    Alternating (.interp d' :: outer) := by
  rcases outer with _ | ⟨_ | _, outer⟩
  · exact absurd alternating id
  · exact alternating
  · exact absurd alternating id

theorem alternating_outer {mode : Mode} {outer : List Mode} (alternating : Alternating (mode :: outer)) :
    Alternating outer ∧ (mode = .template → outer.head? ≠ some .template) := by
  rcases mode with _ | d <;> rcases outer with _ | ⟨_ | _, outer⟩
  · exact ⟨trivial, fun _ => nofun⟩
  · exact absurd alternating id
  · exact ⟨alternating, fun _ => nofun⟩
  · exact absurd alternating id
  · exact ⟨alternating, nofun⟩
  · exact absurd alternating id

/-- Behind a token, templates and interpolations still take turns, and code goes on unless the token leaves the lexer
in a template's text. -/
theorem after?_alternating {modes modes' : List Mode} {t : Token} (alternating : Alternating modes)
    (fits : after? modes t = some modes') :
    Alternating modes' ∧ (¬ Continues t → modes'.head? ≠ some .template) := by
  by_cases inText : modes.head? = some .template
  · obtain ⟨outer, rfl⟩ := List.head?_eq_some_iff.mp inText
    cases t with
    | templateText text =>
      cases fits
      exact ⟨alternating, fun ends => absurd (.inr (.inl rfl)) ends⟩
    | interpOpen =>
      cases fits
      exact ⟨alternating, fun _ => nofun⟩
    | templateEnd =>
      cases fits
      obtain ⟨rest, apart⟩ := alternating_outer alternating
      exact ⟨rest, fun _ => apart rfl⟩
    | _ => cases fits
  · rw [after?_inCode inText] at fits
    have plain (p : isPlain t = true) : Alternating modes' ∧ (¬ Continues t → modes'.head? ≠ some .template) := by
      rw [codeAfter?_plain modes p] at fits
      cases fits
      exact ⟨alternating, fun _ => inText⟩
    cases t with
    | templateStart =>
      cases fits
      refine ⟨?_, fun ends => absurd (.inl rfl) ends⟩
      rcases modes with _ | ⟨_ | d, outer⟩
      · trivial
      · exact absurd rfl inText
      · exact alternating
    | interpClose =>
      rcases modes with _ | ⟨_ | ⟨_ | d⟩, outer⟩ <;> cases fits
      exact ⟨(alternating_outer alternating).1, fun ends => absurd (.inr (.inr rfl)) ends⟩
    | templateText text => cases fits
    | interpOpen => cases fits
    | templateEnd => cases fits
    | symbol s =>
      cases s with
      | leftBrace =>
        rcases modes with _ | ⟨_ | d, outer⟩
        · cases fits
          exact ⟨trivial, fun _ => nofun⟩
        · exact absurd rfl inText
        · cases fits
          exact ⟨alternating_depth alternating, fun _ => nofun⟩
      | rightBrace =>
        rcases modes with _ | ⟨_ | ⟨_ | d⟩, outer⟩
        · cases fits
          exact ⟨trivial, fun _ => nofun⟩
        · exact absurd rfl inText
        · cases fits
        · cases fits
          exact ⟨alternating_depth alternating, fun _ => nofun⟩
      | _ => exact plain rfl
    | _ => exact plain rfl

/-- Tokens that are read as code start with no blank. -/
theorem spell_head {modes modes' : List Mode} {t : Token} (fits : codeAfter? modes t = some modes') (legal : Legal t) :
    ∀ c ∈ (spell t).head?, Text.isBlank c = false := by
  intro c first
  cases t with
  | keyword k =>
    obtain ⟨d, start, letter⟩ := keyword_head k
    cases Option.mem_unique first start
    exact not_blank_of_isIdentChar (isIdentChar_of_start letter)
  | ident name =>
    exact not_blank_of_isIdentChar (legal.2.1 c (List.mem_of_mem_head? first))
  | int text =>
    rw [spell] at first
    rw [Legal] at legal
    generalize text.toList = cs at legal first
    cases legal with
    | decimal digits =>
      exact not_blank_of_isIdentChar (isIdentChar_of_digit (digits.2 c (List.mem_of_mem_head? first)))
    | hex _ _ _ =>
      cases first
      decide
  | float text =>
    rw [spell] at first
    rw [Legal] at legal
    generalize text.toList = cs at legal first
    have start {whole tail : List Char} (digits : Digits whole) (first : c ∈ (whole ++ tail).head?) :
        Text.isBlank c = false := by
      obtain ⟨d, more, rfl, digit⟩ := digits.head
      cases first
      exact not_blank_of_isIdentChar (isIdentChar_of_digit digit)
    cases legal with
    | point digits => exact start digits first
    | fraction digits _ => exact start digits first
    | exponent digits _ => exact start digits first
    | both digits _ _ => exact start digits first
  | string text =>
    cases first
    decide
  | templateStart =>
    cases first
    decide
  | interpClose =>
    cases first
    decide
  | symbol s => exact (symbol_head s first).2.2.1
  | _ => cases fits

theorem spellAll_cons (tight : Token → Bool) (t : Token) (ts : List Token) :
    ∃ more, spellAll tight (t :: ts) = spell t ++ more := by
  cases ts with
  | nil => exact ⟨[], (List.append_nil _).symm⟩
  | cons u us => exact ⟨_, rfl⟩

/-- What is written behind a token does not run into it. -/
theorem settles_gap {modes modes₁ modes₂ : List Mode} {t u : Token} {ts : List Token} (tight : Token → Bool)
    (first : after? modes t = some modes₁) (second : after? modes₁ u = some modes₂)
    (apart : ¬ (isText t = true ∧ isText u = true)) : Settles t (gap tight t u ++ spellAll tight (u :: ts)) := by
  obtain ⟨more, written⟩ := spellAll_cons tight u ts
  have code (ends : ¬ Continues t) (other : t ≠ .interpOpen) : Apart (gap tight t u ++ spellAll tight (u :: ts)) := by
    intro c next
    rw [gap, if_neg ends] at next
    split at next
    · rename_i left
      have closing : u = .interpClose := (left.resolve_left fun brace => other brace.1).1
      rw [List.nil_append, written, closing] at next
      cases next
      exact .inr rfl
    · cases next
      exact .inl rfl
  cases t with
  | templateText text =>
    have kept : modes₁.head? = some .template := by
      unfold after? at first
      split at first
      · cases first
        rfl
      · cases first
    obtain ⟨outer, rfl⟩ := List.head?_eq_some_iff.mp kept
    have continues : Continues (.templateText text) := .inr (.inl rfl)
    rw [Settles, gap, if_pos continues, List.nil_append, written]
    intro c next
    cases u with
    | templateText text' => exact absurd ⟨rfl, rfl⟩ apart
    | interpOpen =>
      cases next
      exact .inr rfl
    | templateEnd =>
      cases next
      exact .inl rfl
    | _ => cases second
  | keyword k => exact code (by simp [Continues, isText]) (by simp)
  | ident name => exact code (by simp [Continues, isText]) (by simp)
  | int text => exact code (by simp [Continues, isText]) (by simp)
  | float text => exact code (by simp [Continues, isText]) (by simp)
  | symbol s => exact code (by simp [Continues, isText]) (by simp)
  | _ => trivial

/-- Tokens that may stand one after the other are read off what they are written as. -/
theorem spelled_reaches {tight : Token → Bool} {ts : List Token} {modes' : List Mode} {s : State}
    (walks : walk s.nesting.modes ts = some modes') (alternating : Alternating s.nesting.modes)
    (legal : ∀ t ∈ ts, Legal t) (spaced : Spaced ts) (here : s.rest = spellAll tight ts) :
    ∃ out s', Reaches s out s' ∧ s'.rest = [] ∧ s'.nesting.modes = modes' ∧ out.map (·.value) = ts := by
  induction ts generalizing s with
  | nil => exact ⟨[], s, .start, here, Option.some.inj walks, rfl⟩
  | cons t ts ih =>
    rw [walk, Option.bind_eq_some_iff] at walks
    obtain ⟨modes₁, first, walks⟩ := walks
    have some_left : s.rest ≠ [] := by
      obtain ⟨more, written⟩ := spellAll_cons tight t ts
      rw [here, written]
      exact List.append_ne_nil_of_left_ne_nil
        (spell_ne_nil first (legal t List.mem_cons_self) (spaced.inhabited t List.mem_cons_self)) _
    obtain ⟨alternating₁, inCode⟩ := after?_alternating alternating first
    have later : Spaced ts :=
      ⟨fun u member => spaced.inhabited u (List.mem_cons_of_mem t member), spaced.apart.tail⟩
    have legal₁ (u : Token) (member : u ∈ ts) : Legal u := legal u (List.mem_cons_of_mem t member)
    cases ts with
    | nil =>
      have alone : Settles t [] := by cases t <;> first | trivial | exact nofun
      rw [spellAll, ← List.append_nil (spell t)] at here
      obtain ⟨span, s₁, stepped, rest, opened⟩ := step_spelled first (legal t List.mem_cons_self)
        (spaced.inhabited t List.mem_cons_self) alone here
      refine ⟨[⟨t, span⟩], s₁, .step .start some_left stepped, rest, ?_, rfl⟩
      rw [opened]
      exact Option.some.inj walks
    | cons u us =>
      obtain ⟨modes₂, second, -⟩ := Option.bind_eq_some_iff.mp walks
      obtain ⟨span, s₁, stepped, rest, opened⟩ := step_spelled first (legal t List.mem_cons_self)
        (spaced.inhabited t List.mem_cons_self)
        (settles_gap tight first second (List.isChain_cons_cons.mp spaced.apart).1) here
      have read : Reaches s [⟨t, span⟩] s₁ := .step .start some_left stepped
      -- A blank behind the token is passed over before the next one is read.
      have passed : ∃ s₂, Reaches s₁ [] s₂ ∧ s₂.rest = spellAll tight (u :: us) ∧ s₂.nesting = s₁.nesting := by
        rw [gap] at rest
        split at rest
        · exact ⟨s₁, .start, rest, rfl⟩
        · rename_i ends
          split at rest
          · exact ⟨s₁, .start, rest, rfl⟩
          · have inCode₁ : s₁.nesting.modes.head? ≠ some .template := by
              rw [opened]
              exact inCode ends
            have starts : ∀ c ∈ (spellAll tight (u :: us)).head?, Text.isBlank c = false := by
              obtain ⟨more, written⟩ := spellAll_cons tight u us
              have some_text := spell_ne_nil second (legal₁ u List.mem_cons_self) (later.inhabited u List.mem_cons_self)
              rw [written, List.head?_append_of_ne_nil _ some_text]
              rw [after?_inCode (inCode ends)] at second
              exact spell_head second (legal₁ u List.mem_cons_self)
            obtain ⟨s₂, skipped, rest₂, same⟩ := step_blank inCode₁ rest starts
            have some_left₁ : s₁.rest ≠ [] := by
              rw [rest]
              exact List.cons_ne_nil _ _
            exact ⟨s₂, .step .start some_left₁ skipped, rest₂, same⟩
      obtain ⟨s₂, skipped, rest₂, same⟩ := passed
      rw [← opened, ← same] at walks alternating₁
      obtain ⟨out, s', reaches, ended, final, values⟩ := ih walks alternating₁ legal₁ later rest₂
      refine ⟨_, s', (read.trans skipped).trans reaches, ended, final, ?_⟩
      simp [values]

/-- Well-bracketed tokens with legal texts are read back from what they are written as, with a blank between tokens of
code and nothing between those of a template's text. -/
theorem tokenize_spelled (tight : Token → Bool) {values : List Token} (well : WellBracketed values)
    (legal : ∀ t ∈ values, Legal t) :
    ∃ ts, tokenize (String.ofList (spellAll tight values)) = .ok ts ∧ ts.map (·.value) = values := by
  obtain ⟨walks, spaced⟩ := well.walks
  have here : (State.start (String.ofList (spellAll tight values))).rest = spellAll tight values :=
    String.toList_ofList
  have start : Alternating (State.start (String.ofList (spellAll tight values))).nesting.modes := trivial
  obtain ⟨ts, s, reaches, ended, closed, same⟩ := spelled_reaches walks start legal spaced here
  refine ⟨ts, ?_, same⟩
  have nothing : s.nesting.starts = [] := reaches.nested.opened.starts_eq_nil_iff.mpr closed
  rw [tokenize, reaches.run_eq, run_of_end ended, nothing]
  simp [Except.map]

/-- A keyword, a name, a string, and a template with a number in the braces of its interpolation. -/
theorem tokenize_spelled_template :
    let values : List Token := [.keyword .return_, .ident "x1", .string "a\"\n", .templateStart,
      .templateText "\x60\x7b", .interpOpen, .symbol .leftBrace, .float "1.5e-3", .symbol .rightBrace, .interpClose,
      .templateEnd]
    WellBracketed values ∧ (∀ t ∈ values, Legal t) ∧
      ∃ ts, tokenize (String.ofList (spellAll (fun _ => true) values)) = .ok ts ∧ ts.map (·.value) = values := by
  intro values
  have name : Legal (.ident "x1") := ⟨⟨'x', rfl, rfl⟩, List.all_eq_true.mp rfl, by intro k; cases k <;> decide⟩
  have digits (d : Char) (digit : d.isDigit = true) : Digits [d] := ⟨nofun, by simpa using digit⟩
  have number : FloatText "1.5e-3".toList :=
    .both (digits '1' rfl) (digits '5' rfl) (.signed (.inl rfl) (.inr rfl) (digits '3' rfl))
  have legal : ∀ t ∈ values, Legal t := by
    simp only [values, List.forall_mem_cons]
    exact ⟨trivial, name, trivial, trivial, trivial, trivial, trivial, number, trivial, trivial, trivial, nofun⟩
  have code : CodeTokens TextTokens true 1 1 (((values.drop 6).take 3).map (⟨·, default⟩)) :=
    .closing (.plain (.opening .nil rfl) rfl) rfl fun _ => Nat.one_pos
  have text : TextTokens (((values.drop 4).take 6).map (⟨·, default⟩)) :=
    .interp (.text .nil rfl (by decide) nofun) rfl code rfl
  have well : WellBracketed values :=
    ⟨values.map (⟨·, default⟩), 0, 0, .template (.plain (.plain (.plain .nil rfl) rfl) rfl) rfl text rfl, rfl⟩
  exact ⟨well, legal, tokenize_spelled (fun _ => true) well legal⟩

end ViewLang.Lexer
