import Mathlib.Data.List.Chain
import ViewLang.Proofs.Token.Lexing

namespace ViewLang.Lexer

def isPlain : Token → Bool
  | .keyword _ => true
  | .ident _ => true
  | .int _ => true
  | .float _ => true
  | .string _ => true
  | .symbol s => s != .leftBrace && s != .rightBrace
  | _ => false

def isText : Token → Bool
  | .templateText _ => true
  | _ => false

/-- Tokens of code, and how many braces open and close in it outside its templates, whose tokens are `Body`. Code that
a brace closes, `inside` an interpolation, closes no brace that it did not open. -/
inductive CodeTokens (Body : List (Located Token) → Prop) (inside : Bool) : Nat → Nat → List (Located Token) → Prop
  | nil : CodeTokens Body inside 0 0 []
  | plain {opens closes : Nat} {ts : List (Located Token)} {t : Located Token}
    (before : CodeTokens Body inside opens closes ts) (plain : isPlain t.value = true) :
    CodeTokens Body inside opens closes (ts ++ [t])
  | opening {opens closes : Nat} {ts : List (Located Token)} {t : Located Token}
    (before : CodeTokens Body inside opens closes ts) (brace : t.value = .symbol .leftBrace) :
    CodeTokens Body inside (opens + 1) closes (ts ++ [t])
  | closing {opens closes : Nat} {ts : List (Located Token)} {t : Located Token}
    (before : CodeTokens Body inside opens closes ts) (brace : t.value = .symbol .rightBrace)
    (opened : inside = true → closes < opens) : CodeTokens Body inside opens (closes + 1) (ts ++ [t])
  | template {opens closes : Nat} {ts body : List (Located Token)} {first last : Located Token}
    (before : CodeTokens Body inside opens closes ts) (start : first.value = .templateStart) (text : Body body)
    (stop : last.value = .templateEnd) : CodeTokens Body inside opens closes (ts ++ first :: (body ++ [last]))

/-- Tokens between the backticks of a template: text, and interpolations around code with balanced braces. -/
inductive TextTokens : List (Located Token) → Prop
  | nil : TextTokens []
  | text {ts : List (Located Token)} {t : Located Token} {s : String} (before : TextTokens ts)
    (value : t.value = .templateText s) (inhabited : s ≠ "") (apart : ∀ u ∈ ts.getLast?, isText u.value = false) :
    TextTokens (ts ++ [t])
  | interp {ts body : List (Located Token)} {first last : Located Token} {braces : Nat} (before : TextTokens ts)
    (start : first.value = .interpOpen) (code : CodeTokens TextTokens true braces braces body)
    (stop : last.value = .interpClose) : TextTokens (ts ++ first :: (body ++ [last]))

/-- What is open behind the tokens: nothing, or a template in code, or an interpolation in a template. A template is
noted with the offset of its backtick, an interpolation with the braces open in it. -/
inductive Opened : List Mode → List Nat → List (Located Token) → Prop
  | root {opens closes : Nat} {ts : List (Located Token)} (code : CodeTokens TextTokens false opens closes ts) :
    Opened [] [] ts
  | template {modes : List Mode} {starts : List Nat} {ts body : List (Located Token)} (first : Located Token)
    (outer : Opened modes starts ts) (inCode : modes.head? ≠ some .template)
    (start : first.value = .templateStart) (text : TextTokens body) :
    Opened (.template :: modes) (first.span.start :: starts) (ts ++ first :: body)
  | interp {modes : List Mode} {starts : List Nat} {ts body : List (Located Token)} {first : Located Token}
    {opens closes : Nat} (outer : Opened (.template :: modes) starts ts) (start : first.value = .interpOpen)
    (code : CodeTokens TextTokens true opens closes body) :
    Opened (.interp (opens - closes) :: .template :: modes) starts (ts ++ first :: body)

/-- Templates and interpolations take turns, a template outermost. -/
def Alternating : List Mode → Prop
  | [] => True
  | [.template] => True
  | .template :: .interp d :: outer => Alternating (.interp d :: outer)
  | .interp _ :: .template :: outer => Alternating (.template :: outer)
  | _ => False

theorem CodeTokens.closes_le {Body : List (Located Token) → Prop} {opens closes : Nat} {ts : List (Located Token)}
    (code : CodeTokens Body true opens closes ts) : closes ≤ opens := by
  induction code with
  | nil => exact Nat.le_refl 0
  | plain _ _ ih => exact ih
  | opening _ _ ih => exact Nat.le_succ_of_le ih
  | closing _ _ opened _ => exact opened rfl
  | template _ _ _ _ ih => exact ih

variable {modes : List Mode} {starts : List Nat} {ts : List (Located Token)}

theorem Opened.alternating (opened : Opened modes starts ts) : Alternating modes := by
  induction opened with
  | root _ => exact True.intro
  | @template modes _ _ _ _ _ inCode _ _ ih =>
    cases modes with
    | nil => exact True.intro
    | cons mode outer =>
      cases mode with
      | template => exact absurd rfl inCode
      | interp d => exact ih
  | interp _ _ _ ih => exact ih

theorem Opened.starts_eq_nil_iff (opened : Opened modes starts ts) : starts = [] ↔ modes = [] := by
  induction opened with
  | root _ => simp
  | template _ _ _ _ _ _ => simp
  | interp outer _ _ ih => simpa using ih

theorem Opened.plain (opened : Opened modes starts ts) (inCode : modes.head? ≠ some .template) {t : Located Token}
    (plain : isPlain t.value = true) : Opened modes starts (ts ++ [t]) := by
  cases opened with
  | root code => exact .root (code.plain plain)
  | template _ _ _ _ _ => exact absurd rfl inCode
  | interp outer start code =>
    rw [List.append_assoc]
    exact .interp outer start (code.plain plain)

/-- A template that is complete is part of the code around it. -/
theorem Opened.complete {body : List (Located Token)} {first last : Located Token} (opened : Opened modes starts ts)
    (inCode : modes.head? ≠ some .template) (start : first.value = .templateStart) (text : TextTokens body)
    (stop : last.value = .templateEnd) : Opened modes starts (ts ++ first :: (body ++ [last])) := by
  cases opened with
  | root code => exact .root (code.template start text stop)
  | template _ _ _ _ _ => exact absurd rfl inCode
  | interp outer begin code =>
    rw [List.append_assoc]
    exact .interp outer begin (code.template start text stop)

theorem transition_plain (start : Nat) (n : Nesting) {u : Token} (plain : isPlain u = true) :
    transition start n u = (u, n) := by
  unfold transition
  split <;> first | rfl | cases plain

/-- A brace opens or closes in the code, or closes the interpolation around it. -/
theorem Opened.brace {n : Nesting} {u : Token} {pos stop : Nat} (opened : Opened n.modes n.starts ts)
    (inCode : n.modes.head? ≠ some .template) (brace : u = .symbol .leftBrace ∨ u = .symbol .rightBrace) :
    Opened (transition pos n u).2.modes (transition pos n u).2.starts
      (ts ++ [⟨(transition pos n u).1, ⟨pos, stop⟩⟩]) := by
  obtain ⟨modes, starts⟩ := n
  dsimp only at opened inCode
  cases opened with
  | root code =>
    rcases brace with rfl | rfl
    · exact .root (code.opening rfl)
    · exact .root (code.closing rfl nofun)
  | template _ _ _ _ _ => exact absurd rfl inCode
  | @interp modes starts ts body first opens closes outer start code =>
    have bound := code.closes_le
    rw [List.append_assoc, List.cons_append]
    rcases brace with rfl | rfl
    · have deeper : opens - closes + 1 = opens + 1 - closes := by omega
      have more := Opened.interp outer start (code.opening (t := ⟨.symbol .leftBrace, ⟨pos, stop⟩⟩) rfl)
      rwa [← deeper] at more
    · -- At depth zero the brace closes the interpolation, and the template around it goes on.
      cases depth : opens - closes with
      | zero =>
        have balanced : closes = opens := by omega
        subst balanced
        cases outer with
        | template first around inside begin text =>
          rw [List.append_assoc, List.cons_append]
          exact .template first around inside begin (text.interp start code rfl)
      | succ d =>
        have less : d = opens - (closes + 1) := by omega
        have more := Opened.interp outer start
          (code.closing (t := ⟨.symbol .rightBrace, ⟨pos, stop⟩⟩) rfl fun _ => by omega)
        rwa [← less] at more

def isCode (t : Token) : Prop :=
  isPlain t = true ∨ t = .templateStart ∨ t = .symbol .leftBrace ∨ t = .symbol .rightBrace

theorem isCode_symbol (s : Symbol) : isCode (.symbol s) := by
  by_cases left : s = .leftBrace
  · exact .inr (.inr (.inl (by rw [left])))
  · by_cases right : s = .rightBrace
    · exact .inr (.inr (.inr (by rw [right])))
    · exact .inl (by simp [isPlain, left, right])

theorem word_isCode {cs : List Char} {u : Token} {width : Nat} (h : word cs = .token u width) : isCode u := by
  simp only [word] at h
  split at h <;> cases h <;> exact .inl rfl

theorem number_isCode {cs : List Char} {u : Token} {width : Nat} (h : number cs = .token u width) : isCode u := by
  simp only [number] at h
  split at h
  · cases h
  · cases h
    cases (numberWidth cs).2 <;> exact .inl rfl

theorem codeFront_isCode {cs : List Char} {u : Token} {width : Nat} (h : codeFront cs = .token u width) :
    isCode u := by
  cases codeFront_startsToken h with
  | string closed => exact .inl rfl
  | template cs => exact .inr (.inl rfl)
  | number digit read => exact number_isCode read
  | word start read => exact word_isCode read
  | symbol noLine noBlock found => exact isCode_symbol _

theorem front_text (inText : modes.head? = some .template) (cs : List Char) : front modes cs = templateFront cs := by
  obtain ⟨outer, rfl⟩ := List.head?_eq_some_iff.mp inText
  rfl

theorem front_code (inCode : modes.head? ≠ some .template) (cs : List Char) : front modes cs = codeFront cs := by
  unfold front
  split
  · exact absurd rfl inCode
  · rfl

theorem templateFront_ne_trivia {cs : List Char} (inhabited : cs ≠ []) (width : Nat) :
    templateFront cs ≠ .trivia width := by
  rcases templateFront_cases inhabited with ⟨found, _⟩ | ⟨found, _⟩ | ⟨_, _, found, _⟩ | ⟨_, found⟩ <;> simp [found]

def Settled (s : State) (ts : List (Located Token)) : Prop :=
  ∀ u ∈ ts.getLast?, isText u.value = true → s.nesting.modes.head? = some .template ∧ EndsText s.rest

structure Nested (s : State) (ts : List (Located Token)) : Prop where
  opened : Opened s.nesting.modes s.nesting.starts ts
  settled : Settled s ts
  inhabited : ∀ t ∈ ts, t.value ≠ .templateText ""
  apart : ts.IsChain fun t u => ¬ (isText t.value = true ∧ isText u.value = true)

theorem Nested.start (source : String) : Nested (State.start source) [] :=
  ⟨.root .nil, by simp [Settled], by simp, .nil⟩

theorem Nested.token {s s' : State} {t : Located Token} (nested : Nested s ts) (other : isText t.value = false)
    (opened : Opened s'.nesting.modes s'.nesting.starts (ts ++ [t])) : Nested s' (ts ++ [t]) := by
  refine ⟨opened, ?_, ?_, ?_⟩
  · intro u last text
    rw [List.getLast?_concat, Option.mem_some] at last
    rw [← last, other] at text
    cases text
  · intro u member empty
    rcases List.mem_append.mp member with earlier | last
    · exact nested.inhabited u earlier empty
    · rw [List.mem_singleton] at last
      rw [← last, empty] at other
      cases other
  · refine nested.apart.append (.singleton t) ?_
    intro u _ v head
    rw [List.head?_cons, Option.mem_some] at head
    rw [← head, other]
    exact fun both => Bool.false_ne_true both.2

theorem transition_isText (pos : Nat) (n : Nesting) (u : Token) : isText (transition pos n u).1 = isText u := by
  unfold transition
  split <;> rfl

theorem isCode.not_text {u : Token} (kind : isCode u) : isText u = false := by
  rcases kind with plain | rfl | rfl | rfl
  · cases u <;> first | rfl | cases plain
  all_goals rfl

theorem Nested.code {s s' : State} {u : Token} (nested : Nested s ts)
    (inCode : s.nesting.modes.head? ≠ some .template) (kind : isCode u)
    (after : s'.nesting = (transition s.pos s.nesting u).2) :
    Nested s' (ts ++ [⟨(transition s.pos s.nesting u).1, ⟨s.pos, s'.pos⟩⟩]) := by
  refine nested.token ((transition_isText _ _ _).trans kind.not_text) ?_
  rw [after]
  rcases kind with plain | rfl | brace
  · rw [transition_plain _ _ plain]
    exact nested.opened.plain inCode plain
  · have more : Opened (.template :: s.nesting.modes) (s.pos :: s.nesting.starts)
        (ts ++ [⟨.templateStart, ⟨s.pos, s'.pos⟩⟩]) :=
      .template ⟨.templateStart, ⟨s.pos, s'.pos⟩⟩ nested.opened inCode rfl .nil
    exact more
  · exact nested.opened.brace inCode brace

theorem Nested.text {s s' : State} {u : Token} {width : Nat} (nested : Nested s ts) (inhabited : s.rest ≠ [])
    (inText : s.nesting.modes.head? = some .template) (found : templateFront s.rest = .token u width)
    (rest : s'.rest = s.rest.drop width) (after : s'.nesting = (transition s.pos s.nesting u).2) :
    Nested s' (ts ++ [⟨(transition s.pos s.nesting u).1, ⟨s.pos, s'.pos⟩⟩]) := by
  have opened := nested.opened
  have settled := nested.settled
  obtain ⟨pos, chars, modes, starts⟩ := s
  obtain ⟨outer, rfl⟩ := List.head?_eq_some_iff.mp inText
  dsimp only at inhabited found rest opened
  cases opened with
  | @template _ starts ts body first around inCode start text =>
    rcases templateFront_cases inhabited with ⟨same, _⟩ | ⟨same, _⟩ | ⟨string, w, same, facts⟩ | ⟨f, same⟩
    · cases found.symm.trans same
      refine nested.token rfl ?_
      rw [after, List.append_assoc]
      exact around.complete inCode start text rfl
    · cases found.symm.trans same
      refine nested.token rfl ?_
      rw [after]
      have more : Opened (.interp 0 :: .template :: outer) (first.span.start :: starts)
          ((ts ++ first :: body) ++ [⟨.interpOpen, ⟨pos, s'.pos⟩⟩]) :=
        .interp (.template first around inCode start text) rfl .nil
      exact more
    · cases found.symm.trans same
      -- Text was read as far as it goes, so that no more of it can start behind it.
      have alone (u : Located Token) (last : u ∈ (ts ++ first :: body).getLast?) : isText u.value = false := by
        cases text : isText u.value with
        | false => rfl
        | true => exact absurd (settled u last text).2 facts.started
      refine ⟨?_, ?_, ?_, ?_⟩
      · rw [after, List.append_assoc]
        refine .template first around inCode start (text.text rfl facts.inhabited ?_)
        intro u last
        exact alone u (List.mem_getLast?_append_of_mem_getLast? (List.mem_getLast?_cons last))
      · intro u _ _
        rw [after, rest]
        exact ⟨rfl, facts.ended⟩
      · intro u member empty
        rcases List.mem_append.mp member with earlier | last
        · exact nested.inhabited u earlier empty
        · rw [List.mem_singleton.mp last] at empty
          exact facts.inhabited (Token.templateText.inj empty)
      · refine nested.apart.append (.singleton _) ?_
        intro u last v _ both
        exact Bool.false_ne_true ((alone u last).symm.trans both.1)
    · cases found.symm.trans same

theorem Nested.step {s s' : State} {t : Option (Located Token)} (nested : Nested s ts) (inhabited : s.rest ≠ [])
    (stepped : step s = .ok (t, s')) : Nested s' (ts ++ t.toList) := by
  obtain ⟨width, _, _, rest, cases⟩ := step_cases inhabited stepped
  by_cases inText : s.nesting.modes.head? = some .template
  · rw [front_text inText] at cases
    rcases cases with ⟨_, _, trivia, _⟩ | ⟨u, rfl, after, found, _⟩
    · exact absurd trivia (templateFront_ne_trivia inhabited width)
    · exact nested.text inhabited inText found rest after
  · rw [front_code inText] at cases
    rcases cases with ⟨rfl, after, _, _⟩ | ⟨u, rfl, after, found, _⟩
    · rw [Option.toList_none, List.append_nil]
      refine ⟨after ▸ nested.opened, ?_, nested.inhabited, nested.apart⟩
      intro u last text
      exact absurd (nested.settled u last text).1 inText
    · exact nested.code inText (codeFront_isCode found) after

theorem Reaches.nested {source : String} {s : State} (reaches : Reaches (State.start source) ts s) : Nested s ts := by
  induction reaches with
  | start => exact .start source
  | step _ inhabited stepped ih => exact ih.step inhabited stepped

/-- A run ends with an open template only at the end of the text. -/
theorem openTemplate_iff (source : String) :
    (∃ d, tokenize source = .error d ∧ d.code = some .openTemplate) ↔
      ∃ ts s, Reaches (State.start source) ts s ∧ s.rest = [] ∧ s.nesting.modes ≠ [] := by
  constructor
  · rintro ⟨d, failed, code⟩
    obtain ⟨ts, s, reaches, ⟨ended, start, outer, starts, -⟩ | ⟨-, refused⟩⟩ := run_error failed
    · refine ⟨ts, s, reaches, ended, ?_⟩
      intro nothing
      rw [reaches.nested.opened.starts_eq_nil_iff.mpr nothing] at starts
      cases starts
    · exact absurd code (step_code refused)
  · rintro ⟨ts, s, reaches, ended, opened⟩
    have left : s.nesting.starts ≠ [] := mt reaches.nested.opened.starts_eq_nil_iff.mp opened
    obtain ⟨start, outer, starts⟩ := List.exists_cons_of_ne_nil left
    refine ⟨openTemplateDiagnostic start s.pos, ?_, rfl⟩
    rw [tokenize, reaches.run_eq, run_of_end ended, starts]
    rfl

/-- At every place the open templates and interpolations take turns, and are those that the tokens so far leave open.
The tokens of a text that is read are complete code: in it, templates and interpolations are properly nested, braces
inside interpolations balanced, and texts neither empty nor side by side. A text is refused for an open template
exactly when its end is reached with something open. -/
theorem templates_nest (source : String) :
    (∀ ts s, Reaches (State.start source) ts s →
      Alternating s.nesting.modes ∧ Opened s.nesting.modes s.nesting.starts ts) ∧
    (∀ ts, tokenize source = .ok ts → (∃ opens closes, CodeTokens TextTokens false opens closes ts) ∧
      (∀ t ∈ ts, t.value ≠ .templateText "") ∧
      ts.IsChain fun t u => ¬ (isText t.value = true ∧ isText u.value = true)) ∧
    ((∃ d, tokenize source = .error d ∧ d.code = some .openTemplate) ↔
      ∃ ts s, Reaches (State.start source) ts s ∧ s.rest = [] ∧ s.nesting.modes ≠ []) := by
  refine ⟨?_, ?_, openTemplate_iff source⟩
  · intro ts s reaches
    exact ⟨reaches.nested.opened.alternating, reaches.nested.opened⟩
  · intro ts accepted
    obtain ⟨s, reaches, _, closed⟩ := run_ok accepted
    have nested := reaches.nested
    have nothing := nested.opened.starts_eq_nil_iff.mp closed
    have opened := nested.opened
    rw [nothing, closed] at opened
    cases opened with
    | root code => exact ⟨⟨_, _, code⟩, nested.inhabited, nested.apart⟩

end ViewLang.Lexer
