import ViewLang.Proofs.Token.Nesting

namespace ViewLang.Lexer

/-- Every token of a run was read in a step of its own. -/
theorem Reaches.split {s s' : State} {before after : List (Located Token)} {t : Located Token}
    (reaches : Reaches s (before ++ t :: after) s') :
    ∃ p q, Reaches s before p ∧ p.rest ≠ [] ∧ Lexer.step p = .ok (some t, q) ∧ Reaches q after s' := by
  generalize same : before ++ t :: after = ts at reaches
  induction reaches generalizing after with
  | start => simp at same
  | @step ts u s' s'' earlier inhabited stepped ih =>
    cases u with
    | none =>
      rw [Option.toList_none, List.append_nil] at same
      obtain ⟨p, q, first, some, taken, rest⟩ := ih same
      refine ⟨p, q, first, some, taken, ?_⟩
      have more := Reaches.step rest inhabited stepped
      rwa [Option.toList_none, List.append_nil] at more
    | some u =>
      rw [Option.toList_some] at same
      rcases List.eq_nil_or_concat after with rfl | ⟨after, last, rfl⟩
      · obtain ⟨rfl, one⟩ := List.append_inj' same rfl
        cases one
        exact ⟨s', s'', earlier, inhabited, stepped, .start⟩
      · rw [List.concat_eq_append, ← List.cons_append, ← List.append_assoc] at same
        obtain ⟨all, one⟩ := List.append_inj' same rfl
        cases one
        obtain ⟨p, q, first, some, taken, rest⟩ := ih all
        rw [List.concat_eq_append]
        exact ⟨p, q, first, some, taken, .step rest inhabited stepped⟩

theorem step_inText {s s' : State} {t : Option (Located Token)} (inhabited : s.rest ≠ [])
    (inText : s.nesting.modes.head? = some .template) (stepped : step s = .ok (t, s')) : ∃ u, t = some u := by
  obtain ⟨width, _, _, _, ⟨_, _, trivia, _⟩ | ⟨u, found, _⟩⟩ := step_cases inhabited stepped
  · rw [front_text inText] at trivia
    exact absurd trivia (templateFront_ne_trivia inhabited width)
  · exact ⟨_, found⟩

theorem step_span {s s' : State} {t : Located Token} (inhabited : s.rest ≠ [])
    (stepped : step s = .ok (some t, s')) : t.span = ⟨s.pos, s'.pos⟩ := by
  obtain ⟨width, _, _, _, ⟨impossible, _⟩ | ⟨u, found, _⟩⟩ := step_cases inhabited stepped
  · cases impossible
  · cases found
    rfl

/-- In a template, the lexer stands right behind the token that it read last. -/
theorem Reaches.stop_eq {s s' : State} {before : List (Located Token)} {t : Located Token}
    (reaches : Reaches s (before ++ [t]) s') (inText : s'.nesting.modes.head? = some .template) :
    t.span.stop = s'.pos := by
  generalize same : before ++ [t] = ts at reaches
  cases reaches with
  | start => simp at same
  | @step ts u p _ earlier inhabited stepped =>
    cases u with
    | none =>
      obtain ⟨_, _, _, _, ⟨_, kept, _⟩ | ⟨_, impossible, _⟩⟩ := step_cases inhabited stepped
      · rw [kept] at inText
        obtain ⟨_, impossible⟩ := step_inText inhabited inText stepped
        cases impossible
      · cases impossible
    | some u =>
      obtain ⟨_, one⟩ := List.append_inj' same rfl
      cases one
      rw [step_span inhabited stepped]

/-- The token after a place in a template starts at that place. -/
theorem next_start {s : State} {u : Located Token} {after : List (Located Token)}
    (inText : s.nesting.modes.head? = some .template) (accepted : run s = .ok (u :: after)) :
    u.span.start = s.pos := by
  have inhabited : s.rest ≠ [] := by
    intro ended
    rw [run_of_end ended] at accepted
    split at accepted <;> cases accepted
  cases stepped : step s with
  | error d =>
    rw [run_refused inhabited stepped] at accepted
    cases accepted
  | ok result =>
    obtain ⟨t, s'⟩ := result
    obtain ⟨v, rfl⟩ := step_inText inhabited inText stepped
    have span := step_span inhabited stepped
    rw [run_step inhabited stepped] at accepted
    cases rest : run s' with
    | error d =>
      rw [rest] at accepted
      cases accepted
    | ok us =>
      rw [rest] at accepted
      cases accepted
      rw [span]

/-- The piece stands at the range, between the characters before it and `rest`. -/
def StandsAt (source : List Char) (span : Span) (piece rest : List Char) : Prop :=
  ∃ before, source = before ++ (piece ++ rest) ∧ span.start = byteLength before ∧
    span.stop = byteLength before + byteLength piece

def TriviaAt (source : List Char) (span : Span) : Prop :=
  ∃ piece rest, StandsAt source span piece rest ∧ Trivia piece rest

def SpelledAt (source : List Char) (t : Located Token) : Prop :=
  t.span.start < t.span.stop ∧ ∃ piece rest, StandsAt source t.span piece rest ∧ Spells t.value piece

structure Tiled (source : List Char) (s : State) (ts : List (Located Token)) : Prop where
  place : ∃ done, source = done ++ s.rest ∧ s.pos = byteLength done
  spelled : ∀ t ∈ ts, SpelledAt source t ∧ t.span.stop ≤ s.pos
  ordered : ts.Pairwise fun t u => t.span.stop ≤ u.span.start
  covered : ∀ i < s.pos, (∃ t ∈ ts, t.span.start ≤ i ∧ i < t.span.stop) ∨
    ∃ span, TriviaAt source span ∧ span.start ≤ i ∧ i < span.stop ∧ span.stop ≤ s.pos ∧
      ∀ t ∈ ts, t.span.stop ≤ span.start ∨ span.stop ≤ t.span.start

theorem Tiled.start (source : String) : Tiled source.toList (State.start source) [] :=
  ⟨⟨[], rfl, rfl⟩, by simp, .nil, by simp [State.start]⟩

/-- What a step reads stands between its place and the next. -/
theorem Tiled.stands {source : List Char} {s s' : State} {ts : List (Located Token)} {width : Nat}
    (tiled : Tiled source s ts) (inhabited : s.rest ≠ []) (positive : 0 < width)
    (pos : s'.pos = s.pos + byteLength (s.rest.take width)) (rest : s'.rest = s.rest.drop width) :
    s.pos < s'.pos ∧ StandsAt source ⟨s.pos, s'.pos⟩ (s.rest.take width) s'.rest ∧
      ∃ done, source = done ++ s'.rest ∧ s'.pos = byteLength done := by
  obtain ⟨done, whole, place⟩ := tiled.place
  have taken : s.rest.take width ≠ [] := by simp [inhabited, Nat.ne_of_gt positive]
  have grows := byteLength_pos taken
  have split : s.rest = s.rest.take width ++ s'.rest := by rw [rest, List.take_append_drop]
  refine ⟨by omega, ⟨done, ?_, place, by rw [pos, place]⟩, done ++ s.rest.take width, ?_, ?_⟩
  · rw [← split]
    exact whole
  · rw [List.append_assoc, ← split]
    exact whole
  · rw [pos, place, byteLength_append]

theorem Tiled.step {source : List Char} {s s' : State} {ts : List (Located Token)} {t : Option (Located Token)}
    (tiled : Tiled source s ts) (inhabited : s.rest ≠ []) (stepped : step s = .ok (t, s')) :
    Tiled source s' (ts ++ t.toList) := by
  obtain ⟨width, positive, pos, rest, cases⟩ := step_cases inhabited stepped
  obtain ⟨grows, stands, place⟩ := tiled.stands inhabited positive pos rest
  rcases cases with ⟨rfl, _, _, trivia⟩ | ⟨u, rfl, _, _, spelled⟩
  · rw [Option.toList_none, List.append_nil]
    refine ⟨place, ?_, tiled.ordered, ?_⟩
    · intro t member
      obtain ⟨found, stop⟩ := tiled.spelled t member
      exact ⟨found, by omega⟩
    · intro i inside
      by_cases old : i < s.pos
      · rcases tiled.covered i old with found | ⟨span, found, low, high, stop, apart⟩
        · exact .inl found
        · exact .inr ⟨span, found, low, high, by omega, apart⟩
      · refine .inr ⟨⟨s.pos, s'.pos⟩, ⟨_, _, stands, trivia⟩, Nat.le_of_not_lt old, inside, Nat.le_refl _, ?_⟩
        intro t member
        exact .inl (tiled.spelled t member).2
  · rw [Option.toList_some]
    -- A byte before the step is covered as it was; one that the step passed belongs to the new token.
    refine ⟨place, ?_, ?_, ?_⟩
    · intro t member
      rcases List.mem_append.mp member with earlier | last
      · obtain ⟨found, stop⟩ := tiled.spelled t earlier
        exact ⟨found, by omega⟩
      · rw [List.mem_singleton.mp last]
        exact ⟨⟨grows, _, _, stands, transition_spells spelled⟩, Nat.le_refl _⟩
    · rw [List.pairwise_append]
      refine ⟨tiled.ordered, List.pairwise_singleton _ _, ?_⟩
      intro t member u last
      rw [List.mem_singleton.mp last]
      exact (tiled.spelled t member).2
    · intro i inside
      by_cases old : i < s.pos
      · rcases tiled.covered i old with ⟨t, member, found⟩ | ⟨span, found, low, high, stop, apart⟩
        · exact .inl ⟨t, List.mem_append_left _ member, found⟩
        · refine .inr ⟨span, found, low, high, by omega, ?_⟩
          intro t member
          rcases List.mem_append.mp member with earlier | last
          · exact apart t earlier
          · rw [List.mem_singleton.mp last]
            exact .inr stop
      · exact .inl ⟨_, List.mem_append_right _ (List.mem_singleton_self _), Nat.le_of_not_lt old, inside⟩

theorem Reaches.tiled {source : String} {s : State} {ts : List (Located Token)}
    (reaches : Reaches (State.start source) ts s) : Tiled source.toList s ts := by
  induction reaches with
  | start => exact .start source
  | step _ inhabited stepped ih => exact ih.step inhabited stepped

/-- Text goes on behind the start of a template, behind text and behind an interpolation. -/
def Continues (t : Token) : Prop := t = .templateStart ∨ isText t = true ∨ t = .interpClose

theorem not_continues_of_plain {t : Token} (plain : isPlain t = true) : ¬ Continues t := by
  rintro (rfl | text | rfl)
  · cases plain
  · cases t with
    | templateText _ => cases plain
    | _ => cases text
  · cases plain

/-- Code ends with a plain token, a brace or a whole template. -/
theorem CodeTokens.last {Body : List (Located Token) → Prop} {inside : Bool} {opens closes : Nat}
    {ts : List (Located Token)} (code : CodeTokens Body inside opens closes ts) {t : Located Token}
    (last : t ∈ ts.getLast?) : ¬ Continues t.value := by
  cases code with
  | nil => simp at last
  | plain _ plain =>
    rw [List.getLast?_concat, Option.mem_some] at last
    exact not_continues_of_plain (last ▸ plain)
  | opening _ brace =>
    rw [List.getLast?_concat, Option.mem_some] at last
    simp [← last, brace, Continues, isText]
  | closing _ brace _ =>
    rw [List.getLast?_concat, Option.mem_some] at last
    simp [← last, brace, Continues, isText]
  | template _ _ _ stop =>
    rw [← List.cons_append, ← List.append_assoc, List.getLast?_concat, Option.mem_some] at last
    simp [← last, stop, Continues, isText]

theorem Opened.inText {modes : List Mode} {starts : List Nat} {ts : List (Located Token)} {t : Located Token}
    (opened : Opened modes starts ts) (last : t ∈ ts.getLast?) (continues : Continues t.value) :
    modes.head? = some .template := by
  cases opened with
  | root code => exact absurd continues (code.last last)
  | template _ _ _ _ _ => rfl
  | @interp _ _ _ body first _ _ _ start code =>
    rcases List.eq_nil_or_concat body with rfl | ⟨body, u, rfl⟩
    · rw [List.getLast?_concat, Option.mem_some] at last
      simp [← last, start, Continues, isText] at continues
    · rw [List.concat_eq_append] at code last
      rw [← List.cons_append, ← List.append_assoc, List.getLast?_concat, Option.mem_some] at last
      refine absurd continues (code.last ?_)
      rw [List.getLast?_concat, Option.mem_some, last]

/-- Tokens and trivia tile a text that is read: the tokens stand in order, apart from each other, each where its span
says and as it is spelled, and every byte outside of them belongs to trivia. In a template, a token starts where the
one before it stops. -/
theorem tokens_tile_text {source : String} {ts : List (Located Token)} (accepted : tokenize source = .ok ts) :
    (∀ t ∈ ts, SpelledAt source.toList t) ∧
    (ts.Pairwise fun t u => t.span.stop ≤ u.span.start) ∧
    (∀ i < byteLength source.toList, (∃ t ∈ ts, t.span.start ≤ i ∧ i < t.span.stop) ∨
      ∃ span, TriviaAt source.toList span ∧ span.start ≤ i ∧ i < span.stop ∧
        ∀ t ∈ ts, t.span.stop ≤ span.start ∨ span.stop ≤ t.span.start) ∧
    (∀ before t u after, ts = before ++ t :: u :: after →
      (∀ s, Reaches (State.start source) (before ++ [t]) s → s.nesting.modes.head? = some .template →
        u.span.start = t.span.stop) ∧
      (Continues t.value → u.span.start = t.span.stop)) := by
  obtain ⟨s, reaches, ended, _⟩ := run_ok accepted
  have tiled := reaches.tiled
  have stop : s.pos = byteLength source.toList := by
    obtain ⟨done, whole, place⟩ := tiled.place
    rw [whole, ended, List.append_nil, place]
  refine ⟨fun t member => (tiled.spelled t member).1, tiled.ordered, ?_, ?_⟩
  · intro i inside
    rcases tiled.covered i (stop ▸ inside) with found | ⟨span, found, low, high, _, apart⟩
    · exact .inl found
    · exact .inr ⟨span, found, low, high, apart⟩
  · intro before t u after split
    have inTemplate (s : State) (behind : Reaches (State.start source) (before ++ [t]) s)
        (inText : s.nesting.modes.head? = some .template) : u.span.start = t.span.stop := by
      have rest : run s = .ok (u :: after) := by
        have whole := accepted.symm.trans behind.run_eq
        cases result : run s with
        | error d =>
          rw [result] at whole
          cases whole
        | ok us =>
          rw [result, split] at whole
          simpa [Except.map, eq_comm] using whole
      rw [next_start inText rest, behind.stop_eq inText]
    refine ⟨inTemplate, fun continues => ?_⟩
    rw [split] at reaches
    obtain ⟨p, q, first, inhabited, stepped, _⟩ := reaches.split
    have behind : Reaches (State.start source) (before ++ [t]) q := first.step inhabited stepped
    exact inTemplate q behind (behind.nested.opened.inText (by simp) continues)

deriving instance DecidableEq for Located

/-- A comment before a template with an escape and an interpolation, and one behind it. -/
def greeting : String := "x /* who */ := \x60a\\n\x7bb\x7d c\x60 // done"

def greetingTokens : List (Located Token) :=
  [⟨.ident "x", ⟨0, 1⟩⟩, ⟨.symbol .define, ⟨12, 14⟩⟩, ⟨.templateStart, ⟨15, 16⟩⟩, ⟨.templateText "a\n", ⟨16, 19⟩⟩,
    ⟨.interpOpen, ⟨19, 20⟩⟩, ⟨.ident "b", ⟨20, 21⟩⟩, ⟨.interpClose, ⟨21, 22⟩⟩, ⟨.templateText " c", ⟨22, 24⟩⟩,
    ⟨.templateEnd, ⟨24, 25⟩⟩]

theorem tokens_tile_text_greeting :
    tokenize greeting = .ok greetingTokens ∧ (∀ t ∈ greetingTokens, SpelledAt greeting.toList t) ∧
      ∃ span, TriviaAt greeting.toList span ∧ span.start ≤ 30 ∧ 30 < span.stop := by
  have accepted : tokenize greeting = .ok greetingTokens := by decide +kernel
  obtain ⟨spelled, _, covered, _⟩ := tokens_tile_text accepted
  refine ⟨accepted, spelled, ?_⟩
  rcases covered 30 (by decide) with ⟨t, member, _, high⟩ | ⟨span, trivia, low, high, _⟩
  · have early : ∀ t ∈ greetingTokens, t.span.stop ≤ 25 := by decide
    have := early t member
    omega
  · exact ⟨span, trivia, low, high⟩

end ViewLang.Lexer
