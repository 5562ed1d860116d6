import ViewLang.Proofs.Token.Spelling

namespace ViewLang.Lexer

theorem advance_eq {s : State} {width : Nat} (inhabited : s.rest ≠ []) (positive : 0 < width) (n : Nesting) :
    s.advance width n = ⟨s.pos + byteLength (s.rest.take width), s.rest.drop width, n⟩ := by
  obtain ⟨pos, rest, old⟩ := s
  obtain ⟨c, cs, rfl⟩ := List.exists_cons_of_ne_nil inhabited
  obtain ⟨w, rfl⟩ : ∃ w, width = w + 1 := ⟨width - 1, by omega⟩
  simp only [State.advance, Nat.add_sub_cancel, List.take_succ_cons, List.drop_succ_cons, byteLength_cons,
    Nat.add_assoc]

/-- A step passes over trivia, or takes a token that the characters spell and changes it as its surroundings ask. -/
theorem step_cases {s s' : State} {t : Option (Located Token)} (inhabited : s.rest ≠ [])
    (h : step s = .ok (t, s')) : ∃ width, 0 < width ∧ s'.pos = s.pos + byteLength (s.rest.take width) ∧
      s'.rest = s.rest.drop width ∧
      ((t = none ∧ s'.nesting = s.nesting ∧ front s.nesting.modes s.rest = .trivia width ∧
          Trivia (s.rest.take width) s'.rest) ∨
        ∃ u, t = some ⟨(transition s.pos s.nesting u).1, ⟨s.pos, s'.pos⟩⟩ ∧
          s'.nesting = (transition s.pos s.nesting u).2 ∧ front s.nesting.modes s.rest = .token u width ∧
          Spells u (s.rest.take width)) := by
  have fits := front_fits s.nesting.modes inhabited
  unfold step at h
  split at h
  · rename_i u width found
    rw [found] at fits
    obtain ⟨positive, spelled⟩ := fits
    cases changed : transition s.pos s.nesting u with
    | mk v n =>
      simp only [changed, advance_eq inhabited positive] at h
      cases h
      exact ⟨width, positive, rfl, rfl, .inr ⟨u, by rw [changed], by rw [changed], found, spelled⟩⟩
  · rename_i width found
    rw [found] at fits
    have positive : 0 < width := by
      rcases Nat.eq_zero_or_pos width with rfl | positive
      · exact absurd rfl fits.ne_nil
      · exact positive
    rw [advance_eq inhabited positive] at h
    cases h
    exact ⟨width, positive, rfl, rfl, .inl ⟨rfl, rfl, found, fits⟩⟩
  · cases h

theorem transition_spells {start : Nat} {n : Nesting} {u : Token} {piece : List Char} (spelled : Spells u piece) :
    Spells (transition start n u).1 piece := by
  unfold transition
  split <;> exact spelled

theorem step_code {s : State} {d : Diagnostic} (h : step s = .error d) : d.code ≠ some .openTemplate := by
  unfold step at h
  split at h
  · cases h
  · cases h
  · rename_i f _
    cases h
    cases f <;> exact nofun

/-- Steps from `s` on give the tokens and come to the last place. -/
inductive Reaches (s : State) : List (Located Token) → State → Prop
  | start : Reaches s [] s
  | step {ts : List (Located Token)} {t : Option (Located Token)} {s' s'' : State} (before : Reaches s ts s')
    (inhabited : s'.rest ≠ []) (stepped : step s' = .ok (t, s'')) : Reaches s (ts ++ t.toList) s''

theorem Reaches.trans {s s' s'' : State} {ts us : List (Located Token)} (first : Reaches s ts s')
    (second : Reaches s' us s'') : Reaches s (ts ++ us) s'' := by
  induction second with
  | start => rwa [List.append_nil]
  | step _ inhabited stepped ih =>
    rw [← List.append_assoc]
    exact .step ih inhabited stepped

theorem run_step {s s' : State} {t : Option (Located Token)} (inhabited : s.rest ≠ [])
    (stepped : step s = .ok (t, s')) : run s = (run s').map (t.toList ++ ·) := by
  rw [run, dif_neg inhabited]
  split
  · rename_i failed
    rw [stepped] at failed
    cases failed
  · rename_i same
    rw [stepped] at same
    cases same
    cases run s' <;> rfl

theorem run_refused {s : State} {d : Diagnostic} (inhabited : s.rest ≠ []) (refused : step s = .error d) :
    run s = .error d := by
  rw [run, dif_neg inhabited]
  split
  · rename_i failed
    rw [refused] at failed
    cases failed
    rfl
  · rename_i same
    rw [refused] at same
    cases same

/-- A run is what was read up to any of its places, then the run from there. -/
theorem Reaches.run_eq {s s' : State} {ts : List (Located Token)} (reaches : Reaches s ts s') :
    run s = (run s').map (ts ++ ·) := by
  induction reaches with
  | start => cases run s <;> rfl
  | @step ts t s' s'' _ inhabited stepped ih =>
    rw [ih, run_step inhabited stepped]
    cases run s'' with
    | error d => rfl
    | ok us => simp only [Except.map, List.append_assoc]

theorem run_of_end {s : State} (ended : s.rest = []) :
    run s = match s.nesting.starts with
      | start :: _ => .error (openTemplateDiagnostic start s.pos)
      | [] => .ok [] := by
  unfold run
  exact dif_pos ended

/-- Every run comes to the end of the text or to a place where it cannot go on. -/
theorem exists_end (s : State) : ∃ ts s', Reaches s ts s' ∧
    (s'.rest = [] ∨ ∃ d, step s' = .error d ∧ run s' = .error d) := by
  induction length : s.rest.length using Nat.strongRecOn generalizing s with
  | ind n ih =>
    by_cases ended : s.rest = []
    · exact ⟨[], s, .start, .inl ended⟩
    · cases stepped : step s with
      | error d => exact ⟨[], s, .start, .inr ⟨d, stepped, run_refused ended stepped⟩⟩
      | ok result =>
        obtain ⟨t, s'⟩ := result
        have shorter := step_rest_lt ended stepped
        obtain ⟨ts, last, reaches, finished⟩ := ih s'.rest.length (by omega) s' rfl
        exact ⟨[] ++ t.toList ++ ts, last, (Reaches.step .start ended stepped).trans reaches, finished⟩

/-- A text is read to its end with no template open. -/
theorem run_ok {s : State} {ts : List (Located Token)} (h : run s = .ok ts) :
    ∃ s', Reaches s ts s' ∧ s'.rest = [] ∧ s'.nesting.starts = [] := by
  obtain ⟨us, s', reaches, finished⟩ := exists_end s
  have whole := reaches.run_eq
  rw [h] at whole
  rcases finished with ended | ⟨d, _, failed⟩
  · rw [run_of_end ended] at whole
    split at whole
    · cases whole
    · have same : ts = us := by simpa [Except.map] using whole
      exact ⟨s', same ▸ reaches, ended, ‹_›⟩
  · rw [failed] at whole
    cases whole

/-- A text is refused at its end for the innermost open template, or at a place where no step can be taken. -/
theorem run_error {s : State} {d : Diagnostic} (h : run s = .error d) : ∃ ts s', Reaches s ts s' ∧
    ((s'.rest = [] ∧ ∃ start outer, s'.nesting.starts = start :: outer ∧ d = openTemplateDiagnostic start s'.pos) ∨
      (s'.rest ≠ [] ∧ step s' = .error d)) := by
  obtain ⟨ts, s', reaches, finished⟩ := exists_end s
  have refused : run s' = .error d := by
    have whole := reaches.run_eq
    rw [h] at whole
    cases result : run s' with
    | error d' =>
      rw [result] at whole
      cases whole
      rfl
    | ok us =>
      rw [result] at whole
      cases whole
  refine ⟨ts, s', reaches, ?_⟩
  by_cases ended : s'.rest = []
  · rw [run_of_end ended] at refused
    split at refused
    · rename_i start outer starts
      cases refused
      exact .inl ⟨ended, start, outer, starts, rfl⟩
    · cases refused
  · rcases finished with nothing | ⟨d', failed, same⟩
    · exact absurd nothing ended
    · rw [refused] at same
      cases same
      exact .inr ⟨ended, failed⟩

end ViewLang.Lexer
