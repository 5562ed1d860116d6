import Mathlib.Data.String.Basic
import ViewLang.Proofs.Token.Partition

namespace ViewLang

open String.Pos (Raw)

theorem byteLength_eq (cs : List Char) : byteLength cs = (String.ofList cs).utf8ByteSize := by
  induction cs with
  | nil => rfl
  | cons c cs ih =>
    rw [byteLength_cons, ih, String.ofList_cons, String.utf8ByteSize_append, String.utf8ByteSize_singleton]

theorem isValid_iff {source : String} {n : Nat} :
    Raw.IsValid source ⟨n⟩ ↔ ∃ i, n = byteLength (source.toList.take i) := by
  simp only [Raw.isValid_iff_exists_take_toList, byteLength_eq]

theorem byteLength_take_le (cs : List Char) (i : Nat) : byteLength (cs.take i) ≤ byteLength cs := by
  have whole := congrArg byteLength (List.take_append_drop i cs)
  rw [byteLength_append] at whole
  omega

theorem isValid_of_split {source : String} {before after : List Char} (whole : source.toList = before ++ after) :
    Raw.IsValid source ⟨byteLength before⟩ :=
  isValid_iff.mpr ⟨before.length, by rw [whole, List.take_left]⟩

/-- One byte behind the start of a character the next one starts, if the character has a single byte. -/
theorem isValid_next_byte_iff {source : String} {before after : List Char} {c : Char}
    (whole : source.toList = before ++ c :: after) :
    Raw.IsValid source ⟨byteLength before + 1⟩ ↔ c.utf8Size = 1 := by
  rw [isValid_iff, whole]
  constructor
  · rintro ⟨i, same⟩
    rcases Nat.lt_or_ge before.length i with behind | inside
    · obtain ⟨j, rfl⟩ := Nat.exists_eq_add_of_lt behind
      have size := c.utf8Size_pos
      rw [Nat.add_assoc, List.take_length_add_append, List.take_succ_cons, byteLength_append, byteLength_cons] at same
      omega
    · rw [List.take_append_of_le_length inside] at same
      have short := byteLength_take_le before i
      omega
  · intro single
    refine ⟨before.length + 1, ?_⟩
    rw [List.take_length_add_append, List.take_succ_cons, List.take_zero, byteLength_append, byteLength_cons, single]
    rfl

/-- The character at the offset behind those before it. -/
theorem get_of_split {source : String} {before after : List Char} {c : Char}
    (whole : source.toList = before ++ c :: after) : Raw.get source ⟨byteLength before⟩ = c := by
  have found := String.get_of_valid before (c :: after)
  rwa [← whole, String.ofList_toList, ← String.utf8ByteSize_ofList, ← byteLength_eq] at found

namespace Lexer

def Fault.StandsIn (cs : List Char) : Fault → Prop
  | openString _ => True
  | badStringEscape w => ∃ more, cs.drop w = '\\' :: more
  | badTemplateEscape w => ∃ more, cs.drop w = '\\' :: more
  | openComment => ∃ more, cs = '/' :: '*' :: more
  | badCharacter => True

theorem cons_badEscape {c : Char} {n width : Nat} {run : Run} (h : run.cons c n = .badEscape width) :
    ∃ w, run = .badEscape w ∧ width = n + w := by
  cases run with
  | closed more w => cases h
  | unclosed w => cases h
  | badEscape w =>
    cases h
    exact ⟨w, rfl, rfl⟩

theorem stringRest_badEscape {cs : List Char} {width : Nat} (h : stringRest cs = .badEscape width) :
    ∃ more, cs.drop width = '\\' :: more := by
  fun_induction stringRest cs generalizing width with
  | case1 => cases h
  | case2 =>
    cases h
    exact ⟨_, rfl⟩
  | case3 e cs c known ih =>
    obtain ⟨w, bad, rfl⟩ := cons_badEscape h
    rw [Nat.add_comm]
    exact ih bad
  | case4 =>
    cases h
    exact ⟨_, rfl⟩
  | case5 => cases h
  | case6 => cases h
  | case7 c cs _ _ _ _ ih =>
    obtain ⟨w, bad, rfl⟩ := cons_badEscape h
    rw [Nat.add_comm]
    exact ih bad

theorem templateRun_badEscape {cs : List Char} {width : Nat} (h : templateRun cs = .badEscape width) :
    ∃ more, cs.drop width = '\\' :: more := by
  fun_induction templateRun cs generalizing width with
  | case1 => cases h
  | case2 =>
    cases h
    exact ⟨_, rfl⟩
  | case3 e cs c known ih =>
    obtain ⟨w, bad, rfl⟩ := cons_badEscape h
    rw [Nat.add_comm]
    exact ih bad
  | case4 =>
    cases h
    exact ⟨_, rfl⟩
  | case5 => cases h
  | case6 c cs _ _ _ ih =>
    obtain ⟨w, bad, rfl⟩ := cons_badEscape h
    rw [Nat.add_comm]
    exact ih bad

theorem number_fault {cs : List Char} {f : Fault} (read : number cs = .fault f) : f = .badCharacter := by
  simp only [number] at read
  split at read <;> cases read
  rfl

theorem codeFront_fault {cs : List Char} {f : Fault} (read : codeFront cs = .fault f) : f.StandsIn cs := by
  unfold codeFront at read
  split at read
  · cases read
  · split at read <;> cases read
    exact ⟨_, rfl⟩
  · split at read <;> cases read
    · exact True.intro
    · rename_i w bad
      rw [Fault.StandsIn, Nat.add_comm, List.drop_succ_cons]
      exact stringRest_badEscape bad
  · cases read
  · split at read
    · cases read
      exact True.intro
    · split at read
      · cases read
      · split at read
        · rw [number_fault read]
          exact True.intro
        · split at read
          · simp only [word] at read
            split at read <;> cases read
          · split at read <;> cases read
            exact True.intro

theorem templateFront_fault {cs : List Char} {f : Fault} (read : templateFront cs = .fault f) : f.StandsIn cs := by
  unfold templateFront at read
  split at read
  · cases read
  · cases read
  · split at read <;> cases read
    · exact True.intro
    · exact templateRun_badEscape ‹_›

theorem front_fault {modes : List Mode} {cs : List Char} {f : Fault} (read : front modes cs = .fault f) :
    f.StandsIn cs := by
  unfold front at read
  split at read
  · exact templateFront_fault read
  · exact codeFront_fault read

/-- The diagnostic has one label, which starts between two characters and covers a part of the text. It ends between
two characters exactly if it does not mark a character of several bytes that no token starts with. -/
structure MarkedBy (source : String) (d : Diagnostic) (label : Label) : Prop where
  labels : d.labels = [label]
  ordered : label.span.start ≤ label.span.stop
  inside : label.span.stop ≤ source.utf8ByteSize
  start_valid : Raw.IsValid source ⟨label.span.start⟩
  stop_valid_iff : Raw.IsValid source ⟨label.span.stop⟩ ↔
    (d.code = some .badCharacter → (Raw.get source ⟨label.span.start⟩).utf8Size = 1)

theorem utf8ByteSize_eq (source : String) : source.utf8ByteSize = byteLength source.toList := by
  rw [byteLength_eq, String.ofList_toList]

theorem markedBy_of_splits {source : String} {d : Diagnostic} {label : Label} (before piece after : List Char)
    (whole : source.toList = before ++ (piece ++ after)) (labels : d.labels = [label])
    (span : label.span = ⟨byteLength before, byteLength before + byteLength piece⟩)
    (known : d.code ≠ some .badCharacter) : MarkedBy source d label := by
  have stop : Raw.IsValid source ⟨byteLength before + byteLength piece⟩ := by
    rw [← byteLength_append]
    exact isValid_of_split (whole.trans (List.append_assoc _ _ _).symm)
  refine ⟨labels, ?_, ?_, ?_, ?_⟩ <;> rw [span]
  · exact Nat.le_add_right _ _
  · exact stop.le_utf8ByteSize
  · exact isValid_of_split whole
  · exact iff_of_true stop fun same => absurd same known

/-- The label of a character that no token starts with covers one byte. -/
theorem markedBy_of_character {source : String} {d : Diagnostic} {label : Label} {before after : List Char} {c : Char}
    (whole : source.toList = before ++ c :: after) (labels : d.labels = [label])
    (span : label.span = ⟨byteLength before, byteLength before + 1⟩) (unknown : d.code = some .badCharacter) :
    MarkedBy source d label := by
  refine ⟨labels, ?_, ?_, ?_, ?_⟩ <;> rw [span]
  · exact Nat.le_succ _
  · have size := c.utf8Size_pos
    rw [utf8ByteSize_eq, whole, byteLength_append, byteLength_cons]
    dsimp only
    omega
  · exact isValid_of_split whole
  · rw [isValid_next_byte_iff whole, get_of_split whole]
    exact ⟨fun single _ => single, fun single => single unknown⟩

variable {source : String} {s : State} {ts : List (Located Token)}

/-- A fault is marked where the lexer stands, or behind some characters from there. -/
theorem fault_marked (tiled : Tiled source.toList s ts) (inhabited : s.rest ≠ []) {f : Fault}
    (stands : f.StandsIn s.rest) : ∃ label, MarkedBy source (f.diagnostic s) label := by
  obtain ⟨done, whole, place⟩ := tiled.place
  -- A backslash behind `w` characters is marked with its one byte.
  have backslash (w : Nat) {d : Diagnostic} {label : Label} (more : List Char) (found : s.rest.drop w = '\\' :: more)
      (labels : d.labels = [label]) (span : label.span = ⟨s.offset w, s.offset w + 1⟩)
      (known : d.code ≠ some .badCharacter) : MarkedBy source d label := by
    refine markedBy_of_splits (done ++ s.rest.take w) ['\\'] more ?_ labels ?_ known
    · rw [List.append_assoc, List.singleton_append, ← found, List.take_append_drop]
      exact whole
    · rw [span, State.offset, place, byteLength_append]
      rfl
  cases f with
  | openString w =>
    refine ⟨_, markedBy_of_splits done (s.rest.take w) (s.rest.drop w) ?_ rfl ?_ nofun⟩
    · rw [List.take_append_drop]
      exact whole
    · rw [← place]
      rfl
  | badStringEscape w =>
    obtain ⟨more, found⟩ := stands
    exact ⟨_, backslash w more found rfl rfl nofun⟩
  | badTemplateEscape w =>
    obtain ⟨more, found⟩ := stands
    exact ⟨_, backslash w more found rfl rfl nofun⟩
  | openComment =>
    obtain ⟨more, found⟩ := stands
    refine ⟨_, markedBy_of_splits done ['/', '*'] more ?_ rfl ?_ nofun⟩
    · rw [found] at whole
      exact whole
    · rw [← place]
      rfl
  | badCharacter =>
    obtain ⟨c, more, found⟩ := List.exists_cons_of_ne_nil inhabited
    rw [found] at whole
    refine ⟨_, markedBy_of_character whole rfl ?_ rfl⟩
    rw [← place]

/-- The noted start of an open template is that of a token. -/
theorem Opened.start_of_token {modes : List Mode} {starts : List Nat} (opened : Opened modes starts ts) :
    ∀ start ∈ starts, ∃ t ∈ ts, t.span.start = start := by
  induction opened with
  | root _ => exact nofun
  | template first _ _ _ _ ih =>
    intro start member
    rcases List.mem_cons.mp member with rfl | outer
    · exact ⟨first, by simp, rfl⟩
    · obtain ⟨t, inside, same⟩ := ih start outer
      exact ⟨t, List.mem_append_left _ inside, same⟩
  | interp _ _ _ ih =>
    intro start member
    obtain ⟨t, inside, same⟩ := ih start member
    exact ⟨t, List.mem_append_left _ inside, same⟩

/-- An open template is marked from its backtick to the end of the text. -/
theorem openTemplate_marked (reaches : Reaches (State.start source) ts s) (ended : s.rest = []) {start : Nat}
    (noted : start ∈ s.nesting.starts) : ∃ label, MarkedBy source (openTemplateDiagnostic start s.pos) label := by
  obtain ⟨t, member, rfl⟩ := reaches.nested.opened.start_of_token start noted
  obtain ⟨⟨-, piece, rest, ⟨before, whole, place, -⟩, -⟩, -⟩ := reaches.tiled.spelled t member
  obtain ⟨done, all, stop⟩ := reaches.tiled.place
  rw [ended, List.append_nil] at all
  refine ⟨_, markedBy_of_splits before (piece ++ rest) [] ?_ rfl ?_ nofun⟩
  · rw [List.append_nil]
    exact whole
  · rw [stop, ← all, whole, byteLength_append, place]

/-- The refusal of a text holds one diagnostic with one label, which marks a part of the text from one character on. Of
a character of several bytes that no token starts with, the label covers the first byte; every other label ends
between two characters. -/
theorem refusal_marked {source : String} {d : Diagnostic} (refused : tokenize source = .error d) :
    (Rejection.ofDiagnostic d).diagnostics = [d] ∧ ∃ label, MarkedBy source d label := by
  refine ⟨rfl, ?_⟩
  obtain ⟨ts, s, reaches, ⟨ended, start, outer, starts, rfl⟩ | ⟨inhabited, failed⟩⟩ := run_error refused
  · exact openTemplate_marked reaches ended (starts ▸ List.mem_cons_self)
  · unfold step at failed
    split at failed
    · cases failed
    · cases failed
    · rename_i f read
      cases failed
      exact fault_marked reaches.tiled inhabited (front_fault read)

/-- A character of three bytes that no token starts with. -/
theorem refusal_marked_wide :
    ∃ d, tokenize "x \u4e2d" = .error d ∧ (Rejection.ofDiagnostic d).diagnostics = [d] ∧
      ∃ label, MarkedBy "x \u4e2d" d label ∧ label.span = ⟨2, 3⟩ := by
  have refused : tokenize "x \u4e2d" = .error (Fault.badCharacter.diagnostic ⟨2, ['\u4e2d'], ⟨[], []⟩⟩) := by
    decide +kernel
  obtain ⟨one, label, marked⟩ := refusal_marked refused
  refine ⟨_, refused, one, label, marked, ?_⟩
  have only := marked.labels
  cases only
  rfl

/-- A label that ends inside of a character. -/
theorem label_cuts_character :
    ∃ d label, tokenize "\u00e9" = .error d ∧ d.labels = [label] ∧ ¬ Raw.IsValid "\u00e9" ⟨label.span.stop⟩ := by
  refine ⟨Fault.badCharacter.diagnostic (State.start "\u00e9"), _, by decide +kernel, rfl, ?_⟩
  decide +kernel

end Lexer
end ViewLang
