import ViewLang.Go.File
import ViewLang.Proofs.Syntax.Words

namespace ViewLang.Go

inductive Bracket
  | round
  | square
  | curly
deriving DecidableEq

inductive Scan
  | code (stack : List Bracket)
  | slash (stack : List Bracket)
  | comment (stack : List Bracket)
  | string (stack : List Bracket)
  | escape (stack : List Bracket)
deriving DecidableEq

def opened? : Char → Option Bracket
  | '(' => some .round
  | '[' => some .square
  | '\x7b' => some .curly
  | _ => none

def closed? : Char → Option Bracket
  | ')' => some .round
  | ']' => some .square
  | '\x7d' => some .curly
  | _ => none

namespace Scan

/-- A character of code. A bracket closes the innermost one that is open. -/
def codeStep (stack : List Bracket) (c : Char) : Option Scan :=
  if c = '"' then some (string stack)
  else if c = '/' then some (slash stack)
  else match opened? c, closed? c with
    | some b, _ => some (code (b :: stack))
    | none, some b => if stack.head? = some b then some (code stack.tail) else none
    | none, none => some (code stack)

def step : Scan → Char → Option Scan
  | code stack, c => codeStep stack c
  | slash stack, c => if c = '/' then some (comment stack) else codeStep stack c
  | comment stack, c => some (if c = '\n' then code stack else comment stack)
  | string stack, c =>
    if c = '"' then some (code stack)
    else if c = '\\' then some (escape stack)
    else if c = '\n' then none
    else some (string stack)
  | escape stack, c => if c = '\n' then none else some (string stack)

def run (s : Scan) (cs : List Char) : Option Scan := cs.foldlM step s

@[simp] theorem run_nil (s : Scan) : s.run [] = some s := rfl

theorem run_cons (s : Scan) (c : Char) (cs : List Char) : s.run (c :: cs) = (s.step c).bind fun t => t.run cs :=
  List.foldlM_cons

theorem run_append (s : Scan) (cs ds : List Char) : s.run (cs ++ ds) = (s.run cs).bind fun t => t.run ds :=
  List.foldlM_append

def inside (outer : List Bracket) : Scan → Scan
  | code stack => code (stack ++ outer)
  | slash stack => slash (stack ++ outer)
  | comment stack => comment (stack ++ outer)
  | string stack => string (stack ++ outer)
  | escape stack => escape (stack ++ outer)

theorem codeStep_inside {stack outer : List Bracket} {c : Char} {s : Scan} (stepped : codeStep stack c = some s) :
    codeStep (stack ++ outer) c = some (s.inside outer) := by
  unfold codeStep at stepped ⊢
  split at stepped
  · cases stepped
    rw [if_pos ‹_›, inside]
  · rw [if_neg ‹_›]
    split at stepped
    · cases stepped
      rw [if_pos ‹_›, inside]
    · rw [if_neg ‹_›]
      split at stepped
      · cases stepped
        rfl
      · split at stepped
        · rename_i b _ _ top
          cases stepped
          obtain ⟨rest, rfl⟩ := List.head?_eq_some_iff.mp top
          simp [inside]
        · cases stepped
      · cases stepped
        rfl

theorem step_inside {s t : Scan} {c : Char} (outer : List Bracket) (stepped : s.step c = some t) :
    (s.inside outer).step c = some (t.inside outer) := by
  cases s with
  | code stack => exact codeStep_inside stepped
  | slash stack =>
    by_cases second : c = '/'
    · subst second
      cases stepped
      rfl
    · simp only [step, if_neg second, inside] at stepped ⊢
      exact codeStep_inside stepped
  | comment stack => grind [step, inside]
  | string stack => grind [step, inside]
  | escape stack => grind [step, inside]

theorem run_inside {s t : Scan} {cs : List Char} (outer : List Bracket) (ran : s.run cs = some t) :
    (s.inside outer).run cs = some (t.inside outer) := by
  induction cs generalizing s with
  | nil =>
    cases ran
    rfl
  | cons c cs ih =>
    rw [run_cons] at ran ⊢
    obtain ⟨next, stepped, ran⟩ := Option.bind_eq_some_iff.mp ran
    rw [step_inside outer stepped, Option.bind_some]
    exact ih ran

end Scan

def Carries (t : String) (a b : List Bracket) : Prop := (Scan.code a).run t.toList = some (.code b)

instance (t : String) (a b : List Bracket) : Decidable (Carries t a b) := inferInstanceAs (Decidable (_ = _))

/-- The text closes the brackets that it opens, and its string literals on their lines. -/
abbrev Balanced (t : String) : Prop := Carries t [] []

section

variable {t u : String} {a b c : List Bracket}

theorem Carries.append (first : Carries t a b) (second : Carries u b c) : Carries (t ++ u) a c := by
  rw [Carries, String.toList_append, Scan.run_append, show _ = some _ from first]
  exact second

theorem Carries.outside (carries : Carries t a b) (outer : List Bracket) : Carries t (a ++ outer) (b ++ outer) :=
  Scan.run_inside outer carries

theorem Carries.empty : Carries "" a a := rfl

theorem Balanced.anywhere (balanced : Balanced t) (stack : List Bracket) : Carries t stack stack :=
  balanced.outside stack

/-- A text followed by one that closes what it opens. -/
theorem Carries.text (first : Carries t a b) (second : Balanced u) : Carries (t ++ u) a b :=
  first.append (second.anywhere b)

/-- A text followed by one that leads to the brackets `c`. -/
theorem Carries.to (first : Carries t a b) (c : List Bracket) (second : Carries u b c) : Carries (t ++ u) a c :=
  first.append second

end

theorem opened?_word {c : Char} (word : isWordChar c = true) : opened? c = none := by
  unfold opened?
  split
  case h_4 => rfl
  all_goals exact absurd word (by decide)

theorem closed?_word {c : Char} (word : isWordChar c = true) : closed? c = none := by
  unfold closed?
  split
  case h_4 => rfl
  all_goals exact absurd word (by decide)

theorem ne_of_word {c d : Char} (word : isWordChar c = true) (mark : isWordChar d = false) : c ≠ d := by
  rintro rfl
  rw [word] at mark
  cases mark

theorem codeStep_word {c : Char} (word : isWordChar c = true) (stack : List Bracket) :
    Scan.codeStep stack c = some (.code stack) := by
  rw [Scan.codeStep, if_neg (ne_of_word word (by decide)), if_neg (ne_of_word word (by decide)), opened?_word word,
    closed?_word word]

/-- Characters of words leave the brackets as they are. -/
theorem words_run {cs : List Char} (stack : List Bracket) (word : ∀ c ∈ cs, isWordChar c = true) :
    (Scan.code stack).run cs = some (.code stack) := by
  induction cs with
  | nil => rfl
  | cons c cs ih =>
    rw [List.forall_mem_cons] at word
    rw [Scan.run_cons, Scan.step, codeStep_word word.1, Option.bind_some]
    exact ih word.2

end Go

theorem IsWord.balanced {s : String} (word : IsWord s) : Go.Balanced s := Go.words_run [] word

namespace Go

/-- In a string literal, what is no quote, backslash or end of line is passed over. -/
theorem string_run {cs : List Char} (stack : List Bracket) (each : ∀ c ∈ cs, c ≠ '"' ∧ c ≠ '\\' ∧ c ≠ '\n') :
    (Scan.string stack).run cs = some (.string stack) := by
  induction cs with
  | nil => rfl
  | cons c cs ih =>
    rw [List.forall_mem_cons] at each
    obtain ⟨⟨quote, backslash, newline⟩, others⟩ := each
    rw [Scan.run_cons, Scan.step, if_neg quote, if_neg backslash, if_neg newline, Option.bind_some]
    exact ih others

theorem hex_run (mark : Char) (width n : Nat) (other : mark ≠ '\n') (stack : List Bracket) :
    (Scan.string stack).run (['\\', mark] ++ Text.hexPadded width n) = some (.string stack) := by
  have opened : (Scan.string stack).run ['\\', mark] = some (.string stack) := by
    simp [Scan.run_cons, Scan.step, other]
  rw [Scan.run_append, opened, Option.bind_some]
  apply string_run
  intro c member
  have word := hexPadded_word width n c member
  exact ⟨ne_of_word word (by decide), ne_of_word word (by decide), ne_of_word word (by decide)⟩

theorem quoteChar_run (c : Char) (stack : List Bracket) :
    (Scan.string stack).run (quoteChar c) = some (.string stack) := by
  unfold quoteChar
  split
  · rfl
  · rfl
  · rfl
  · rfl
  · rfl
  · rename_i quote backslash newline _ _
    split
    · exact hex_run 'x' 2 _ (by decide) stack
    · split
      · exact hex_run 'u' 4 _ (by decide) stack
      · apply string_run
        rw [List.forall_mem_singleton]
        exact ⟨quote, backslash, newline⟩

theorem quote_balanced (s : String) : Balanced (quote s) := by
  have inside (cs : List Char) : (Scan.string []).run (cs.flatMap quoteChar) = some (.string []) := by
    induction cs with
    | nil => rfl
    | cons c cs ih => rw [List.flatMap_cons, Scan.run_append, quoteChar_run, Option.bind_some, ih]
  have opened : (Scan.code []).step '"' = some (.string []) := by decide
  rw [Balanced, Carries, quote, String.toList_ofList, List.cons_append, Scan.run_cons, opened, Option.bind_some,
    Scan.run_append, inside, Option.bind_some]
  rfl

def Remark (t : String) : Prop := (Scan.code []).run t.toList = some (.comment [])

instance (t : String) : Decidable (Remark t) := inferInstanceAs (Decidable (_ = _))

theorem Remark.text {t u : String} (remark : Remark t) (oneLine : '\n' ∉ u.toList) : Remark (t ++ u) := by
  have inside : ∀ cs : List Char, '\n' ∉ cs → (Scan.comment []).run cs = some (.comment []) := by
    intro cs
    induction cs with
    | nil => exact fun _ => rfl
    | cons c cs ih =>
      intro absent
      rw [List.mem_cons, not_or] at absent
      rw [Scan.run_cons, Scan.step, if_neg (Ne.symm absent.1), Option.bind_some]
      exact ih absent.2
  rw [Remark, String.toList_append, Scan.run_append, show _ = some _ from remark]
  exact inside _ oneLine

end Go

theorem IsWord.oneLine {s : String} (word : IsWord s) : '\n' ∉ s.toList := by
  intro member
  exact absurd (word '\n' member) (by decide)

namespace Go

theorem balanced_join {ts : List String} (each : ∀ t ∈ ts, Balanced t) : Balanced (String.join ts) := by
  induction ts with
  | nil => exact .empty
  | cons t ts ih =>
    rw [List.forall_mem_cons] at each
    rw [String.join_cons]
    exact each.1.text (ih each.2)

theorem balanced_intercalate {sep : String} (apart : Balanced sep) {ts : List String} (each : ∀ t ∈ ts, Balanced t) :
    Balanced (sep.intercalate ts) :=
  intercalate_gives .empty (fun _ _ first second => (first.text apart).text second) each

theorem balanced_replicate {t : String} (balanced : Balanced t) (n : Nat) :
    Balanced (String.join (List.replicate n t)) := by
  apply balanced_join
  intro u member
  rw [List.eq_of_mem_replicate member]
  exact balanced

theorem padRight_balanced {s : String} (balanced : Balanced s) (width : Nat) : Balanced (padRight width s) := by
  have spaces (n : Nat) : Balanced (String.ofList (List.replicate n ' ')) := by
    rw [Balanced, Carries, String.toList_ofList]
    induction n with
    | zero => rfl
    | succ n ih => exact ih
  exact balanced.text (spaces _)

theorem pad_balanced (level : Nat) : Balanced (Lower.pad level) := balanced_replicate (by decide) level

theorem balanced_commas {ts : List String} (each : ∀ t ∈ ts, Balanced t) : Balanced (", ".intercalate ts) :=
  balanced_intercalate (by decide) each

/-- Whatever the reader is in, it is in code behind the end of a line. -/
theorem step_newline {s t : Scan} (stepped : s.step '\n' = some t) : ∃ stack, t = .code stack := by
  have code (stack : List Bracket) : Scan.codeStep stack '\n' = some (.code stack) := rfl
  cases s with
  | code stack => exact ⟨stack, (Option.some.inj ((code stack).symm.trans stepped)).symm⟩
  | slash stack => exact ⟨stack, (Option.some.inj ((code stack).symm.trans stepped)).symm⟩
  | comment stack => exact ⟨stack, (Option.some.inj stepped).symm⟩
  | string stack => cases stepped
  | escape stack => cases stepped

theorem line_run {l : Line} {unit : String} {s t : Scan} (ran : s.run (l.render unit).toList = some t) :
    ∃ stack, t = .code stack := by
  have ends : ∃ text, l.render unit = text ++ "\n" := by
    cases l with
    | text n text => exact ⟨_, rfl⟩
    | blank => exact ⟨"", rfl⟩
  obtain ⟨text, same⟩ := ends
  rw [same, String.toList_append, Scan.run_append] at ran
  obtain ⟨last, _, ended⟩ := Option.bind_eq_some_iff.mp ran
  obtain ⟨next, stepped, stopped⟩ := Option.bind_eq_some_iff.mp ended
  cases stopped
  exact step_newline stepped

section

variable {d e : Doc} {l : Line} {a b c : List Bracket}

theorem carries_cons :
    Carries (Doc.render "\t" (l :: d)) a c ↔ ∃ b, Carries (l.render "\t") a b ∧ Carries (Doc.render "\t" d) b c := by
  constructor
  · intro carries
    rw [Carries, Doc.render_cons, String.toList_append, Scan.run_append] at carries
    obtain ⟨s, first, others⟩ := Option.bind_eq_some_iff.mp carries
    obtain ⟨b, rfl⟩ := line_run first
    exact ⟨b, first, others⟩
  · rintro ⟨b, first, others⟩
    rw [Doc.render_cons]
    exact first.append others

theorem carries_append :
    Carries (Doc.render "\t" (d ++ e)) a c ↔
      ∃ b, Carries (Doc.render "\t" d) a b ∧ Carries (Doc.render "\t" e) b c := by
  induction d generalizing a with
  | nil =>
    constructor
    · exact fun carries => ⟨a, .empty, carries⟩
    · rintro ⟨b, first, others⟩
      cases first
      exact others
  | cons l d ih =>
    rw [List.cons_append, carries_cons]
    simp only [carries_cons, ih]
    grind

structure Lays (d : Doc) (level : Nat) (a b : List Bracket) : Prop where
  carries : Carries (Doc.render "\t" d) a b
  deep : ∀ n s, Line.text n s ∈ d → level ≤ n

end

namespace Lays

variable {d e : Doc} {level : Nat} {a b c : List Bracket}

theorem nil : Lays [] level a a := ⟨.empty, by simp⟩

theorem append (first : Lays d level a b) (second : Lays e level b c) : Lays (d ++ e) level a c := by
  refine ⟨carries_append.mpr ⟨b, first.carries, second.carries⟩, ?_⟩
  intro n s member
  rcases List.mem_append.mp member with left | right
  · exact first.deep n s left
  · exact second.deep n s right

theorem shallower {less : Nat} (lays : Lays d level a b) (le : less ≤ level) : Lays d less a b :=
  ⟨lays.carries, fun n s member => le.trans (lays.deep n s member)⟩

theorem outside (lays : Lays d level a b) (outer : List Bracket) : Lays d level (a ++ outer) (b ++ outer) :=
  ⟨lays.carries.outside outer, lays.deep⟩

/-- Lines of a block, from the level of the lines around it. -/
theorem nested (body : Lays d (level + 1) [] []) (outer : List Bracket) : Lays d level outer outer :=
  (body.outside outer).shallower (Nat.le_succ level)

theorem line {s : String} (carries : Carries s a b) : Lays [.text level s] level a b := by
  constructor
  · rw [Doc.render_singleton]
    exact (((balanced_replicate (by decide) level).anywhere a).append carries).text (by decide)
  · intro n t member
    cases List.mem_singleton.mp member
    exact le_rfl

theorem cons {s : String} (first : Carries s a b) (others : Lays d level b c) :
    Lays (.text level s :: d) level a c := (line first).append others

theorem lines (each : ∀ l ∈ d, Lays [l] level a a) : Lays d level a a := by
  induction d with
  | nil => exact nil
  | cons l d ih =>
    rw [List.forall_mem_cons] at each
    exact each.1.append (ih each.2)

theorem blank : Lays Doc.blank level a a := by
  refine ⟨Carries.outside (show Balanced "\n" by decide) a, ?_⟩
  intro n s member
  cases List.mem_singleton.mp member

theorem indent (lays : Lays d level a b) : Lays (Doc.indent d) (level + 1) a b := by
  obtain ⟨carries, deep⟩ := lays
  constructor
  · induction d generalizing a with
    | nil => exact carries
    | cons l d ih =>
      obtain ⟨next, first, others⟩ := carries_cons.mp carries
      refine carries_cons.mpr ⟨next, ?_, ih others fun n s member => deep n s (List.mem_cons_of_mem l member)⟩
      cases l with
      | text n s =>
        have deeper : (Line.text n s).indent.render "\t" = "\t" ++ (Line.text n s).render "\t" := by
          simp [Line.indent, Line.render, List.replicate_succ, String.join_cons, String.append_assoc]
        rw [deeper]
        exact (Balanced.anywhere (by decide) a).append first
      | blank => exact first
  · intro n s member
    obtain ⟨l, member, same⟩ := List.mem_map.mp member
    cases l with
    | text m t =>
      cases same
      exact Nat.succ_le_succ (deep m s member)
    | blank => cases same

/-- A text that opens brackets, lines inside them, and a text that closes them. -/
theorem block {opening closing : String} (opens : Carries opening [] b) (body : Lays d 0 [] [])
    (closes : Carries closing b []) : Lays (Doc.block opening d closing) 0 [] [] :=
  ((line opens).append ((body.indent.outside b).shallower (Nat.zero_le 1))).append (line closes)

end Lays

/-- Behind the open brackets `a`, a line stands at the margin exactly where no bracket is open in front of it or behind
it. -/
def Levelled (a : List Bracket) (d : Doc) : Prop :=
  ∀ before n s after, d = before ++ .text n s :: after → ∃ outer inner,
    Carries (Doc.render "\t" before) a outer ∧ Carries (Doc.render "\t" [.text n s]) outer inner ∧
      (n = 0 ↔ outer = [] ∨ inner = [])

structure Margin (d : Doc) (a b : List Bracket) : Prop where
  carries : Carries (Doc.render "\t" d) a b
  levelled : Levelled a d

namespace Margin

variable {d e : Doc} {a b c : List Bracket}

theorem nil : Margin [] a a := ⟨.empty, by simp [Levelled]⟩

theorem append (first : Margin d a b) (second : Margin e b c) : Margin (d ++ e) a c := by
  refine ⟨carries_append.mpr ⟨b, first.carries, second.carries⟩, ?_⟩
  intro before n s after same
  rcases List.append_eq_append_iff.mp same with ⟨more, rfl, rest⟩ | ⟨more, rfl, rest⟩
  · obtain ⟨outer, inner, ahead, here, level⟩ := second.levelled more n s after rest
    exact ⟨outer, inner, carries_append.mpr ⟨b, first.carries, ahead⟩, here, level⟩
  · cases more with
    | nil =>
      rw [List.append_nil] at first
      obtain ⟨outer, inner, ahead, here, level⟩ := second.levelled [] n s after rest.symm
      cases ahead
      exact ⟨b, inner, first.carries, here, level⟩
    | cons l more =>
      cases rest
      exact first.levelled before n s more rfl

theorem flatten {ds : List Doc} (each : ∀ d ∈ ds, Margin d [] []) : Margin ds.flatten [] [] := by
  induction ds with
  | nil => exact nil
  | cons d ds ih =>
    obtain ⟨first, others⟩ := List.forall_mem_cons.mp each
    exact append first (ih others)

theorem blank : Margin Doc.blank a a := by
  refine ⟨(Lays.blank : Lays _ 0 a a).carries, ?_⟩
  intro before n s after same
  cases List.mem_singleton.mp (same ▸ List.mem_append_right before List.mem_cons_self)

/-- A line at the margin, outside brackets at one of its ends. -/
theorem single {s : String} (carries : Carries (Doc.render "\t" (Doc.line s)) a b) (edge : a = [] ∨ b = []) :
    Margin (Doc.line s) a b := by
  refine ⟨carries, ?_⟩
  intro before n t after same
  cases before with
  | nil =>
    cases same
    exact ⟨a, b, .empty, carries, by simp [edge]⟩
  | cons l before => simp [Doc.line] at same

theorem line {s : String} (balanced : Balanced s) : Margin (Doc.line s) [] [] :=
  single (Lays.line balanced : Lays _ 0 [] []).carries (.inl rfl)

theorem comment {s : String} (remark : Remark s) : Margin (Doc.line s) [] [] := by
  refine single ?_ (.inl rfl)
  rw [Doc.line, Doc.render_singleton, Carries, Line.render, List.replicate_zero, String.toList_append, Scan.run_append]
  rw [show String.join [] ++ s = s from String.empty_append, show _ = some _ from remark]
  rfl

theorem inside (body : Lays d 1 [] []) (bracket : Bracket) : Margin d [bracket] [bracket] := by
  refine ⟨body.carries.outside [bracket], ?_⟩
  rintro before n s after rfl
  obtain ⟨outer, ahead, rest⟩ := carries_append.mp body.carries
  obtain ⟨inner, here, _⟩ := carries_cons.mp rest
  rw [← Doc.render_singleton] at here
  refine ⟨outer ++ [bracket], inner ++ [bracket], ahead.outside _, here.outside _, ?_⟩
  have deep := body.deep n s (List.mem_append_right before List.mem_cons_self)
  simp only [List.append_eq_nil_iff, List.cons_ne_nil, and_false, or_false, iff_false]
  omega

theorem opening {s : String} {bracket : Bracket} (opens : Carries s [] [bracket]) :
    Margin (Doc.line s) [] [bracket] := single (Lays.line opens : Lays _ 0 [] [bracket]).carries (.inl rfl)

theorem closing {s : String} {bracket : Bracket} (closes : Carries s [bracket] []) :
    Margin (Doc.line s) [bracket] [] := single (Lays.line closes : Lays _ 0 [bracket] []).carries (.inr rfl)

/-- A declaration: a line that opens a bracket, lines inside it, and a line that closes it. -/
theorem block {first last : String} {bracket : Bracket} (opens : Carries first [] [bracket])
    (body : Lays d 0 [] []) (closes : Carries last [bracket] []) : Margin (Doc.block first d last) [] [] :=
  ((opening opens).append (inside body.indent bracket)).append (closing closes)

end Margin

/-- Where the reader goes on from a blank, the line can end before the blank as well. -/
theorem step_blank {s t u : Scan} {c : Char} (blank : Text.isBlank c = true) (stepped : s.step c = some t)
    (ended : t.step '\n' = some u) : s.step '\n' = some u := by
  have other {d : Char} (shown : Text.isBlank d = false) : c ≠ d := by
    rintro rfl
    rw [blank] at shown
    cases shown
  have opens : opened? c = none := by
    unfold opened?
    split
    case h_4 => rfl
    all_goals exact absurd blank (by decide)
  have closes : closed? c = none := by
    unfold closed?
    split
    case h_4 => rfl
    all_goals exact absurd blank (by decide)
  have code (stack : List Bracket) : Scan.codeStep stack c = some (.code stack) := by
    rw [Scan.codeStep, if_neg (other (by decide)), if_neg (other (by decide)), opens, closes]
  cases s with
  | code stack =>
    cases (code stack).symm.trans stepped
    exact ended
  | slash stack =>
    rw [Scan.step, if_neg (other (by decide)), code] at stepped
    cases stepped
    exact ended
  | comment stack =>
    simp only [Scan.step, Option.some.injEq] at stepped
    subst stepped
    split at ended <;> exact ended
  | string stack =>
    -- A blank does not close a string literal, and its line cannot end in one.
    simp only [Scan.step, if_neg (other (d := '"') (by decide)), if_neg (other (d := '\\') (by decide))] at stepped
    split at stepped
    · cases stepped
    · cases stepped
      cases ended
  | escape stack =>
    simp only [Scan.step] at stepped
    split at stepped
    · cases stepped
    · cases stepped
      cases ended

theorem run_blanks {s : Scan} {cs : List Char} {stack : List Bracket} (blank : ∀ c ∈ cs, Text.isBlank c = true)
    (ran : s.run cs = some (.code stack)) : s.step '\n' = some (.code stack) := by
  induction cs generalizing s with
  | nil =>
    cases ran
    rfl
  | cons c cs ih =>
    rw [List.forall_mem_cons] at blank
    rw [Scan.run_cons] at ran
    obtain ⟨next, stepped, ran⟩ := Option.bind_eq_some_iff.mp ran
    exact step_blank blank.1 stepped (ih blank.2 ran)

/-- A text stays balanced when the blanks at its end give way to the end of a line. -/
theorem trimEnd_balanced {t : String} (balanced : Balanced t) : Balanced (Text.trimEnd t ++ "\n") := by
  have parts : t.toList = (Text.trimEnd t).toList ++ (t.toList.reverse.takeWhile Text.isBlank).reverse := by
    rw [Text.trimEnd, String.toList_ofList, ← List.reverse_append, List.takeWhile_append_dropWhile,
      List.reverse_reverse]
  have blanks : ∀ c ∈ (t.toList.reverse.takeWhile Text.isBlank).reverse, Text.isBlank c = true := by
    intro c member
    exact List.mem_takeWhile_imp (List.mem_reverse.mp member)
  rw [Balanced, Carries, parts, Scan.run_append] at balanced
  obtain ⟨s, shown, rest⟩ := Option.bind_eq_some_iff.mp balanced
  rw [Balanced, Carries, String.toList_append, Scan.run_append, shown, Option.bind_some]
  exact (congrArg (·.bind fun t => t.run []) (run_blanks blanks rest)).trans rfl

end ViewLang.Go
