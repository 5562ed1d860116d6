import Mathlib.Logic.Function.Iterate
import ViewLang.Proofs.Gpu.ShaderText

namespace ViewLang.Gpu.Wgsl

def blockStep (n : Nat) (c : Char) : Option Nat :=
  if c = '\x7b' then some (n + 1)
  else if c = '\x7d' then if n = 0 then none else some (n - 1)
  else some n

def openBlocks (n : Nat) (cs : List Char) : Option Nat := cs.foldlM blockStep n

def textLines (text : String) : List (List Char) := text.toList.splitOn '\n'

def leading (line : List Char) : Nat := (line.takeWhile (· = ' ')).length

def visible (line : List Char) : List Char := line.dropWhile (· = ' ')

def depth (n : Nat) (line : List Char) : Nat := if (visible line).head? = some '\x7d' then n - 1 else n

/-- The braces of the text match, and each line that is not blank is indented by four spaces for each block around
it. -/
structure BlockStructured (text : String) : Prop where
  balanced : openBlocks 0 text.toList = some 0
  indented : ∀ before line after, textLines text = before ++ line :: after → visible line ≠ [] →
    ∃ n, openBlocks 0 before.flatten = some n ∧ leading line = 4 * depth n line

abbrev Scopes := List (List String)

def declaredBy (words : String) (line : List Char) : List String :=
  if words.toList.isPrefixOf line then [String.ofList ((line.drop words.toList.length).takeWhile Lexer.isIdentChar)]
  else []

namespace Scopes

def declare (names : List String) : Scopes → Scopes
  | [] => []
  | scope :: outer => (names ++ scope) :: outer

def step (header : List String) (scopes : Scopes) (c : Char) : Scopes :=
  if c = '\x7b' then header :: scopes else if c = '\x7d' then scopes.tail else scopes

def line (scopes : Scopes) (cs : List Char) : Scopes :=
  (visible cs).foldl (step (declaredBy "for (var " (visible cs))) (scopes.declare (declaredBy "var " (visible cs)))

end Scopes

def namesIn (text : String) : Scopes := (textLines text).foldl Scopes.line [[]]

section

variable {n m : Nat} {cs ds : List Char} {s : String}

theorem openBlocks_append : openBlocks n (cs ++ ds) = (openBlocks n cs).bind fun m => openBlocks m ds :=
  List.foldlM_append

theorem openBlocks_cons {c : Char} : openBlocks n (c :: cs) = (blockStep n c).bind fun m => openBlocks m cs :=
  List.foldlM_cons

theorem openBlocks_flat (n : Nat) (flat : ∀ c ∈ cs, c ≠ '\x7b' ∧ c ≠ '\x7d') : openBlocks n cs = some n := by
  induction cs with
  | nil => rfl
  | cons c cs ih =>
    obtain ⟨⟨opening, closing⟩, others⟩ := List.forall_mem_cons.mp flat
    rw [openBlocks_cons, blockStep, if_neg opening, if_neg closing, Option.bind_some]
    exact ih others

theorem Flat.openBlocks (flat : Flat s) (n : Nat) : openBlocks n s.toList = some n :=
  openBlocks_flat n fun c member => ⟨(flat c member).1, (flat c member).2.1⟩

theorem Flat.oneLine (flat : Flat s) : '\n' ∉ s.toList := fun member => (flat _ member).2.2 rfl

theorem blockStep_succ {c : Char} (stepped : blockStep n c = some m) : blockStep (n + 1) c = some (m + 1) := by
  unfold blockStep at stepped ⊢
  grind

theorem openBlocks_succ (ran : openBlocks n cs = some m) : openBlocks (n + 1) cs = some (m + 1) := by
  induction cs generalizing n with
  | nil =>
    cases ran
    rfl
  | cons c cs ih =>
    rw [openBlocks_cons] at ran ⊢
    obtain ⟨k, stepped, ran⟩ := Option.bind_eq_some_iff.mp ran
    rw [blockStep_succ stepped, Option.bind_some]
    exact ih ran

/-- Nothing that is in scope outside the blocks which are open depends on the text. -/
theorem scopes_run (header : List String) (ran : openBlocks n cs = some m) (scopes : Scopes)
    (height : scopes.length = n + 1) :
    ∃ scopes' : Scopes, scopes'.length = m + 1 ∧
      ∀ outer, cs.foldl (Scopes.step header) (scopes ++ outer) = scopes' ++ outer := by
  induction cs generalizing n scopes with
  | nil =>
    cases ran
    exact ⟨scopes, height, fun _ => rfl⟩
  | cons c cs ih =>
    rw [openBlocks_cons] at ran
    obtain ⟨k, stepped, ran⟩ := Option.bind_eq_some_iff.mp ran
    unfold blockStep at stepped
    split at stepped
    · rename_i opening
      cases stepped
      obtain ⟨scopes', height', rest⟩ := ih ran (header :: scopes) (by simp [height])
      refine ⟨scopes', height', fun outer => ?_⟩
      rw [List.foldl_cons, Scopes.step, if_pos opening]
      exact rest outer
    · rename_i other
      split at stepped
      · rename_i closing
        split at stepped
        · cases stepped
        · rename_i positive
          cases stepped
          obtain ⟨scope, inner, rfl⟩ := List.exists_cons_of_length_pos (by omega : 0 < scopes.length)
          rw [List.length_cons] at height
          obtain ⟨scopes', height', rest⟩ := ih ran inner (by omega)
          refine ⟨scopes', height', fun outer => ?_⟩
          rw [List.foldl_cons, Scopes.step, if_neg other, if_pos closing]
          exact rest outer
      · rename_i plain
        cases stepped
        obtain ⟨scopes', height', rest⟩ := ih ran scopes height
        refine ⟨scopes', height', fun outer => ?_⟩
        rw [List.foldl_cons, Scopes.step, if_neg other, if_neg plain]
        exact rest outer

theorem Starts.head (starts : Starts s) : ∀ c ∈ s.toList.head?, c ≠ ' ' := by
  obtain ⟨c, first, nonblank⟩ := starts
  intro d second
  cases first.symm.trans second
  exact nonblank

theorem leading_replicate (k : Nat) (starts : ∀ c ∈ cs.head?, c ≠ ' ') : leading (List.replicate k ' ' ++ cs) = k := by
  rw [leading, Lexer.takeWhile_eq_left (by simp), List.length_replicate]
  simpa using starts

theorem visible_replicate (k : Nat) (starts : ∀ c ∈ cs.head?, c ≠ ' ') : visible (List.replicate k ' ' ++ cs) = cs := by
  rw [visible, List.dropWhile_append_of_pos (by simp)]
  cases cs with
  | nil => rfl
  | cons c cs => rw [List.dropWhile_cons_of_neg (by simpa using starts)]

end

end ViewLang.Gpu.Wgsl

namespace ViewLang

def Line.chars : Line → List Char
  | .text level s => List.replicate (4 * level) ' ' ++ s.toList
  | .blank => []

theorem Line.render_toList (l : Line) : (l.render "    ").toList = l.chars ++ ['\n'] := by
  cases l with
  | blank => rfl
  | text level s =>
    have padding : (String.join (List.replicate level "    ")).toList = List.replicate (4 * level) ' ' := by
      induction level with
      | zero => rfl
      | succ level ih =>
        rw [List.replicate_succ, String.join_cons, String.toList_append, ih, Nat.mul_succ, Nat.add_comm,
          List.replicate_add]
        rfl
    rw [Line.render, String.toList_append, String.toList_append, padding]
    rfl

namespace Gpu.Wgsl

inductive Sits (a : Nat) : Line → Nat → Prop
  | blank : Sits a .blank a
  | text {level b : Nat} {s : String} (starts : Starts s) (oneLine : '\n' ∉ s.toList)
    (leads : openBlocks a s.toList = some b) (indented : level = depth a s.toList) : Sits a (.text level s) b

namespace Sits

variable {a b : Nat} {l : Line} {s : String}

theorem indent (sits : Sits a l b) : Sits (a + 1) l.indent (b + 1) := by
  cases sits with
  | blank => exact .blank
  | text starts oneLine leads indented =>
    refine .text starts oneLine (openBlocks_succ leads) ?_
    rw [indented, depth, depth]
    split
    · rename_i closing
      -- There is a block that the brace closes.
      obtain ⟨c, first, nonblank⟩ := starts
      obtain ⟨cs, same⟩ := List.head?_eq_some_iff.mp first
      rw [same] at closing leads
      have brace : c = '\x7d' := by
        rw [visible, List.dropWhile_cons_of_neg (by simpa using nonblank)] at closing
        exact Option.some.inj closing
      rw [brace, openBlocks_cons, blockStep] at leads
      cases a with
      | zero => simp at leads
      | succ a => rfl
    · rfl

theorem flat (shown : Shown s) : Sits 0 (.text 0 s) 0 :=
  .text shown.1 shown.flat.oneLine (shown.flat.openBlocks 0) (by rw [depth, ite_self])

theorem opening (shown : Shown s) : Sits 0 (.text 0 (s ++ " \x7b")) 1 := by
  refine .text (shown.1.append _) ?_ ?_ (by rw [depth, ite_self])
  · rw [String.toList_append, List.mem_append, not_or]
    exact ⟨shown.flat.oneLine, by decide⟩
  · rw [String.toList_append, openBlocks_append, shown.flat.openBlocks, Option.bind_some]
    rfl

theorem clause : Sits 0 (.text 0 "\x7b") 1 := .text (by decide) (by decide) rfl rfl

theorem closing : Sits 1 (.text 0 "\x7d") 0 := .text (by decide) (by decide) rfl rfl

theorem otherwise : Sits 1 (.text 0 "\x7d else \x7b") 1 := .text (by decide) (by decide) rfl rfl

theorem elseIf (flat : Flat s) : Sits 1 (.text 0 ("\x7d else if " ++ s ++ " \x7b")) 1 := by
  rw [String.append_assoc]
  refine .text (Starts.append (by decide) _) ?_ ?_ ?_
  · rw [String.toList_append, String.toList_append, List.mem_append, List.mem_append, not_or, not_or]
    exact ⟨by decide, flat.oneLine, by decide⟩
  · have closed : openBlocks 1 "\x7d else if ".toList = some 0 := by decide
    rw [String.toList_append, String.toList_append, openBlocks_append, closed, Option.bind_some, openBlocks_append,
      flat.openBlocks, Option.bind_some]
    rfl
  · rw [String.toList_append]
    rfl

theorem chars_ends (sits : Sits a l b) : '\n' ∉ l.chars := by
  cases sits with
  | blank => exact List.not_mem_nil
  | text _ oneLine _ _ =>
    rw [Line.chars, List.mem_append, not_or]
    refine ⟨fun member => ?_, oneLine⟩
    cases List.eq_of_mem_replicate member

theorem chars_leads (sits : Sits a l b) : openBlocks a l.chars = some b := by
  cases sits with
  | blank => rfl
  | text _ _ leads _ =>
    rw [Line.chars, openBlocks_append, openBlocks_flat a (by simp), Option.bind_some]
    exact leads

theorem chars_indented (sits : Sits a l b) (shown : visible l.chars ≠ []) :
    leading l.chars = 4 * depth a l.chars := by
  cases sits with
  | blank => exact absurd rfl shown
  | @text level _ s starts _ _ indented =>
    have plain : visible s.toList = s.toList := visible_replicate 0 (Starts.head starts)
    have head := Starts.head starts
    rw [Line.chars, leading_replicate _ head, indented, depth, depth, visible_replicate _ head, plain]

/-- How deep a line stands makes no difference to what it declares. -/
theorem line_indent (sits : Sits a l b) (scopes : Scopes) : scopes.line l.indent.chars = scopes.line l.chars := by
  cases sits with
  | blank => rfl
  | text starts _ _ _ =>
    rw [Line.indent, Line.chars, Line.chars, Scopes.line, Scopes.line, visible_replicate _ (Starts.head starts),
      visible_replicate _ (Starts.head starts)]

theorem scopes_line (sits : Sits a l b) (scopes : Scopes) (height : scopes.length = a + 1) :
    ∃ scopes' : Scopes, scopes'.length = b + 1 ∧
      ∀ outer, (scopes ++ outer : Scopes).line l.chars = scopes' ++ outer := by
  obtain ⟨scope, inner, rfl⟩ := List.exists_cons_of_length_pos (by omega : 0 < scopes.length)
  have leads : openBlocks a (visible l.chars) = some b := by
    have whole := sits.chars_leads
    rw [← List.takeWhile_append_dropWhile (p := (· = ' ')) (l := l.chars), openBlocks_append, openBlocks_flat a,
      Option.bind_some] at whole
    · exact whole
    · intro c member
      have blank := List.mem_takeWhile_imp member
      rw [decide_eq_true_eq] at blank
      rw [blank]
      decide
  exact scopes_run _ leads ((_ ++ scope) :: inner) height

end Sits

inductive Laid : Nat → Doc → Nat → Prop
  | nil {a : Nat} : Laid a [] a
  | cons {a b c : Nat} {l : Line} {d : Doc} (first : Sits a l b) (others : Laid b d c) : Laid a (l :: d) c

namespace Laid

variable {a b c : Nat} {l : Line} {d e : Doc} {s : String}

theorem single (sits : Sits a l b) : Laid a [l] b := .cons sits .nil

theorem append (first : Laid a d b) (second : Laid b e c) : Laid a (d ++ e) c := by
  induction first with
  | nil => exact second
  | cons sits _ ih => exact .cons sits (ih second)

theorem indent (laid : Laid a d b) : Laid (a + 1) d.indent (b + 1) := by
  induction laid with
  | nil => exact .nil
  | cons sits _ ih => exact .cons sits.indent ih

theorem iterate (laid : Laid a d b) (n : Nat) : Laid (a + n) (Doc.indent^[n] d) (b + n) := by
  induction n with
  | zero => exact laid
  | succ n ih =>
    rw [Function.iterate_succ_apply']
    exact ih.indent

theorem block (shown : Shown s) (body : Laid 0 d 0) : Laid 0 (Doc.block (s ++ " \x7b") d "\x7d") 0 :=
  ((single (.opening shown)).append body.indent).append (single .closing)

theorem lines {ts : List String} (each : ∀ t ∈ ts, Shown t) {f : String → String}
    (closed : ∀ t, Shown t → Shown (f t)) : Laid 0 (ts.map fun t => .text 0 (f t)) 0 := by
  induction ts with
  | nil => exact .nil
  | cons t ts ih =>
    rw [List.forall_mem_cons] at each
    exact .cons (.flat (closed t each.1)) (ih each.2)

theorem flatten {ds : List Doc} (each : ∀ d ∈ ds, Laid a d a) : Laid a ds.flatten a := by
  induction ds with
  | nil => exact .nil
  | cons d ds ih =>
    rw [List.forall_mem_cons] at each
    exact each.1.append (ih each.2)

theorem openBlocks (laid : Laid a d b) : openBlocks a (d.render "    ").toList = some b := by
  induction laid with
  | nil => rfl
  | cons sits _ ih =>
    rw [Doc.render_cons, String.toList_append, Line.render_toList, openBlocks_append, openBlocks_append,
      sits.chars_leads, Option.bind_some]
    exact ih

theorem textLines (laid : Laid a d b) : textLines (d.render "    ") = d.map Line.chars ++ [[]] := by
  induction laid with
  | nil => exact List.splitOn_nil _
  | @cons _ _ _ l d sits _ ih =>
    rw [Wgsl.textLines, Doc.render_cons, String.toList_append, Line.render_toList, List.append_assoc,
      List.singleton_append, List.splitOn_append_cons_self, List.splitOn_eq_singleton sits.chars_ends]
    exact congrArg (l.chars :: ·) ih

theorem indented (laid : Laid a d b) {before after : List (List Char)} {line : List Char}
    (parts : d.map Line.chars ++ [[]] = before ++ line :: after) (shown : visible line ≠ []) :
    ∃ n, Wgsl.openBlocks a before.flatten = some n ∧ leading line = 4 * depth n line := by
  induction laid generalizing before with
  | nil =>
    have last : line ∈ ([[]] : List (List Char)) := by
      rw [show [[]] = before ++ line :: after from parts]
      simp
    rw [List.mem_singleton.mp last] at shown
    exact absurd rfl shown
  | @cons a _ _ l d sits _ ih =>
    rcases List.cons_eq_append_iff.mp parts with ⟨rfl, same⟩ | ⟨before, rfl, others⟩
    · cases same
      exact ⟨a, rfl, sits.chars_indented shown⟩
    · obtain ⟨n, open', indented⟩ := ih others
      refine ⟨n, ?_, indented⟩
      rw [List.flatten_cons, openBlocks_append, sits.chars_leads, Option.bind_some]
      exact open'

theorem blockStructured (laid : Laid 0 d 0) : BlockStructured (d.render "    ") where
  balanced := laid.openBlocks
  indented _ _ _ parts shown := laid.indented (laid.textLines ▸ parts) shown

end Laid

namespace Scopes

def behind (scopes : Scopes) (d : Doc) : Scopes := d.foldl (fun scopes l => scopes.line l.chars) scopes

theorem behind_append (scopes : Scopes) (d e : Doc) : scopes.behind (d ++ e) = (scopes.behind d).behind e :=
  List.foldl_append

end Scopes

namespace Laid

variable {a b : Nat} {d : Doc}

theorem behind_indent (laid : Laid a d b) (scopes : Scopes) : scopes.behind d.indent = scopes.behind d := by
  induction laid generalizing scopes with
  | nil => rfl
  | @cons _ _ _ l d sits _ ih =>
    rw [Scopes.behind, Scopes.behind, Doc.indent, List.map_cons, List.foldl_cons, List.foldl_cons, sits.line_indent]
    exact ih _

theorem behind_iterate (laid : Laid a d b) (scopes : Scopes) (n : Nat) :
    scopes.behind (Doc.indent^[n] d) = scopes.behind d := by
  induction n with
  | zero => rfl
  | succ n ih => rw [Function.iterate_succ_apply', (laid.iterate n).behind_indent, ih]

theorem scopes_behind (laid : Laid a d b) (scopes : Scopes) (height : scopes.length = a + 1) :
    ∃ scopes' : Scopes, scopes'.length = b + 1 ∧ ∀ outer, (scopes ++ outer : Scopes).behind d = scopes' ++ outer := by
  induction laid generalizing scopes with
  | nil => exact ⟨scopes, height, fun _ => rfl⟩
  | cons sits _ ih =>
    obtain ⟨scopes₁, height₁, first⟩ := sits.scopes_line scopes height
    obtain ⟨scopes₂, height₂, others⟩ := ih scopes₁ height₁
    refine ⟨scopes₂, height₂, fun outer => ?_⟩
    rw [Scopes.behind, List.foldl_cons, first]
    exact others outer

theorem namesIn (laid : Laid 0 d b) : namesIn (d.render "    ") = Scopes.behind [[]] d := by
  obtain ⟨scopes, height, whole⟩ := laid.scopes_behind [[]] rfl
  obtain ⟨scope, inner, rfl⟩ := List.exists_cons_of_length_pos (by omega : 0 < scopes.length)
  have reached : Scopes.behind [[]] d = scope :: inner := by simpa using whole []
  rw [Wgsl.namesIn, laid.textLines, List.foldl_append, List.foldl_map]
  change Scopes.line (Scopes.behind [[]] d) [] = _
  rw [reached]
  rfl

end Laid

end Gpu.Wgsl
end ViewLang
