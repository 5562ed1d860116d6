import ViewLang.Proofs.Grammar.FormedTrees
import ViewLang.Proofs.Syntax.Outline

namespace ViewLang

def Unbroken (s : String) : Prop := '\n' ∉ s.toList

instance (s : String) : Decidable (Unbroken s) := inferInstanceAs (Decidable (¬ _))

structure IsLabel (s : String) : Prop where
  start : ∃ c ∈ s.toList.head?, c ≠ ' '
  unbroken : Unbroken s

instance (s : String) : Decidable (IsLabel s) :=
  decidable_of_iff (s.toList.head?.any (· ≠ ' ') = true ∧ Unbroken s)
    ⟨fun ⟨start, unbroken⟩ => ⟨by simpa [Option.any_eq_true] using start, unbroken⟩,
      fun ⟨start, unbroken⟩ => ⟨by simpa [Option.any_eq_true] using start, unbroken⟩⟩

variable {s t : String}

theorem Unbroken.append (first : Unbroken s) (second : Unbroken t) : Unbroken (s ++ t) := by
  rw [Unbroken, String.toList_append, List.mem_append, not_or]
  exact ⟨first, second⟩

theorem IsLabel.append (first : IsLabel s) (second : Unbroken t) : IsLabel (s ++ t) where
  start := by
    obtain ⟨c, leads, visible⟩ := first.start
    refine ⟨c, ?_, visible⟩
    rw [String.toList_append, List.head?_append, Option.mem_def.mp leads]
    rfl
  unbroken := first.unbroken.append second

theorem unbroken_intercalate {sep : String} (apart : Unbroken sep) {ts : List String} (each : ∀ t ∈ ts, Unbroken t) :
    Unbroken (sep.intercalate ts) :=
  intercalate_gives (by decide) (fun _ _ first second => (first.append apart).append second) each

theorem newline_not_mem {cs : List Char} (word : ∀ c ∈ cs, isWordChar c = true) : '\n' ∉ cs :=
  fun member => absurd (word '\n' member) (by decide)

theorem IsWord.unbroken (word : IsWord s) : Unbroken s := newline_not_mem word

theorem IsName.unbroken (name : IsName s) : Unbroken s := name.word.unbroken

theorem AllNames.unbroken {names : List Name} (named : AllNames names) : ∀ s ∈ names.map (·.value), Unbroken s :=
  List.forall_mem_map.mpr fun n member => (named n member).unbroken

theorem unbroken_nat (n : Nat) : Unbroken (toString n) :=
  newline_not_mem fun _ member =>
    isWordChar_of_digit (Nat.isDigit_of_mem_toDigits (by decide) (by decide) (Nat.toList_repr ▸ member))

/-- A character that ends a line is quoted as an escape. -/
theorem newline_not_mem_quotedChar (c : Char) : '\n' ∉ Text.quotedChar c := by
  unfold Text.quotedChar
  split
  · decide
  · decide
  · decide
  · decide
  · decide
  · decide
  · rename_i newline _ _
    split
    · exact fun member => newline (List.mem_singleton.mp member).symm
    · have digits : '\n' ∉ Text.hex c.toNat := newline_not_mem fun d member =>
        hexPadded_word 0 c.toNat d (List.mem_append_right _ member)
      simp [digits]

theorem unbroken_quoted (s : String) : Unbroken (Text.quoted s) := by
  rw [Unbroken, Text.quoted, String.toList_ofList]
  simp [newline_not_mem_quotedChar]

theorem unbroken_results {ts : List String} (each : ∀ t ∈ ts, Unbroken t) : Unbroken (TypeExpr.resultSuffix ts) := by
  match ts with
  | [] => exact (by decide : Unbroken "")
  | [t] => exact Unbroken.append (by decide) (each t (List.mem_singleton_self t))
  | t :: u :: ts =>
    have inside := unbroken_intercalate (by decide : Unbroken ", ") each
    exact (Unbroken.append (by decide) inside).append (by decide)

mutual

theorem unbroken_type : (t : TypeExpr) → t.Spelled → Unbroken t.render
  | .named name, spelled => (TypeExpr.spelled_named.mp spelled).unbroken
  | .generic name arg, spelled => by
    obtain ⟨word, inner⟩ := TypeExpr.spelled_generic.mp spelled
    exact ((word.unbroken.append (by decide)).append (unbroken_type arg inner)).append (by decide)
  | .chan true elem, spelled => Unbroken.append (by decide) (unbroken_type elem (TypeExpr.spelled_chan.mp spelled))
  | .chan false elem, spelled => Unbroken.append (by decide) (unbroken_type elem (TypeExpr.spelled_chan.mp spelled))
  | .slice elem, spelled => Unbroken.append (by decide) (unbroken_type elem (TypeExpr.spelled_slice.mp spelled))
  | .pointer elem, spelled => Unbroken.append (by decide) (unbroken_type elem (TypeExpr.spelled_pointer.mp spelled))
  | .func params results, spelled => by
    obtain ⟨left, right⟩ := TypeExpr.spelled_func.mp spelled
    have inside := unbroken_intercalate (by decide : Unbroken ", ") (unbroken_types params left)
    exact ((Unbroken.append (by decide) inside).append (by decide)).append
      (unbroken_results (unbroken_types results right))

theorem unbroken_types : (ts : List TypeExpr) → (∀ t ∈ ts, t.Spelled) → ∀ s ∈ TypeExpr.renderEach ts, Unbroken s
  | [], _ => nofun
  | t :: ts, each => by
    obtain ⟨first, others⟩ := List.forall_mem_cons.mp each
    exact List.forall_mem_cons.mpr ⟨unbroken_type t first, unbroken_types ts others⟩

end

theorem unbroken_operators (ops : List BinaryOp) : Unbroken (" ".intercalate (ops.map (·.text))) :=
  unbroken_intercalate (by decide) (List.forall_mem_map.mpr fun op _ => by cases op <;> decide)

theorem qualified?_unbroken {b : Base} {path : List Name} {name : String} (formed : b.Formed) (named : AllNames path)
    (found : b.qualified? path = some name) : Unbroken name := by
  cases b with
  | operand p => cases found
  | name n =>
    cases found
    exact unbroken_intercalate (by decide) (List.forall_mem_cons.mpr ⟨IsName.unbroken formed, named.unbroken⟩)

theorem IsLabel.typed {lead name : String} {ty : TypeExpr} (starts : IsLabel lead) (named : IsName name)
    (spelled : ty.Spelled) : IsLabel (lead ++ name ++ " " ++ ty.render) :=
  ((starts.append named.unbroken).append (by decide)).append (unbroken_type ty spelled)

/-- What the line of a construct that was read says can stand on a line. -/
theorem label_isLabel {c : Construct} (formed : c.AllFormed) (lined : c.hasLine = true) : IsLabel c.label := by
  cases c with
  | type | body | block | stmt | node | primary | templateLiteral | gpuParam => cases lined
  | unit u => exact (by decide : IsLabel "Unit package=").append (IsName.unbroken formed.here)
  | import_ path => exact (by decide : IsLabel "Import ").append (unbroken_quoted _)
  | typeDef d => exact (by decide : IsLabel "Type ").append (IsName.unbroken formed.here)
  | field f =>
    obtain ⟨named, spelled⟩ := Construct.throughout_field.mp formed
    exact (by decide : IsLabel "Field ").typed named spelled
  | component c =>
    have starts : IsLabel (if c.isRenderable then "Component " else "Func ") := by split <;> decide
    have ends : Unbroken (if c.autoProps then " @props" else "") := by split <;> decide
    exact (starts.append (IsName.unbroken formed.here)).append ends
  | param p =>
    obtain ⟨named, spelled⟩ := Construct.throughout_param.mp formed
    have dots : Unbroken (if p.variadic then "..." else "") := by split <;> decide
    exact ((((by decide : IsLabel "Param ").append (IsName.unbroken named)).append (by decide : Unbroken " ")).append
      dots).append (unbroken_type _ spelled)
  | varDecl d =>
    obtain ⟨names, ty, values, span⟩ := d
    obtain ⟨named, spelled, -⟩ := Construct.throughout_varDecl.mp formed
    have starts : IsLabel ("Var " ++ ", ".intercalate (names.map (·.value))) :=
      (by decide : IsLabel "Var ").append (unbroken_intercalate (by decide) (AllNames.unbroken named))
    cases ty with
    | none => exact starts.append (by decide : Unbroken "")
    | some ty => exact starts.append ((by decide : Unbroken " ").append (unbroken_type _ (spelled ty rfl)))
  | exprs => exact (by decide : IsLabel "ExprStmt")
  | assign targets op values span =>
    have written : Unbroken op.value.text := by cases op.value <;> decide
    exact (by decide : IsLabel "Assign ").append written
  | send => exact (by decide : IsLabel "Send")
  | ret => exact (by decide : IsLabel "Return")
  | cond s =>
    cases s
    exact (by decide : IsLabel "If")
  | loop header body span => exact (by decide : IsLabel "For")
  | branch kind span =>
    have written : IsLabel kind.text := by cases kind <;> decide
    exact written
  | element e =>
    cases e
    exact (by decide : IsLabel "Element ").append (IsName.unbroken formed.here)
  | elementArg a =>
    obtain ⟨key, value⟩ := a
    cases key with
    | none => exact (by decide : IsLabel "Arg")
    | some key => exact (by decide : IsLabel "Arg ").append (IsName.unbroken (formed.here key List.mem_cons_self))
  | text t => exact (by decide : IsLabel "Text ").append (unbroken_quoted _)
  | nodeIf c =>
    cases c
    exact (by decide : IsLabel "NodeIf")
  | nodeFor l =>
    cases l
    exact (by decide : IsLabel "NodeFor")
  | expr e =>
    obtain ⟨head, tail, span⟩ := e
    cases tail with
    | nil => cases lined
    | cons link links =>
      exact ((by decide : IsLabel "Binary [").append (unbroken_operators _)).append (by decide : Unbroken "]")
  | int text => exact (by decide : IsLabel "Int ").append (isWord_of_int formed.here).unbroken
  | float text => exact (by decide : IsLabel "Float ").append (isWord_of_float formed.here).unbroken
  | string text => exact (by decide : IsLabel "String ").append (unbroken_quoted _)
  | template t =>
    cases t
    exact ((by decide : IsLabel "Template (").append (unbroken_nat _)).append (by decide : Unbroken " fragments)")
  | composite ty entries span =>
    exact (by decide : IsLabel "Composite ").append (unbroken_type _ (Construct.throughout_composite.mp formed).2.1)
  | make ty args span =>
    exact (by decide : IsLabel "Make ").append (unbroken_type _ (Construct.throughout_make.mp formed).2.1)
  | index | slice => exact (by decide : IsLabel "Index")
  | select base path span =>
    obtain ⟨start, named⟩ := formed.here
    change IsLabel ((Part.select (base.qualified? path)).line?.getD "")
    cases found : base.qualified? path with
    | none => exact (by decide : IsLabel "Selector")
    | some name => exact (by decide : IsLabel "Selector ").append (qualified?_unbroken start named found)
  | call base path args span =>
    obtain ⟨start, named⟩ := formed.here
    change IsLabel ((Part.call (base.qualified? path)).line?.getD "")
    cases found : base.qualified? path with
    | none => exact (by decide : IsLabel "Call")
    | some name => exact (by decide : IsLabel "Call ").append (qualified?_unbroken start named found)
  | func => exact (by decide : IsLabel "FuncLit")
  | receive channel span => exact (by decide : IsLabel "Receive ").append (IsName.unbroken formed.here)
  | unary op operand span =>
    have written : Unbroken op.text := by cases op <;> decide
    exact (by decide : IsLabel "Unary ").append written
  | decorator d => exact (by decide : IsLabel "@").append (IsName.unbroken formed.here)
  | gpuStruct s => exact (by decide : IsLabel "GpuStruct ").append (IsName.unbroken formed.here)
  | gpuField f =>
    obtain ⟨named, -, spelled⟩ := Construct.throughout_gpuField.mp formed
    exact (by decide : IsLabel "Field ").typed named spelled
  | gpuBinding b =>
    obtain ⟨named, -, spelled⟩ := Construct.throughout_gpuBinding.mp formed
    exact (by decide : IsLabel "GpuBinding ").typed named spelled
  | gpuFunction f => exact (by decide : IsLabel "GpuFunction ").append (IsName.unbroken formed.here)

def indentation (line : List Char) : Nat := (line.takeWhile (· = ' ')).length

/-- The line shows the construct at the address: it is indented by twice the depth, and then says what the construct's
line says. -/
structure ShowsLine (root : Construct) (x : List Nat × Construct) (line : List Char) : Prop where
  unbroken : '\n' ∉ line
  indented : indentation line = 2 * root.depthAt x.1
  said : line.dropWhile (· = ' ') = x.2.label.toList

def printedLine (root : Construct) (x : List Nat × Construct) : List Char :=
  List.replicate (2 * root.depthAt x.1) ' ' ++ x.2.label.toList

theorem toList_join_replicate (n : Nat) :
    (String.join (List.replicate n "  ")).toList = List.replicate (2 * n) ' ' := by
  induction n with
  | zero => rfl
  | succ n ih =>
    rw [List.replicate_succ, String.join_cons, String.toList_append, ih]
    rfl

theorem OutlineLine.render_toList (l : OutlineLine) :
    l.render.toList = List.replicate (2 * l.depth) ' ' ++ l.text.toList ++ ['\n'] := by
  rw [OutlineLine.render, String.toList_append, String.toList_append, toList_join_replicate]
  rfl

theorem outline_toList (u : SourceUnit) :
    u.outline.toList = ((Construct.unit u).printed.map (printedLine (.unit u))).flatMap (· ++ ['\n']) := by
  rw [SourceUnit.outline_eq, List.flatMap_map]
  induction (Construct.unit u).printed with
  | nil => rfl
  | cons x xs ih =>
    rw [List.map_cons, String.join_cons, String.toList_append, ih, OutlineLine.render_toList, List.flatMap_cons]
    rfl

/-- Blanks in front of what starts with something visible are the indentation. -/
theorem IsLabel.showsLine {root : Construct} {x : List Nat × Construct} (label : IsLabel x.2.label) :
    ShowsLine root x (printedLine root x) := by
  obtain ⟨⟨c, first, visible⟩, unbroken⟩ := label
  obtain ⟨cs, same⟩ := List.head?_eq_some_iff.mp (Option.mem_def.mp first)
  have blanks : ∀ b ∈ List.replicate (2 * root.depthAt x.1) ' ', (decide (b = ' ')) = true := fun b member =>
    decide_eq_true (List.eq_of_mem_replicate member)
  refine ⟨?_, ?_, ?_⟩
  · rw [printedLine, List.mem_append, not_or]
    exact ⟨fun member => absurd (List.eq_of_mem_replicate member) (by decide), unbroken⟩
  · rw [indentation, printedLine, same, List.takeWhile_append_of_pos blanks,
      List.takeWhile_cons_of_neg (by simpa using visible)]
    simp
  · rw [printedLine, same, List.dropWhile_append_of_pos blanks, List.dropWhile_cons_of_neg (by simpa using visible)]

theorem printed_unit (u : SourceUnit) : ∃ others, (Construct.unit u).printed = ([], .unit u) :: others :=
  ⟨_, Construct.printed_eq (.unit u)⟩

/-- The outline of a unit that was read is made of lines, each ended by a newline and without another one: one for each
printed construct, indented by twice the number of lines around it. The first line is not indented, and each stands at
most one level deeper than the one before. Printing leaves the depth at zero. -/
theorem outline_wellFormed {file source : String} {u : SourceUnit} (accepted : parse file source = .ok u) :
    u.tree.print .start = ⟨u.outline, 0⟩ ∧
    ∃ lines : List (List Char), u.outline.toList = lines.flatMap (· ++ ['\n']) ∧
      List.Forall₂ (ShowsLine (.unit u)) (Construct.unit u).printed lines ∧
      lines.head?.map indentation = some 0 ∧
      lines.IsChain fun l m => indentation m ≤ indentation l + 2 := by
  have shows : ∀ x ∈ (Construct.unit u).printed, ShowsLine (.unit u) x (printedLine (.unit u) x) := by
    rintro ⟨address, c⟩ member
    obtain ⟨found, lined, -⟩ := Construct.mem_printed.mp member
    exact (label_isLabel ((parsed_formed accepted).at found) lined).showsLine
  refine ⟨u.print_start, _, outline_toList u, ?_, ?_, ?_⟩
  · exact List.forall₂_map_right_iff.mpr (List.forall₂_same.mpr shows)
  · obtain ⟨others, same⟩ := printed_unit u
    have first := (shows ([], .unit u) (same ▸ List.mem_cons_self)).indented
    rw [same, List.map_cons, List.head?_cons, Option.map_some, first]
    rfl
  · rw [List.isChain_map]
    refine u.depths_chain.imp_of_mem_imp fun x y before behind deeper => ?_
    rw [(shows x before).indented, (shows y behind).indented]
    omega

/-- An element with an argument, a template with a chain of operands, and a text with an end of line in it. -/
def counterSource : String :=
  "package main\nfunc Counter(n int) Node \x7b\n  Div(id: \"a\") \x7b \x60n = \x7bn + 1\x7d\x60 \"x\\ny\" \x7d\n\x7d"

def counterOutline : String :=
  "Unit package=main\n  Component Counter\n    Param n int\n    Element Div\n      Arg id\n        String \"a\"\n" ++
    "      Template (2 fragments)\n        Binary [+]\n          Selector n\n          Int 1\n      Text \"x\\ny\"\n"

theorem outline_wellFormed_counter : ∃ u, parse "counter" counterSource = .ok u ∧ u.outline = counterOutline ∧
    u.tree.print .start = ⟨counterOutline, 0⟩ ∧
    ∃ lines : List (List Char), counterOutline.toList = lines.flatMap (· ++ ['\n']) ∧
      List.Forall₂ (ShowsLine (.unit u)) (Construct.unit u).printed lines ∧
      lines.head?.map indentation = some 0 ∧
      lines.IsChain fun l m => indentation m ≤ indentation l + 2 := by
  have known : (parse "counter" counterSource).toOption.map SourceUnit.outline = some counterOutline := by
    decide +kernel
  obtain ⟨u, read, outlined⟩ := Option.map_eq_some_iff.mp known
  have accepted := toOption_some_iff.mp read
  have wellFormed := outline_wellFormed accepted
  rw [outlined] at wellFormed
  exact ⟨u, accepted, outlined, wellFormed⟩

end ViewLang
