import ViewLang.Proofs.Go.BalancedFile
import ViewLang.Proofs.Go.HeaderReading
import ViewLang.Proofs.Go.Mirrors
import ViewLang.Proofs.Go.NodeScopes
import ViewLang.Proofs.Go.RangeMarks
import ViewLang.Proofs.Grammar.FormedTrees
import ViewLang.Proofs.Success

namespace ViewLang

namespace Go

structure Access (s : String) : Prop where
  path : ∀ c ∈ s.toList, isPathChar c = true
  inhabited : s ≠ ""
  noFunc : s ≠ "func"

theorem isPathChar_ident {c : Char} (inside : Lexer.isIdentChar c = true) : isPathChar c = true := by
  rw [isPathChar, inside, Bool.true_or]

end Go

theorem IsName.access {s : String} (name : IsName s) : Go.Access s where
  path c member := Go.isPathChar_ident (name.2.1 c member)
  inhabited := by
    rintro rfl
    obtain ⟨_, _, same, -⟩ := name.head
    cases same
  noFunc := name.not_keyword .func

namespace Go

open HeaderScan (outside)
open Lexical (Locals)

theorem access_receiver {s : String} (path : ∀ c ∈ s.toList, isPathChar c = true) : Access ("c." ++ s) where
  path c member := by
    rw [String.toList_append, List.mem_append] at member
    rcases member with front | behind
    · have front : c = 'c' ∨ c = '.' := by simpa using front
      rcases front with rfl | rfl <;> decide
    · exact path c behind
  inhabited same := by
    have chars := congrArg String.toList same
    rw [String.toList_append] at chars
    cases chars
  noFunc same := by
    have chars := congrArg String.toList same
    rw [String.toList_append] at chars
    cases chars

theorem exported_ident {s : String} (inside : ∀ c ∈ s.toList, Lexer.isIdentChar c = true) :
    ∀ c ∈ (exported s).toList, Lexer.isIdentChar c = true := by
  rw [exported]
  split
  · exact List.forall_mem_nil _
  · rename_i first rest same
    rw [same] at inside
    obtain ⟨start, others⟩ := List.forall_mem_cons.mp inside
    rw [String.toList_ofList]
    exact List.forall_mem_cons.mpr ⟨isIdentChar_toUpper start, others⟩

structure EnvAccess (env : Env) : Prop where
  fields : ∀ x ∈ env.fields, Access x.2
  latest : ∀ x ∈ env.latest, Access x.2

section

variable {c : Component} (formed : (Construct.component c).AllFormed)

include formed

theorem declaredNames_isName : ∀ x ∈ declaredNames c, IsName x := by
  obtain ⟨-, params, -, body⟩ := Construct.throughout_component.mp formed
  obtain ⟨-, vars, -⟩ := Construct.throughout_body.mp body
  rw [declaredNames, List.forall_mem_append, List.forall_mem_map, List.forall_mem_flatMap]
  refine ⟨fun p member => (Construct.throughout_param.mp (params p member)).1, fun d declared => ?_⟩
  exact List.forall_mem_map.mpr (Construct.throughout_varDecl.mp (vars d declared)).1

theorem paramAccess_access {p : Param} (member : p ∈ c.params) : Access (paramAccess c p) := by
  obtain ⟨-, params, -⟩ := Construct.throughout_component.mp formed
  have name : IsName p.name.value := (Construct.throughout_param.mp (params p member)).1
  rw [paramAccess]
  split
  · have split : "c.props." = "c." ++ "props." := rfl
    rw [split, String.append_assoc]
    refine access_receiver fun d inside => ?_
    rw [String.toList_append] at inside
    rcases List.mem_append.mp inside with front | behind
    · have each : ∀ d ∈ "props.".toList, isPathChar d = true := List.all_eq_true.mp (by decide)
      exact each d front
    · exact isPathChar_ident (exported_ident name.2.1 d behind)
  · exact access_receiver name.access.path

theorem componentEnv_access (runtime : String) (u : SourceUnit) : EnvAccess (componentEnv runtime u c) where
  fields x listed := by
    obtain ⟨-, -, -, body⟩ := Construct.throughout_component.mp formed
    obtain ⟨-, vars, -⟩ := Construct.throughout_body.mp body
    rw [componentEnv, stateFields, List.mem_reverse] at listed
    rcases List.mem_append.mp listed with param | hoisted
    · obtain ⟨p, member, rfl⟩ := List.mem_map.mp param
      exact paramAccess_access formed member
    · obtain ⟨d, declared, named⟩ := List.mem_flatMap.mp hoisted
      obtain ⟨name, member, rfl⟩ := List.mem_map.mp named
      have names : AllNames d.names := (Construct.throughout_varDecl.mp (vars d declared)).1
      exact access_receiver (names name member).access.path
  latest x listed := by
    rw [componentEnv, List.mem_reverse] at listed
    obtain ⟨ch, member, rfl⟩ := List.mem_map.mp listed
    have name := declaredNames_isName formed ch.name ((channelProps_names c).subset (List.mem_map_of_mem member))
    refine access_receiver fun d inside => ?_
    rw [ChannelProp.field, String.toList_append] at inside
    rcases List.mem_append.mp inside with front | behind
    · exact name.access.path d front
    · have each : ∀ d ∈ "Value".toList, isPathChar d = true := List.all_eq_true.mp (by decide)
      exact each d behind

end

theorem plainEnv_access (runtime : String) (u : SourceUnit) : EnvAccess (plainEnv runtime u) := ⟨nofun, nofun⟩

/-- The text has no brace that opens a block, and a parenthesis behind it starts arguments. -/
def Plain (t : String) : Prop :=
  ∃ b, b ≠ "cnuf".toList ∧ Passes (outside false []) t (outside false b)

theorem Plain.empty : Plain "" := ⟨[], by decide, .refl⟩

theorem Access.plain {s : String} (access : Access s) : Plain s := by
  have word : IsWord s := by
    intro c member
    have path := access.path c member
    rw [isPathChar, Bool.or_eq_true] at path
    rcases path with inside | point
    · exact isWordChar_of_ident inside
    · rw [beq_iff_eq.mp point]
      decide
  refine ⟨_, ?_, passes_word word⟩
  rw [pathBehind_path access.path, List.append_nil]
  intro same
  apply access.noFunc
  rw [← String.toList_inj, ← List.reverse_reverse s.toList, same]
  rfl

theorem plain_number {s : String} (word : IsWord s) (other : 'u' ∉ s.toList) : Plain s := by
  refine ⟨_, ?_, passes_word word⟩
  intro same
  have member : 'u' ∈ pathBehind [] s.toList := by rw [same]; decide
  rcases subset_pathBehind member with nothing | inside
  · cases nothing
  · exact other inside

theorem plain_path {base : String} (plain : Plain base) {segments : List Name} (names : AllNames segments) :
    Plain (Lexical.path base segments) := by
  induction segments generalizing base with
  | nil => exact plain
  | cons segment segments ih =>
    obtain ⟨name, others⟩ := List.forall_mem_cons.mp names
    refine ih ?_ others
    obtain ⟨b, -, passes⟩ := plain
    have path : ∀ c ∈ ("." ++ segment.value).toList, isPathChar c = true := by
      rw [String.toList_append, List.forall_mem_append]
      exact ⟨List.all_eq_true.mp (by decide), name.access.path⟩
    have word : IsWord ("." ++ segment.value) := IsWord.append (by decide) (IsName.word name)
    refine ⟨_, ?_, (String.append_assoc ▸ passes.append (passes_word word) :)⟩
    rw [pathBehind_path path]
    intro same
    have point : '.' ∈ "cnuf".toList := by
      rw [← same]
      simp
    exact absurd point (by decide)

/-- Behind a separator, the next text is read as at the start. -/
theorem Plain.then {t u : String} (first : Plain t) {sep : String}
    (apart : ∀ b, Passes (outside false b) sep (outside false [])) (second : Plain u) : Plain (t ++ sep ++ u) := by
  obtain ⟨b, -, passes⟩ := first
  obtain ⟨b', noFunc, passes'⟩ := second
  exact ⟨b', noFunc, (passes.append (apart b)).append passes'⟩

theorem Plain.ended {t : String} (plain : Plain t) {sep : String}
    (apart : ∀ b, Passes (outside false b) sep (outside false [])) :
    Passes (outside false []) (t ++ sep) (outside false []) := by
  obtain ⟨b, -, passes⟩ := plain
  exact passes.append (apart b)

theorem plain_commas {ts : List String} (each : ∀ t ∈ ts, Plain t) : Plain (", ".intercalate ts) :=
  intercalate_gives .empty (fun _ _ first second => first.then (fun _ _ => rfl) second) each

theorem binaryOp_passes (op : BinaryOp) (b : List Char) :
    Passes (outside false b) (" " ++ op.text ++ " ") (outside false []) := by
  intro rest
  cases op <;> rfl

theorem unaryOp_passes (op : UnaryOp) : Passes (outside false []) op.text (outside false []) := by
  intro rest
  cases op <;> rfl

theorem assignOp_passes (op : AssignOp) (b : List Char) :
    Passes (outside false b) (" " ++ op.text ++ " ") (outside false []) := by
  intro rest
  cases op <;> rfl

theorem space_passes (typed : Bool) (b : List Char) : Passes (outside typed b) " " (outside typed []) := by
  intro rest
  cases typed <;> rfl

theorem signature_passes {typed : Bool} {params : String} {results : List String} (balanced : Balanced params)
    (each : ∀ t ∈ results, Balanced t) (types : ∀ t ∈ results, ∃ b, Passes (outside true []) t (outside true b)) :
    ∃ b, Passes (outside typed []) ("func(" ++ params ++ ")" ++ TypeExpr.resultSuffix results) (outside true b) := by
  have signature : Passes (outside typed []) ("func(" ++ params ++ ")") (outside true [')']) := by
    have split : "func(" = "func" ++ "(" := rfl
    have passes : Passes (outside typed []) ("func" ++ ("(" ++ params ++ ")")) (outside true [')']) :=
      (passes_word (by decide)).append (passes_round balanced)
    simpa only [split, String.append_assoc] using passes
  match results with
  | [] => exact ⟨_, signature.append .refl⟩
  | [result] =>
    obtain ⟨b, passes⟩ := types result List.mem_cons_self
    exact ⟨b, signature.append ((space_passes true _).append passes)⟩
  | first :: second :: more =>
    have split : " (" = " " ++ "(" := rfl
    have listed : Passes (outside true [')']) (" " ++ ("(" ++ ", ".intercalate (first :: second :: more) ++ ")"))
        (outside true [')']) := (space_passes true [')']).append (passes_round (balanced_commas each))
    refine ⟨[')'], signature.append ?_⟩
    change Passes _ (" (" ++ ", ".intercalate (first :: second :: more) ++ ")") _
    simpa only [split, String.append_assoc] using listed

mutual

theorem type_passes {runtime : String} (word : IsWord runtime) : (ty : TypeExpr) → ty.Spelled →
    ∃ b, Passes (outside true []) (type runtime ty).1 (outside true b)
  | .named name, spelled => by
    rw [type]
    split
    · exact ⟨_, passes_word (IsWord.append word (by decide))⟩
    · exact ⟨_, passes_word (TypeExpr.spelled_named.mp spelled)⟩
  | .generic name arg, spelled => by
    rw [type]
    obtain ⟨named, inner⟩ := TypeExpr.spelled_generic.mp spelled
    have balanced := typeExpr_balanced word arg inner
    dsimp only
    by_cases inhabited : (type runtime arg).1 = ""
    · rw [inhabited, String.append_empty, String.append_assoc]
      exact ⟨_, (passes_word named).append passes_brackets⟩
    · have whole : Passes (outside true []) (name ++ ("[" ++ (type runtime arg).1 ++ "]")) (outside true [']']) :=
        (passes_word named).append (passes_square balanced inhabited)
      exact ⟨[']'], by simpa only [String.append_assoc] using whole⟩
  | .chan recvOnly elem, spelled => by
    rw [type]
    obtain ⟨b, inner⟩ := type_passes word elem (TypeExpr.spelled_chan.mp spelled)
    refine ⟨b, Passes.append ?_ inner⟩
    cases recvOnly <;> exact fun _ => rfl
  | .slice elem, spelled => by
    rw [type]
    obtain ⟨b, inner⟩ := type_passes word elem (TypeExpr.spelled_slice.mp spelled)
    exact ⟨b, passes_brackets.append inner⟩
  | .pointer elem, spelled => by
    rw [type]
    obtain ⟨b, inner⟩ := type_passes word elem (TypeExpr.spelled_pointer.mp spelled)
    exact ⟨b, Passes.append (fun _ => rfl) inner⟩
  | .func params results, spelled => by
    rw [type]
    obtain ⟨first, second⟩ := TypeExpr.spelled_func.mp spelled
    exact signature_passes (balanced_commas (typeExprs_balanced word params first))
      (typeExprs_balanced word results second) (types_pass word results second)

theorem types_pass {runtime : String} (word : IsWord runtime) : (ts : List TypeExpr) → (∀ t ∈ ts, t.Spelled) →
    ∀ t ∈ (types runtime ts).1, ∃ b, Passes (outside true []) t (outside true b)
  | [], _ => by
    rw [types]
    exact nofun
  | t :: ts, spelled => by
    rw [types]
    obtain ⟨first, others⟩ := List.forall_mem_cons.mp spelled
    exact List.forall_mem_cons.mpr ⟨type_passes word t first, types_pass word ts others⟩

end

theorem funcText_plain {level : Nat} {head : String} {body : Doc} (writes : Bool)
    (signature : ∃ b, Passes (outside false []) head (outside true b)) (lays : Lays body (level + 1) [] []) :
    Plain (Lower.funcText level head body writes) := by
  obtain ⟨b, signature⟩ := signature
  have literal {inside : String} (balanced : Balanced inside) : Plain (head ++ " " ++ ("\x7b" ++ inside ++ "\x7d")) :=
    ⟨_, by decide, (signature.append (space_passes true b)).append (passes_curly balanced)⟩
  rw [Lower.funcText]
  split
  · have split : " \x7b\x7d" = " " ++ ("\x7b" ++ "" ++ "\x7d") := rfl
    rw [split, ← String.append_assoc]
    exact literal .empty
  · have deferred := deferred_balanced (level + 1) writes
    have split : " \x7b\n" = " " ++ ("\x7b" ++ "\n") := rfl
    have inside := (((by decide : Balanced "\n").text deferred).text lays.carries).text (pad_balanced level)
    simpa only [split, String.append_assoc] using literal inside

section

variable {env : Env} (access : EnvAccess env) (locals : Locals)

include access

theorem name_access {name : String} (named : IsName name) : Access (Lexical.name env locals name) := by
  rw [Lexical.name, Lexical.field?]
  split
  · exact named.access
  · cases found : env.fields.lookup name with
    | none => exact named.access
    | some field => exact access.fields (name, field) (mem_of_lookup found)

/-- What a channel stands for in an expression: the field with its last value, or what is received from it. -/
theorem receive_plain {channel : String} (named : IsName channel) : Plain (Lexical.receive env locals channel) := by
  rw [Lexical.receive]
  split
  · rename_i field found
    rw [Lexical.latest?] at found
    split at found
    · cases found
    · exact (access.latest (channel, field) (mem_of_lookup found)).plain
  · obtain ⟨b, noFunc, passes⟩ := (name_access access locals named).plain
    have received : Passes (outside false []) "<-" (outside false []) := fun _ => rfl
    exact ⟨b, noFunc, received.append passes⟩

end

theorem path_inhabited {base : String} (inhabited : base ≠ "") (segments : List Name) :
    Lexical.path base segments ≠ "" := by
  induction segments generalizing base with
  | nil => exact inhabited
  | cons segment segments ih =>
    refine ih fun none => inhabited ?_
    exact (String.append_eq_empty_iff.mp (String.append_eq_empty_iff.mp none).1).1

mutual

theorem primary_inhabited {env : Env} (access : EnvAccess env) (locals : Locals) (level : Nat) : (p : Primary) →
    (Construct.primary p).AllFormed → Lexical.primary env locals level p ≠ ""
  | .int text, formed => by
    have legal : Lexer.IntText text.value.toList := (Construct.throughout_primary.mp formed).2.here
    rw [Lexical.primary]
    exact fun none => intText_ne_nil legal (String.toList_eq_nil_iff.mpr none)
  | .float text, formed => by
    have legal : Lexer.FloatText text.value.toList := (Construct.throughout_primary.mp formed).2.here
    rw [Lexical.primary]
    exact fun none => floatText_ne_nil legal (String.toList_eq_nil_iff.mpr none)
  | .string text, _ => by
    rw [Lexical.primary, quote]
    simp
  | .template ⟨fs, _⟩, _ => by
    rw [Lexical.primary, Lexical.template]
    split
    · rw [quote]
      simp
    · simp
  | .composite _ _ _, _ => by
    rw [Lexical.primary]
    simp
  | .make _ _ _, _ => by
    rw [Lexical.primary]
    simp
  | .index _ _ _, _ => by
    rw [Lexical.primary]
    simp
  | .slice _ _ _ _, _ => by
    rw [Lexical.primary]
    simp
  | .select b path _, formed => by
    obtain ⟨⟨named, -⟩, inside⟩ := Construct.throughout_select.mp (Construct.throughout_primary.mp formed).2
    rw [Lexical.primary]
    exact path_inhabited (base_inhabited access locals level b named inside) path
  | .call _ _ _ _, _ => by
    rw [Lexical.primary]
    simp
  | .func _ _ _ _, _ => by
    rw [Lexical.primary, Lower.funcText]
    split <;> simp
  | .receive channel _, formed => by
    have named : IsName channel.value := (Construct.throughout_primary.mp formed).2.here
    rw [Lexical.primary, Lexical.receive]
    split
    · rename_i field found
      rw [Lexical.latest?] at found
      split at found
      · cases found
      · exact (access.latest (channel.value, field) (mem_of_lookup found)).inhabited
    · simp
  | .unary op operand _, formed => by
    have inside := primary_inhabited access locals level operand
      (Construct.throughout_unary.mp (Construct.throughout_primary.mp formed).2).2
    rw [Lexical.primary]
    exact fun none => inside (String.append_eq_empty_iff.mp none).2
  | .paren _, _ => by
    rw [Lexical.primary]
    simp

theorem base_inhabited {env : Env} (access : EnvAccess env) (locals : Locals) (level : Nat) : (b : Base) → b.Formed →
    (∀ d ∈ b.constructs, d.AllFormed) → Lexical.base env locals level b ≠ ""
  | .name n, named, _ => by
    rw [Lexical.base]
    exact (name_access access locals named).inhabited
  | .operand p, _, inside => by
    rw [Lexical.base]
    exact primary_inhabited access locals level p (inside (.primary p) List.mem_cons_self)

end

theorem expr_inhabited {env : Env} (access : EnvAccess env) (locals : Locals) (level : Nat) (e : Expr)
    (formed : (Construct.expr e).AllFormed) : Lexical.expr env locals level e ≠ "" := by
  obtain ⟨head, tail, s⟩ := e
  have first := primary_inhabited access locals level head (Construct.throughout_expr.mp formed).2.1
  rw [Lexical.expr]
  exact fun none => first (String.append_eq_empty_iff.mp none).1

theorem not_mem_int {cs : List Char} (legal : Lexer.IntText cs) : 'u' ∉ cs := by
  intro member
  cases legal with
  | decimal digits => exact absurd (digits.2 'u' member) (by decide)
  | hex mark _ digits =>
    rcases List.mem_cons.mp member with zero | member
    · cases zero
    · rcases List.mem_cons.mp member with same | member
      · subst same
        rcases mark with other | other <;> cases other
      · exact absurd (digits 'u' member) (by decide)

theorem not_mem_float {cs : List Char} (legal : Lexer.FloatText cs) : 'u' ∉ cs := by
  have number {ds : List Char} (digits : Lexer.Digits ds) : 'u' ∉ ds := fun member =>
    absurd (digits.2 'u' member) (by decide)
  have exponent {es : List Char} (exponent : Lexer.ExponentText es) : 'u' ∉ es := by
    cases exponent with
    | plain mark digits => grind
    | signed mark sign digits => grind
  cases legal with
  | point digits => simpa using number digits
  | fraction digits fraction => simpa using ⟨number digits, number fraction⟩
  | exponent digits power => simpa using ⟨number digits, exponent power⟩
  | both digits fraction power => simpa using ⟨number digits, number fraction, exponent power⟩

theorem plain_arguments {t inside : String} (plain : Plain t) (balanced : Balanced inside) :
    Plain (t ++ "(" ++ inside ++ ")") := by
  obtain ⟨b, noFunc, passes⟩ := plain
  have called := passes.append (passes_round balanced)
  rw [decide_eq_false noFunc, Bool.false_or, Bool.false_and] at called
  exact ⟨[')'], by decide, by simpa only [String.append_assoc] using called⟩

theorem plain_brackets {t inside : String} (plain : Plain t) (balanced : Balanced inside) (inhabited : inside ≠ "") :
    Plain (t ++ "[" ++ inside ++ "]") := by
  obtain ⟨b, noFunc, passes⟩ := plain
  have indexed := passes.append (passes_square balanced inhabited)
  exact ⟨[']'], by decide, by simpa only [String.append_assoc] using indexed⟩

mutual

theorem expr_plain {env : Env} (words : EnvSpelled env) (access : EnvAccess env) (locals : Locals) (level : Nat) :
    (e : Expr) → (Construct.expr e).AllFormed → Bracketed e.exposed → Plain (Lexical.expr env locals level e)
  | ⟨head, tail, _⟩, formed, bracketed => by
    obtain ⟨-, first, others⟩ := Construct.throughout_expr.mp formed
    obtain ⟨left, right⟩ := bracketed_append.mp bracketed
    obtain ⟨b, noFunc, passes⟩ := primary_plain words access locals level head first left
    obtain ⟨b', noFunc', passes'⟩ :=
      links_pass words access locals level tail others (bracketed_flatMap.mp right) noFunc
    rw [Lexical.expr]
    exact ⟨b', noFunc', passes.append passes'⟩

theorem links_pass {env : Env} (words : EnvSpelled env) (access : EnvAccess env) (locals : Locals) (level : Nat) :
    (ls : List Link) → (∀ l ∈ ls, (Construct.primary l.operand).AllFormed) → (∀ l ∈ ls, Bracketed l.operand.exposed) →
      {b : List Char} → b ≠ "cnuf".toList → ∃ b', b' ≠ "cnuf".toList ∧
        Passes (outside false b) (Lexical.links env locals level ls) (outside false b')
  | [], _, _, b, noFunc => by
    rw [Lexical.links]
    exact ⟨b, noFunc, .refl⟩
  | ⟨op, operand⟩ :: ls, formed, bracketed, b, _ => by
    obtain ⟨first, others⟩ := List.forall_mem_cons.mp formed
    obtain ⟨left, right⟩ := List.forall_mem_cons.mp bracketed
    obtain ⟨b', noFunc', passes⟩ := primary_plain words access locals level operand first left
    obtain ⟨b'', noFunc'', passes'⟩ := links_pass words access locals level ls others right noFunc'
    rw [Lexical.links]
    exact ⟨b'', noFunc'', ((binaryOp_passes op.value b).append passes).append passes'⟩

theorem primary_plain {env : Env} (words : EnvSpelled env) (access : EnvAccess env) (locals : Locals) (level : Nat) :
    (p : Primary) → (Construct.primary p).AllFormed → Bracketed p.exposed → Plain (Lexical.primary env locals level p)
  | .int text, formed, _ => by
    have legal : Lexer.IntText text.value.toList := (Construct.throughout_primary.mp formed).2.here
    rw [Lexical.primary]
    exact plain_number (isWord_of_int legal) (not_mem_int legal)
  | .float text, formed, _ => by
    have legal : Lexer.FloatText text.value.toList := (Construct.throughout_primary.mp formed).2.here
    rw [Lexical.primary]
    exact plain_number (isWord_of_float legal) (not_mem_float legal)
  | .string text, _, _ => by
    rw [Lexical.primary]
    exact ⟨['"'], by decide, passes_quote text.value⟩
  | .template ⟨fs, _⟩, formed, _ => by
    have inside := Construct.throughout_templateLiteral.mp (Construct.throughout_primary.mp formed).2
    rw [Lexical.primary, Lexical.template]
    split
    · exact ⟨['"'], by decide, passes_quote _⟩
    · have spelled := Construct.allSpelled_template.mp (Construct.AllFormed.spelled inside.2)
      have args := balanced_commas (interpolated_balanced words locals level fs spelled)
      have listed := ((quote_balanced (Lexical.format fs)).text (by decide : Balanced ", ")).text args
      have called : Plain ("fmt.Sprintf" ++ "(" ++ _ ++ ")") :=
        plain_arguments ⟨_, by decide, passes_word (by decide)⟩ listed
      have split : "fmt.Sprintf(" = "fmt.Sprintf" ++ "(" := rfl
      simpa only [split, String.append_assoc] using called
  | .composite ty es _, formed, bracketed => by
    obtain ⟨elem, sliced⟩ := bracketed ty List.mem_cons_self
    have spelled := Construct.AllFormed.spelled formed
    obtain ⟨typed, each⟩ := Construct.allSpelled_composite.mp (Construct.allSpelled_primary.mp spelled)
    have entries := balanced_commas (entries_balanced words locals level es each)
    rw [sliced] at typed
    obtain ⟨b, passes⟩ := type_passes words.runtime elem (TypeExpr.spelled_slice.mp typed)
    have brackets : Passes (outside false []) "[]" (outside true []) := passes_brackets
    have literal := brackets.append (passes.append (passes_curly entries))
    rw [Lexical.primary, sliced, Lexical.type, type]
    exact ⟨['\x7d'], by decide, by simpa only [String.append_assoc] using literal⟩
  | .make ty args _, formed, _ => by
    have spelled := Construct.AllFormed.spelled formed
    obtain ⟨typed, each⟩ := Construct.allSpelled_make.mp (Construct.allSpelled_primary.mp spelled)
    have inside := balanced_commas (List.forall_mem_cons.mpr
      ⟨type_balanced words typed, exprs_balanced words locals level args each⟩)
    rw [Lexical.primary]
    exact plain_arguments (t := "make") ⟨_, by decide, passes_word (by decide)⟩ inside
  | .index target index _, formed, bracketed => by
    obtain ⟨-, first, second⟩ := Construct.throughout_index.mp (Construct.throughout_primary.mp formed).2
    rw [Lexical.primary]
    exact plain_brackets (primary_plain words access locals level target first bracketed)
      (expr_balanced words locals level index (Construct.AllFormed.spelled second))
      (expr_inhabited access locals level index second)
  | .slice target low high _, formed, bracketed => by
    obtain ⟨-, first, lows, highs⟩ := Construct.throughout_slice.mp (Construct.throughout_primary.mp formed).2
    have bounds := ((optional_balanced words locals level low fun e member =>
      Construct.AllFormed.spelled (lows e member)).text (by decide : Balanced ":")).text
      (optional_balanced words locals level high fun e member => Construct.AllFormed.spelled (highs e member))
    have sliced := plain_brackets (primary_plain words access locals level target first bracketed) bounds (by simp)
    rw [Lexical.primary]
    simpa only [String.append_assoc] using sliced
  | .select b segments _, formed, bracketed => by
    obtain ⟨⟨named, names⟩, inside⟩ := Construct.throughout_select.mp (Construct.throughout_primary.mp formed).2
    rw [Lexical.primary]
    exact plain_path (base_plain words access locals level b named inside bracketed) names
  | .call b segments args _, formed, bracketed => by
    obtain ⟨⟨named, names⟩, inside, given⟩ := Construct.throughout_call.mp (Construct.throughout_primary.mp formed).2
    have listed := balanced_commas (exprs_balanced words locals level args fun e member =>
      Construct.AllFormed.spelled (given e member))
    rw [Lexical.primary]
    exact plain_arguments (plain_path (base_plain words access locals level b named inside bracketed) names) listed
  | .func ps results body _, formed, _ => by
    obtain ⟨-, params, types, inside⟩ := Construct.throughout_func.mp (Construct.throughout_primary.mp formed).2
    have listed := balanced_commas (params_balanced words fun p member => Construct.AllFormed.spelled (params p member))
    have each (t : Located TypeExpr) (member : t ∈ results) : t.value.Spelled := types t member
    have typed : ∀ t ∈ results.map fun t => Lexical.type env t.value,
        ∃ b, Passes (outside true []) t (outside true b) :=
      List.forall_mem_map.mpr fun t member => type_passes words.runtime t.value (each t member)
    rw [Lexical.primary]
    exact funcText_plain _ (signature_passes listed (types_balanced words each) typed)
      (block_lays words _ (level + 1) body (Construct.AllFormed.spelled inside))
  | .receive channel _, formed, _ => by
    rw [Lexical.primary]
    exact receive_plain access locals (Construct.throughout_primary.mp formed).2.here
  | .unary op operand _, formed, bracketed => by
    obtain ⟨-, inside⟩ := Construct.throughout_unary.mp (Construct.throughout_primary.mp formed).2
    obtain ⟨b, noFunc, passes⟩ := primary_plain words access locals level operand inside bracketed
    rw [Lexical.primary]
    exact ⟨b, noFunc, (unaryOp_passes op).append passes⟩
  | .paren inner, formed, _ => by
    have inside := expr_balanced words locals level inner
      (Construct.AllFormed.spelled (Construct.throughout_primary.mp formed).2)
    rw [Lexical.primary]
    exact plain_arguments (t := "") .empty inside

theorem base_plain {env : Env} (words : EnvSpelled env) (access : EnvAccess env) (locals : Locals) (level : Nat) :
    (b : Base) → b.Formed → (∀ d ∈ b.constructs, d.AllFormed) → Bracketed b.exposed →
      Plain (Lexical.base env locals level b)
  | .name n, named, _, _ => by
    rw [Lexical.base]
    exact (name_access access locals named).plain
  | .operand p, _, inside, bracketed => by
    rw [Lexical.base]
    exact primary_plain words access locals level p (inside (.primary p) List.mem_cons_self) bracketed

end

theorem rangeVars_passes {key value : Option Name} (names : AllNames (key.toList ++ value.toList)) :
    Passes (outside false []) (Lower.rangeVars key value ++ "range ") (outside false []) := by
  obtain ⟨first, second⟩ := List.forall_mem_append.mp names
  have plain {o : Option Name} (named : AllNames o.toList) (n : Name) (given : n ∈ o) : Plain n.value :=
    (named n (Option.mem_toList.mpr given)).access.plain
  have word : Passes (outside false []) ("range" ++ " ") (outside false []) :=
    (passes_word (by decide)).append (space_passes false _)
  refine Passes.append ?_ word
  cases key with
  | none =>
    cases value with
    | none => exact .refl
    | some v =>
      have blank : Plain "_" := ⟨_, by decide, passes_word (by decide)⟩
      have both : Plain ("_" ++ ", " ++ v.value) := blank.then (fun _ _ => rfl) (plain second v rfl)
      exact both.ended fun _ _ => rfl
  | some k =>
    cases value with
    | none => exact (plain first k rfl).ended fun _ _ => rfl
    | some v =>
      have both : Plain (k.value ++ ", " ++ v.value) := (plain first k rfl).then (fun _ _ => rfl) (plain second v rfl)
      exact both.ended fun _ _ => rfl

section

variable {env : Env} (words : EnvSpelled env) (access : EnvAccess env)

include words access

theorem exprs_plain (locals : Locals) (level : Nat) {es : List Expr} (formed : ∀ e ∈ es, (Construct.expr e).AllFormed)
    (bracketed : Bracketed (es.flatMap Expr.exposed)) : ∀ t ∈ Lexical.exprs env locals level es, Plain t := by
  induction es with
  | nil =>
    rw [Lexical.exprs]
    exact List.forall_mem_nil _
  | cons e es ih =>
    obtain ⟨first, others⟩ := List.forall_mem_cons.mp formed
    rw [List.flatMap_cons, bracketed_append] at bracketed
    rw [Lexical.exprs]
    exact List.forall_mem_cons.mpr
      ⟨expr_plain words access locals level e first bracketed.1, ih others bracketed.2⟩

theorem definedTargets_plain (locals : Locals) (level : Nat) {es : List Expr}
    (formed : ∀ e ∈ es, (Construct.expr e).AllFormed) (bracketed : Bracketed (es.flatMap Expr.exposed)) :
    ∀ t ∈ Lexical.definedTargets env locals level es, Plain t := by
  induction es generalizing locals with
  | nil =>
    rw [Lexical.definedTargets]
    exact List.forall_mem_nil _
  | cons e es ih =>
    obtain ⟨first, others⟩ := List.forall_mem_cons.mp formed
    rw [List.flatMap_cons, bracketed_append] at bracketed
    rw [Lexical.definedTargets]
    split
    · rename_i name found
      exact List.forall_mem_cons.mpr ⟨(ident_isName first found).access.plain, ih _ others bracketed.2⟩
    · exact List.forall_mem_cons.mpr
        ⟨expr_plain words access locals level e first bracketed.1, ih _ others bracketed.2⟩

theorem simple_plain (locals : Locals) (level : Nat) {s : SimpleStmt}
    (formed : (Construct.stmt (.simple s)).AllFormed) (bracketed : Bracketed s.exposed) :
    Plain (Lexical.simple env locals level s) := by
  have inside := (Construct.throughout_stmt.mp formed).2
  cases s with
  | exprs targets span =>
    rw [Lexical.simple]
    exact plain_commas (exprs_plain words access locals level (Construct.throughout_exprs.mp inside).2 bracketed)
  | assign targets op values span =>
    obtain ⟨-, first, second⟩ := Construct.throughout_assign.mp inside
    obtain ⟨left, right⟩ := bracketed_append.mp bracketed
    have assigned := plain_commas (exprs_plain words access locals level second right)
    have named := plain_commas (exprs_plain words access locals level first left)
    rw [Lexical.simple]
    split
    · have defined := plain_commas (definedTargets_plain words access locals level first left)
      exact defined.then (fun _ _ => rfl) assigned
    · split
      · rename_i inPlace
        refine ⟨[], by decide, named.ended fun b => ?_⟩
        cases same : op.value <;> rw [same] at inPlace <;> first
          | exact absurd inPlace (by decide)
          | exact fun _ => rfl
      · have moved := named.then (assignOp_passes op.value) assigned
        simpa only [String.append_assoc] using moved
  | send channel value span =>
    obtain ⟨-, first, second⟩ := Construct.throughout_send.mp inside
    obtain ⟨left, right⟩ := bracketed_append.mp bracketed
    rw [Lexical.simple]
    exact (expr_plain words access locals level channel first left).then (fun _ _ => rfl)
      (expr_plain words access locals level value second right)

theorem clause_plain (locals : Locals) (level : Nat) {clause : Option SimpleStmt}
    (formed : ∀ s ∈ clause, (Construct.stmt (.simple s)).AllFormed) (bracketed : ∀ s ∈ clause, Bracketed s.exposed) :
    Plain (Lexical.clause env locals level clause) := by
  cases clause with
  | none => exact .empty
  | some s =>
    rw [Lexical.clause]
    exact simple_plain words access locals level (formed s rfl) (bracketed s rfl)

theorem optional_plain (locals : Locals) (level : Nat) {test : Option Expr}
    (formed : ∀ e ∈ test, (Construct.expr e).AllFormed) (bracketed : ∀ e ∈ test, Bracketed e.exposed) :
    Plain (Lexical.optional env locals level test) := by
  cases test with
  | none => exact .empty
  | some e =>
    rw [Lexical.optional]
    exact expr_plain words access locals level e (formed e rfl) (bracketed e rfl)

theorem expr_passes (locals : Locals) (level : Nat) (e : Expr) (formed : (Construct.expr e).AllFormed)
    (bracketed : Bracketed e.exposed) :
    Passes (outside false []) (Lexical.expr env locals level e ++ " ") (outside false []) :=
  (expr_plain words access locals level e formed bracketed).ended fun _ _ => rfl

theorem leading_passes (locals : Locals) (level : Nat) {clause : Option SimpleStmt}
    (formed : ∀ s ∈ clause, (Construct.stmt (.simple s)).AllFormed) (bracketed : ∀ s ∈ clause, Bracketed s.exposed) :
    Passes (outside false []) (Lexical.leading env locals level clause) (outside false []) := by
  cases clause with
  | none => exact .refl
  | some s =>
    rw [Lexical.leading]
    exact (simple_plain words access locals level (formed s rfl) (bracketed s rfl)).ended fun _ _ => rfl

/-- The header of a conditional, in front of the brace. -/
theorem ifHeader_opens (locals : Locals) (level : Nat) {s : IfStmt} (formed : (Construct.cond s).AllFormed) :
    OpensBlock (Lexical.leading env locals level s.init ++
      (Lexical.expr env (locals.extend (Lexical.declaredByClause s.init)) level s.cond ++ " ")) := by
  obtain ⟨here, init, test, -⟩ := Construct.throughout_cond.mp formed
  obtain ⟨left, right⟩ := bracketed_append.mp here
  exact ((leading_passes words access locals level init (bracketed_toList.mp left)).append
    (expr_passes words access _ level s.cond test right)).opensBlock

theorem loopHeader_opens (locals : Locals) (level : Nat) {header : LoopHeader} {body : Block} {span : Span}
    (formed : (Construct.loop header body span).AllFormed) :
    ∃ text, OpensBlock text ∧ Lexical.loopHead env locals level header = "for " ++ text ++ "\x7b" := by
  obtain ⟨here, inside, -⟩ := Construct.throughout_loop.mp formed
  have brace : " \x7b" = " " ++ "\x7b" := rfl
  cases header with
  | infinite => exact ⟨"", Passes.refl.opensBlock, by rw [Lexical.loopHead]; rfl⟩
  | cond e =>
    refine ⟨_, (expr_passes words access locals level e (inside (.expr e) List.mem_cons_self) here).opensBlock, ?_⟩
    rw [Lexical.loopHead, brace]
    simp only [String.append_assoc]
  | classic init test post =>
    simp only [LoopHeader.constructs, List.forall_mem_append, List.forall_mem_map, Option.mem_toList] at inside
    obtain ⟨⟨inits, tests⟩, posts⟩ := inside
    obtain ⟨front, right⟩ := bracketed_append.mp here
    obtain ⟨left, middle⟩ := bracketed_append.mp front
    have first := clause_plain words access locals level inits (bracketed_toList.mp left)
    have second := optional_plain words access (locals.extend (Lexical.declaredByClause init)) level tests
      (bracketed_toList.mp middle)
    have third := clause_plain words access (locals.extend (Lexical.declaredByClause init)) level posts
      (bracketed_toList.mp right)
    have clauses : Plain (_ ++ "; " ++ _ ++ "; " ++ _) :=
      (first.then (fun _ _ => rfl) second).then (fun _ _ => rfl) third
    refine ⟨_, (clauses.ended fun _ _ => rfl : Passes _ (_ ++ " ") _).opensBlock, ?_⟩
    rw [Lexical.loopHead, brace]
    simp only [String.append_assoc]
  | range key value iterable =>
    have ranged := expr_passes words access locals level iterable (inside (.expr iterable) List.mem_cons_self) here.2
    refine ⟨_, ((rangeVars_passes here.1).append ranged).opensBlock, ?_⟩
    rw [Lexical.loopHead, brace]
    simp only [String.append_assoc]

end

def nodeIfOpening (env : Env) (level : Nat) : String :=
  "func() " ++ Lexical.runtime env "Node" ++ " \x7b\n" ++ Lower.pad (level + 1)

/-- Of what is generated for the construct, the header ends in front of the block. The first line of a statement ends
with the brace that opens the block; in a node, the brace is the one behind the text of the condition or iterable. -/
def HeaderOpens (env : Env) (level : Nat) (s : LowerState) : Construct → Prop
  | .cond c => ∃ header, OpensBlock header ∧ ∀ opening,
    ((Lower.ifStmt env level opening c).run s).1.head? = some (.text level (opening ++ header ++ "\x7b"))
  | .loop header body span => ∃ text, OpensBlock text ∧
    ((Lower.stmt env level (.loop header body span)).run s).1.head? = some (.text level ("for " ++ text ++ "\x7b"))
  | .nodeIf c =>
    let header := ((Lower.expr env (level + 1) c.cond).run s).1 ++ " "
    OpensBlock header ∧ ∃ closing,
      ((Lower.nodeIf env level c).run s).1 = nodeIfOpening env level ++ "if " ++ header ++ "\x7b" ++ closing
  | .nodeFor l =>
    let header := Lower.rangeVars l.key l.value ++ "range " ++ ((Lower.expr env (level + 1) l.iterable).run s).1 ++ " "
    OpensBlock header ∧ ∃ closing,
      ((Lower.nodeFor env level l).run s).1 = nodeLoopOpening env level ++ "for " ++ header ++ "\x7b" ++ closing
  | _ => True

section

variable {env : Env} (words : EnvSpelled env) (access : EnvAccess env) (level : Nat) (scope : List String)
  (outer : List (List String)) (writes : List Bool) (uses : Uses)

include words access

theorem cond_header {c : IfStmt} (formed : (Construct.cond c).AllFormed) :
    HeaderOpens env level ⟨scope :: outer, writes, uses⟩ (.cond c) := by
  have brace : " \x7b" = " " ++ "\x7b" := rfl
  refine ⟨_, ifHeader_opens words access (scope ++ outer.flatten) level formed, fun opening => ?_⟩
  obtain ⟨uses', ran⟩ := ifStmt_runs env (scope ++ outer.flatten) level opening c scope outer writes uses rfl
  obtain ⟨init, cond, body, otherwise, span⟩ := c
  rw [ran, Lexical.ifStmt, brace]
  simp only [List.cons_append, List.head?_cons, String.append_assoc]

theorem loop_header {header : LoopHeader} {body : Block} {span : Span}
    (formed : (Construct.loop header body span).AllFormed) :
    HeaderOpens env level ⟨scope :: outer, writes, uses⟩ (.loop header body span) := by
  obtain ⟨text, opens, same⟩ := loopHeader_opens words access (scope ++ outer.flatten) level formed
  refine ⟨text, opens, ?_⟩
  obtain ⟨uses', ran⟩ := stmt_runs env (scope ++ outer.flatten) level (.loop header body span) scope outer writes uses
    rfl
  rw [ran, Lexical.stmt, same]
  rfl

theorem nodeIf_header {c : NodeIf} (formed : (Construct.nodeIf c).AllFormed) :
    HeaderOpens env level ⟨scope :: outer, writes, uses⟩ (.nodeIf c) := by
  have line : " \x7b\n" = " " ++ ("\x7b" ++ "\n") := rfl
  obtain ⟨here, test, -⟩ := Construct.throughout_nodeIf.mp formed
  obtain ⟨uses', read⟩ := expr_runs env (scope ++ outer.flatten) (level + 1) c.cond scope outer writes uses rfl
  obtain ⟨uses'', ran⟩ := nodeIf_runs env (scope ++ outer.flatten) level c scope outer writes uses rfl
  obtain ⟨cond, body, otherwise, span⟩ := c
  rw [HeaderOpens, read]
  refine ⟨(expr_passes words access _ (level + 1) cond test here).opensBlock, ?_⟩
  rw [ran, Lexical.nodeIf]
  unfold Lexical.condText nodeIfOpening
  rw [line]
  simp only [String.append_assoc]
  exact ⟨_, rfl⟩

theorem nodeFor_header {l : NodeFor} (formed : (Construct.nodeFor l).AllFormed) :
    HeaderOpens env level ⟨scope :: outer, writes, uses⟩ (.nodeFor l) := by
  have line : " \x7b\n" = " " ++ ("\x7b" ++ "\n") := rfl
  obtain ⟨here, ranged, -⟩ := Construct.throughout_nodeFor.mp formed
  obtain ⟨uses', read⟩ := expr_runs env (scope ++ outer.flatten) (level + 1) l.iterable scope outer writes uses rfl
  obtain ⟨uses'', ran⟩ := nodeFor_runs env (scope ++ outer.flatten) level l scope outer writes uses rfl
  obtain ⟨key, value, iterable, children, span⟩ := l
  rw [HeaderOpens, read]
  constructor
  · have passes := (rangeVars_passes here.1).append
      (expr_passes words access (scope ++ outer.flatten) (level + 1) iterable ranged here.2)
    rw [← String.append_assoc] at passes
    exact passes.opensBlock
  · rw [ran, Lexical.nodeFor]
    unfold Lexical.loopText nodeLoopOpening
    rw [line]
    simp only [String.append_assoc]
    exact ⟨_, rfl⟩

theorem header_opens {c : Construct} (formed : c.AllFormed) :
    HeaderOpens env level ⟨scope :: outer, writes, uses⟩ c := by
  cases c with
  | cond c => exact cond_header words access level scope outer writes uses formed
  | loop header body span => exact loop_header words access level scope outer writes uses formed
  | nodeIf c => exact nodeIf_header words access level scope outer writes uses formed
  | nodeFor l => exact nodeFor_header words access level scope outer writes uses formed
  | _ => trivial

end

/-- In a unit that was read, the header of no conditional or loop, in statements or among nodes, has a composite literal
of a named type outside brackets. In what is generated for it, wherever that stands, the first brace behind the header
that is neither in brackets nor behind a type with brackets in front or a signature is the one that opens its block. -/
theorem headers_open_blocks {file source : String} {u : SourceUnit} (accepted : parse file source = .ok u) :
    ∀ address c, (Construct.unit u).at? address = some c →
      Bracketed c.exposed ∧
      ∀ runtime, IsWord runtime →
        ∀ env, (env = plainEnv runtime u ∨ ∃ k ∈ u.components, env = componentEnv runtime u k) →
        ∀ level scope outer writes uses, HeaderOpens env level ⟨scope :: outer, writes, uses⟩ c := by
  intro address c found
  have whole := parsed_formed accepted
  have formed : c.AllFormed := whole.at found
  refine ⟨formed.here.bracketed, fun runtime word env given level scope outer writes uses => ?_⟩
  obtain ⟨-, -, -, components, -⟩ := Construct.throughout_unit.mp whole
  have spelled : ∀ k ∈ u.components, (Construct.component k).AllSpelled := fun k member =>
    Construct.AllFormed.spelled (components k member)
  rcases given with rfl | ⟨k, member, rfl⟩
  · exact header_opens (plainEnv_spelled word spelled) (plainEnv_access runtime u) level scope outer writes uses formed
  · exact header_opens (componentEnv_spelled word spelled (spelled k member))
      (componentEnv_access (components k member) runtime u) level scope outer writes uses formed

/-- A literal of a bracketed type may stand in front of a block, and so may a name. -/
def rowsSource : String :=
  "package p func f() \x7b for i := range []T\x7ba\x7d \x7b if i == t \x7b g(i) \x7d \x7d \x7d"

theorem headers_open_blocks_rows : ∃ u header body span text, parse "rows" rowsSource = .ok u ∧
    (Construct.unit u).at? [0, 0, 0, 0] = some (.loop header body span) ∧
    header.exposed.length = 1 ∧ Bracketed header.exposed ∧ OpensBlock text ∧
    "for " ++ text ++ "\x7b" = "for i := range []T\x7ba\x7d \x7b" := by
  have known : ((parse "rows" rowsSource).toOption.bind fun u => ((Construct.unit u).at? [0, 0, 0, 0]).bind fun
      | .loop header body span => some (header.exposed.length,
        ((Lower.stmt (plainEnv "ui" u) 1 (.loop header body span)).run ⟨[[]], [], false, false⟩).1.head?)
      | _ => none) = some (1, some (.text 1 "for i := range []T\x7ba\x7d \x7b")) := by decide +kernel
  obtain ⟨u, read, known⟩ := Option.bind_eq_some_iff.mp known
  obtain ⟨c, found, known⟩ := Option.bind_eq_some_iff.mp known
  have accepted := toOption_some_iff.mp read
  cases c with
  | loop header body span =>
    obtain ⟨count, line⟩ := Prod.mk.inj (Option.some.inj known)
    obtain ⟨bracketed, opens⟩ := headers_open_blocks accepted [0, 0, 0, 0] (.loop header body span) found
    obtain ⟨text, opened, same⟩ := opens "ui" (by decide) (plainEnv "ui" u) (.inl rfl) 1 [] [] [] ⟨false, false⟩
    obtain ⟨-, whole⟩ := Line.text.inj (Option.some.inj (line.symm.trans same))
    exact ⟨u, header, body, span, text, accepted, found, count, bracketed, opened, whole.symm⟩
  | _ => cases known

end Go
end ViewLang
