import Mathlib.Data.List.DropRight
import ViewLang.Gpu.Wgsl
import ViewLang.Proofs.Success
import ViewLang.Proofs.Syntax.Forms

namespace ViewLang.Gpu.Wgsl

def Flat (s : String) : Prop := ∀ c ∈ s.toList, c ≠ '\x7b' ∧ c ≠ '\x7d' ∧ c ≠ '\n'

def Starts (s : String) : Prop := ∃ c ∈ s.toList.head?, c ≠ ' '

def Shown (s : String) : Prop := Starts s ∧ Flat s

instance (s : String) : Decidable (Flat s) := List.decidableBAll (fun c => c ≠ '\x7b' ∧ c ≠ '\x7d' ∧ c ≠ '\n') s.toList

instance (s : String) : Decidable (Starts s) :=
  decidable_of_iff (s.toList.head?.any (· ≠ ' ') = true) (by simp [Starts, Option.any_eq_true])

instance (s : String) : Decidable (Shown s) := inferInstanceAs (Decidable (_ ∧ _))

variable {s t : String}

theorem Flat.append (first : Flat s) (second : Flat t) : Flat (s ++ t) := by
  intro c member
  rw [String.toList_append] at member
  rcases List.mem_append.mp member with left | right
  · exact first c left
  · exact second c right

theorem flat_join {ts : List String} (each : ∀ t ∈ ts, Flat t) : Flat (String.join ts) := by
  induction ts with
  | nil => exact nofun
  | cons t ts ih =>
    rw [List.forall_mem_cons] at each
    rw [String.join_cons]
    exact each.1.append (ih each.2)

theorem flat_commas {ts : List String} (each : ∀ t ∈ ts, Flat t) : Flat (", ".intercalate ts) :=
  intercalate_gives nofun (fun _ _ first second => (first.append (by decide)).append second) each

theorem flat_word (word : IsWord s) : Flat s := by
  intro c member
  refine ⟨?_, ?_, ?_⟩ <;>
  · rintro rfl
    exact absurd (word _ member) (by decide)

theorem flat_nat (n : Nat) : Flat (toString n) := by
  apply flat_word
  intro c member
  exact isWordChar_of_digit (Nat.isDigit_of_mem_toDigits (by decide) (by decide) (Nat.toList_repr ▸ member))

theorem Starts.append (starts : Starts s) (t : String) : Starts (s ++ t) := by
  obtain ⟨c, first, visible⟩ := starts
  refine ⟨c, ?_, visible⟩
  rw [String.toList_append, List.head?_append_of_ne_nil]
  · exact first
  · rintro none
    rw [none] at first
    cases first

theorem Shown.flat (shown : Shown s) : Flat s := shown.2

theorem Shown.append (first : Shown s) (second : Flat t) : Shown (s ++ t) :=
  ⟨first.1.append t, first.2.append second⟩

theorem shown_word (word : IsWord s) (inhabited : s.toList ≠ []) : Shown s := by
  obtain ⟨c, cs, same⟩ := List.exists_cons_of_ne_nil inhabited
  refine ⟨⟨c, by rw [same]; rfl, ?_⟩, flat_word word⟩
  rintro rfl
  exact absurd (word ' ' (by rw [same]; exact List.mem_cons_self)) (by decide)

end ViewLang.Gpu.Wgsl

theorem ViewLang.IsName.shown {s : String} (name : IsName s) : Gpu.Wgsl.Shown s := by
  obtain ⟨c, cs, same, -⟩ := name.head
  exact Gpu.Wgsl.shown_word name.word (by rw [same]; exact List.cons_ne_nil c cs)

namespace ViewLang.Gpu.Wgsl

variable {env : Env} {s t : String}

theorem shown_int (legal : Lexer.IntText s.toList) : Shown s := shown_word (isWord_of_int legal) (intText_ne_nil legal)

theorem shown_float (legal : Lexer.FloatText s.toList) : Shown s :=
  shown_word (isWord_of_float legal) (floatText_ne_nil legal)

/-- Attributes and the like may stand in front of what starts a line. -/
theorem shown_join_append {ts : List String} (each : ∀ t ∈ ts, Shown t) (shown : Shown s) :
    Shown (String.join ts ++ s) := by
  induction ts with
  | nil => exact shown
  | cons t ts ih =>
    rw [List.forall_mem_cons] at each
    rw [String.join_cons, String.append_assoc]
    exact each.1.append (ih each.2).flat

/-- Only blanks at the end are cut off, so the start of the text stays. -/
theorem Shown.trimEnd (shown : Shown s) (visible : ∀ c ∈ s.toList.head?, Text.isBlank c = false) :
    Shown (Text.trimEnd s) := by
  have cut : (Text.trimEnd s).toList = s.toList.rdropWhile Text.isBlank := String.toList_ofList
  have kept := List.rdropWhile_prefix Text.isBlank (l := s.toList)
  obtain ⟨⟨c, first, nonblank⟩, flat⟩ := shown
  have inhabited : s.toList.rdropWhile Text.isBlank ≠ [] := by
    intro none
    have blank := List.rdropWhile_eq_nil_iff.mp none c (List.mem_of_mem_head? first)
    rw [visible c first] at blank
    cases blank
  refine ⟨⟨c, ?_, nonblank⟩, fun d member => flat d (kept.subset (cut ▸ member))⟩
  obtain ⟨rest, parts⟩ := kept
  rw [← parts, List.head?_append_of_ne_nil _ inhabited] at first
  rw [cut]
  exact first

def Env.Spelled (env : Env) : Prop := ∀ s ∈ env.structs, ∀ f ∈ s.fields, f.ty.value.Spelled

theorem shown_value : ∀ t ∈ ValueType.table, Shown t.wgsl := by decide +kernel

theorem ofName?_shown {name : String} {t : ValueType} (found : ValueType.ofName? name = some t) : Shown t.wgsl :=
  shown_value t (List.mem_of_find?_eq_some found)

/-- Where an expression starts with its type, the type is shown, or what is behind it. -/
theorem plainType_shown {span : Span} {ty : TypeExpr} (spelled : ty.Spelled)
    (emitted : plainType env span ty = .ok t) : Shown t ∨ t = "" := by
  unfold plainType at emitted
  split at emitted
  · split at emitted
    · rename_i found
      cases emitted
      exact .inl (ofName?_shown found)
    · split at emitted
      · cases emitted
        by_cases none : t.toList = []
        · exact .inr (String.toList_eq_nil_iff.mp none)
        · exact .inl (shown_word (TypeExpr.spelled_named.mp spelled) none)
      · cases emitted
  all_goals cases emitted

theorem plainType_flat {span : Span} {ty : TypeExpr} (spelled : ty.Spelled) (emitted : plainType env span ty = .ok t) :
    Flat t := by
  rcases plainType_shown spelled emitted with shown | rfl
  · exact shown.flat
  · decide

theorem typeName_flat {ty : Located TypeExpr} (spelled : ty.value.Spelled) (emitted : typeName env ty = .ok t) :
    Flat t := plainType_flat spelled emitted

theorem bindingType_flat {ty : Located TypeExpr} {runtimeArray : Bool} (spelled : ty.value.Spelled)
    (emitted : bindingType env runtimeArray ty = .ok t) : Flat t := by
  unfold bindingType at emitted
  split at emitted
  · rename_i elem same
    obtain ⟨text, inner, result⟩ := bind_ok_iff.mp emitted
    cases result
    rw [same, TypeExpr.spelled_slice] at spelled
    exact ((by decide : Flat "array<").append (plainType_flat spelled inner)).append (by decide)
  · exact plainType_flat spelled emitted

theorem callee_shown {name : Name} (named : IsName name.value) (emitted : callee env name = .ok t) : Shown t := by
  unfold callee at emitted
  split at emitted
  · rename_i found
    cases emitted
    exact ofName?_shown found
  · split at emitted
    · cases emitted
      exact named.shown
    · cases emitted

theorem unaryText_shown (op : UnaryOp) (shown : Shown s) : Shown (unaryText op s) := by
  cases op with
  | plus => exact shown
  | _ => exact Shown.append (by decide) shown.flat

theorem shown_call (front : Shown s ∨ s = "") {args : List String} (each : ∀ a ∈ args, Flat a) :
    Shown (s ++ "(" ++ ", ".intercalate args ++ ")") := by
  have opened : Shown (s ++ "(") := by
    rcases front with shown | rfl
    · exact shown.append (by decide)
    · decide
  exact (opened.append (flat_commas each)).append (by decide)

def Entries.Flat (es : Entries) : Prop := ∀ e ∈ es, ∀ t, e.2 = .ok t → Wgsl.Flat t

theorem values_flat {es : Entries} (flat : es.Flat) {ts : List String} (emitted : es.values = .ok ts) :
    ∀ t ∈ ts, Flat t := by
  intro t member
  obtain ⟨e, inside, value⟩ := forall₂_mem_right (mapM_ok_forall₂.mp emitted) member
  exact flat e inside t value

theorem fieldArg_flat {es : Entries} {f : GpuField} (flat : es.Flat) (spelled : f.ty.value.Spelled)
    (emitted : fieldArg env es f = .ok t) : Flat t := by
  unfold fieldArg at emitted
  split at emitted
  · rename_i e found
    exact flat e (List.mem_of_find?_eq_some found) t emitted
  · obtain ⟨ty, typed, result⟩ := bind_ok_iff.mp emitted
    cases result
    exact (typeName_flat spelled typed).append (by decide)

theorem keyedComposite_shown {ty : Located TypeExpr} {es : Entries} {span : Span} (fields : env.Spelled)
    (flat : es.Flat) (front : Shown s ∨ s = "") (emitted : keyedComposite env ty s es span = .ok t) : Shown t := by
  unfold keyedComposite at emitted
  split at emitted
  · cases emitted
  · rename_i decl found
    split at emitted
    · cases emitted
    · obtain ⟨args, given, result⟩ := bind_ok_iff.mp emitted
      cases result
      refine shown_call front fun a member => ?_
      obtain ⟨f, inside, arg⟩ := forall₂_mem_right (mapM_ok_forall₂.mp given) member
      exact fieldArg_flat flat (fields decl (List.mem_of_find?_eq_some found) f inside) arg

theorem composite_shown {ty : Located TypeExpr} {es : Entries} {span : Span} (fields : env.Spelled) (flat : es.Flat)
    (spelled : ty.value.Spelled) (emitted : composite env ty es span = .ok t) : Shown t := by
  unfold composite at emitted
  dsimp only at emitted
  split at emitted
  · cases emitted
  · split at emitted
    · rename_i elem same
      split at emitted
      · cases emitted
      · obtain ⟨inner, typed, values, given, result⟩ := by simpa only [bind_ok_iff] using emitted
        cases result
        rw [same, TypeExpr.spelled_slice] at spelled
        have opened : Shown ("array<" ++ inner ++ ", " ++ toString es.length ++ ">") :=
          ((((by decide : Shown "array<").append (plainType_flat spelled typed)).append (by decide)).append
            (flat_nat _)).append (by decide)
        have split : ">(" = ">" ++ "(" := rfl
        simpa only [split, String.append_assoc] using shown_call (.inl opened) (values_flat flat given)
    · obtain ⟨text, typed, result⟩ := bind_ok_iff.mp emitted
      have front := plainType_shown spelled typed
      split at result
      · obtain ⟨values, given, result⟩ := bind_ok_iff.mp result
        cases result
        exact shown_call front (values_flat flat given)
      · exact keyedComposite_shown fields flat front result

theorem path_shown (shown : Shown s) {path : List Name} (each : AllNames path) :
    Shown (path.foldl (fun text segment => text ++ "." ++ segment.value) s) := by
  induction path generalizing s with
  | nil => exact shown
  | cons segment path ih =>
    obtain ⟨named, others⟩ := List.forall_mem_cons.mp each
    exact ih ((shown.append (by decide)).append named.shown.flat) others

mutual

theorem expr_shown (fields : env.Spelled) : (e : Expr) → (Construct.expr e).AllFormed → {t : String} →
    expr env e = .ok t → Shown t
  | ⟨head, tail, _⟩, formed, t, emitted => by
    obtain ⟨-, first, others⟩ := Construct.throughout_expr.mp formed
    rw [expr] at emitted
    obtain ⟨front, written, rest, behind, result⟩ := by simpa only [bind_ok_iff] using emitted
    cases result
    exact (primary_shown fields head first written).append (links_flat fields tail others behind)

theorem links_flat (fields : env.Spelled) : (ls : List Link) →
    (∀ l ∈ ls, (Construct.primary l.operand).AllFormed) → {t : String} → links env ls = .ok t → Flat t
  | [], _, t, emitted => by
    rw [links] at emitted
    cases emitted
    exact nofun
  | ⟨op, operand⟩ :: ls, formed, t, emitted => by
    rw [List.forall_mem_cons] at formed
    rw [links] at emitted
    split at emitted
    · cases emitted
    · obtain ⟨text, written, rest, behind, result⟩ := by simpa only [bind_ok_iff] using emitted
      cases result
      have operator : Flat op.value.text := by cases op.value <;> decide
      exact ((((by decide : Flat " ").append operator).append (by decide)).append
        (primary_shown fields operand formed.1 written).flat).append (links_flat fields ls formed.2 behind)

theorem exprs_flat (fields : env.Spelled) : (es : List Expr) → (∀ e ∈ es, (Construct.expr e).AllFormed) →
    {ts : List String} → exprs env es = .ok ts → ∀ t ∈ ts, Flat t
  | [], _, ts, emitted => by
    rw [exprs] at emitted
    cases emitted
    exact nofun
  | e :: es, formed, ts, emitted => by
    rw [List.forall_mem_cons] at formed
    rw [exprs] at emitted
    obtain ⟨text, written, rest, behind, result⟩ := by simpa only [bind_ok_iff] using emitted
    cases result
    rw [List.forall_mem_cons]
    exact ⟨(expr_shown fields e formed.1 written).flat, exprs_flat fields es formed.2 behind⟩

theorem entries_flat (fields : env.Spelled) : (es : List Entry) → (∀ e ∈ es, (Construct.expr e.value).AllFormed) →
    (entries env es).Flat
  | [], _ => by
    rw [entries]
    exact nofun
  | ⟨_, value⟩ :: es, formed => by
    rw [List.forall_mem_cons] at formed
    rw [entries, Entries.Flat, List.forall_mem_cons]
    exact ⟨fun _ written => (expr_shown fields value formed.1 written).flat, entries_flat fields es formed.2⟩

theorem primary_shown (fields : env.Spelled) : (p : Primary) → (Construct.primary p).AllFormed → {t : String} →
    primary env p = .ok t → Shown t
  | .int text, formed, t, emitted => by
    rw [primary] at emitted
    cases emitted
    exact shown_int (Construct.throughout_primary.mp formed).2.here
  | .float text, formed, t, emitted => by
    rw [primary] at emitted
    cases emitted
    exact shown_float (Construct.throughout_primary.mp formed).2.here
  | .composite ty es span, formed, t, emitted => by
    obtain ⟨-, spelled, values⟩ := Construct.throughout_composite.mp (Construct.throughout_primary.mp formed).2
    rw [primary] at emitted
    exact composite_shown fields (entries_flat fields es values) spelled emitted
  | .index target i span, formed, t, emitted => by
    obtain ⟨-, first, second⟩ := Construct.throughout_index.mp (Construct.throughout_primary.mp formed).2
    rw [primary] at emitted
    obtain ⟨front, written, inner, behind, result⟩ := by simpa only [bind_ok_iff] using emitted
    cases result
    exact (((primary_shown fields target first written).append (by decide)).append
      (expr_shown fields i second behind).flat).append (by decide)
  | .select b path span, formed, t, emitted => by
    obtain ⟨⟨named, names⟩, inside⟩ := Construct.throughout_select.mp (Construct.throughout_primary.mp formed).2
    rw [primary] at emitted
    obtain ⟨front, written, result⟩ := bind_ok_iff.mp emitted
    cases result
    exact path_shown (base_shown fields b named inside written) names
  | .call (.name n) [] args span, formed, t, emitted => by
    obtain ⟨⟨named, -⟩, -, given⟩ := Construct.throughout_call.mp (Construct.throughout_primary.mp formed).2
    rw [primary] at emitted
    obtain ⟨_, -, name, called, texts, written, result⟩ := by simpa only [bind_ok_iff] using emitted
    cases result
    exact shown_call (.inl (callee_shown named called)) (exprs_flat fields args given written)
  | .unary op operand span, formed, t, emitted => by
    obtain ⟨-, inner⟩ := Construct.throughout_unary.mp (Construct.throughout_primary.mp formed).2
    rw [primary] at emitted
    obtain ⟨text, written, result⟩ := bind_ok_iff.mp emitted
    cases result
    exact unaryText_shown op (primary_shown fields operand inner written)
  | .paren inner, formed, t, emitted => by
    have inside := (Construct.throughout_primary.mp formed).2
    rw [primary] at emitted
    obtain ⟨text, written, result⟩ := bind_ok_iff.mp emitted
    cases result
    exact ((by decide : Shown "(").append (expr_shown fields inner inside written).flat).append (by decide)
  | .call (.name _) (_ :: _) _ _, _, t, emitted => by
    rw [primary] at emitted
    obtain ⟨_, -, _, called, -⟩ := by simpa only [bind_ok_iff] using emitted
    cases called
  | .call (.operand _) _ _ _, _, t, emitted => by
    rw [primary] at emitted
    obtain ⟨_, -, _, called, -⟩ := by simpa only [bind_ok_iff] using emitted
    cases called
  | .slice target _ _ _, _, t, emitted => by
    rw [primary] at emitted
    obtain ⟨_, -, refused⟩ := bind_ok_iff.mp emitted
    cases refused
  | .make ty _ _, _, t, emitted => by
    rw [primary] at emitted
    split at emitted <;> cases emitted
  | .string _, _, t, emitted => by
    rw [primary] at emitted
    cases emitted
  | .template _, _, t, emitted => by
    rw [primary] at emitted
    cases emitted
  | .func _ _ _ _, _, t, emitted => by
    rw [primary] at emitted
    cases emitted
  | .receive _ _, _, t, emitted => by
    rw [primary] at emitted
    cases emitted

theorem base_shown (fields : env.Spelled) : (b : Base) → b.Formed → (∀ d ∈ b.constructs, d.AllFormed) → {t : String} →
    base env b = .ok t → Shown t
  | .name n, named, _, t, emitted => by
    rw [base] at emitted
    cases emitted
    exact IsName.shown named
  | .operand p, _, inside, t, emitted => by
    rw [base] at emitted
    exact primary_shown fields p (inside (.primary p) List.mem_cons_self) emitted

end

theorem assign_shown (fields : env.Spelled) {targets values : List Expr} {op : Located AssignOp} {span : Span}
    (formed : (Construct.assign targets op values span).AllFormed)
    (emitted : assign env targets op.value values span = .ok t) : Shown t := by
  obtain ⟨-, left, right⟩ := Construct.throughout_assign.mp formed
  have operator : Flat op.value.text := by cases op.value <;> decide
  unfold assign at emitted
  split at emitted
  · rename_i target
    have target_formed := left target List.mem_cons_self
    split at emitted
    · obtain ⟨front, written, result⟩ := bind_ok_iff.mp emitted
      cases result
      exact (expr_shown fields target target_formed written).append operator
    · split at emitted
      · rename_i value
        obtain ⟨text, written, result⟩ := bind_ok_iff.mp emitted
        have flat := (expr_shown fields value (right value List.mem_cons_self) written).flat
        split at result
        · split at result
          · rename_i name named
            cases result
            have declared := (ident_isName target_formed named).shown.flat
            exact (((by decide : Shown "var ").append declared).append (by decide)).append flat
          · cases result
        · obtain ⟨front, written', result⟩ := bind_ok_iff.mp result
          cases result
          exact ((((expr_shown fields target target_formed written').append (by decide)).append operator).append
            (by decide)).append flat
      · cases emitted
  · cases emitted

theorem simple_shown (fields : env.Spelled) {s : SimpleStmt} (formed : (Construct.stmt (.simple s)).AllFormed)
    (emitted : simple env s = .ok t) : Shown t := by
  have inside := (Construct.throughout_stmt.mp formed).2
  cases s with
  | exprs targets span =>
    change callStmt env targets span = .ok t at emitted
    unfold callStmt at emitted
    split at emitted
    · rename_i e
      split at emitted
      · exact expr_shown fields e ((Construct.throughout_exprs.mp inside).2 e List.mem_cons_self) emitted
      · cases emitted
    · cases emitted
  | assign targets op values span => exact assign_shown fields inside emitted
  | send channel value span => cases emitted

theorem clause_shown (fields : env.Spelled) {s : SimpleStmt} (formed : (Construct.stmt (.simple s)).AllFormed)
    (emitted : clause env s = .ok t) : Shown t := by
  cases s with
  | send channel value span => cases emitted
  | exprs | assign => exact simple_shown fields formed emitted

theorem mapM_flat {α : Type} {o : Option α} {f : α → Result String} (each : ∀ a ∈ o, ∀ t, f a = .ok t → Shown t)
    {r : Option String} (emitted : o.mapM f = .ok r) : Flat (r.getD "") := by
  cases o with
  | none =>
    cases emitted
    exact nofun
  | some a =>
    obtain ⟨t, written, result⟩ := bind_ok_iff.mp emitted
    cases result
    exact (each a rfl t written).flat

/-- The line that opens a loop has no brace but the one at its end. -/
theorem loopHead_shown (fields : env.Spelled) {header : LoopHeader} {span : Span}
    (formed : ∀ d ∈ header.constructs, d.AllFormed) (emitted : loopHead env span header = .ok t) :
    ∃ front, t = front ++ " \x7b" ∧ Shown front := by
  cases header with
  | infinite =>
    cases emitted
    exact ⟨"loop", rfl, by decide⟩
  | cond e =>
    obtain ⟨text, written, result⟩ := bind_ok_iff.mp emitted
    cases result
    have flat := (expr_shown fields e (formed (.expr e) List.mem_cons_self) written).flat
    exact ⟨_, rfl, (by decide : Shown "while ").append flat⟩
  | classic init test post =>
    simp only [LoopHeader.constructs, List.forall_mem_append, List.forall_mem_map, Option.mem_toList] at formed
    obtain ⟨⟨inits, tests⟩, posts⟩ := formed
    obtain ⟨first, written₁, second, written₂, third, written₃, result⟩ := by
      simpa only [loopHead, bind_ok_iff] using emitted
    cases result
    have clauses := mapM_flat (fun s member _ => clause_shown fields (inits s member)) written₁
    have begun := (by decide : Shown "for (").append clauses
    have tested := (begun.append (by decide : Flat "; ")).append
      (mapM_flat (fun e member _ => expr_shown fields e (tests e member)) written₂)
    have closed := ((tested.append (by decide : Flat "; ")).append
      (mapM_flat (fun s member _ => clause_shown fields (posts s member)) written₃)).append (by decide : Flat ")")
    refine ⟨_, ?_, closed⟩
    have split : ") \x7b" = ")" ++ " \x7b" := rfl
    rw [split]
    simp only [String.append_assoc]
  | range key value iterable => cases emitted

theorem varText_shown {d : VarDecl} {ty : Option String} {value : Option String} (typed : ∀ t ∈ ty, Flat t)
    (named : IsName s) (valued : ∀ v ∈ value, Flat v) (emitted : varText d ty s value = .ok t) : Shown t := by
  have begun : Shown ("var " ++ s) := (by decide : Shown "var ").append named.shown.flat
  cases ty with
  | none =>
    cases value with
    | none => cases emitted
    | some v =>
      cases emitted
      exact (begun.append (by decide)).append (valued v rfl)
  | some ty =>
    have whole := (begun.append (by decide : Flat ": ")).append (typed ty rfl)
    cases value with
    | none =>
      cases emitted
      exact whole
    | some v =>
      cases emitted
      exact (whole.append (by decide)).append (valued v rfl)

theorem varTexts_shown (fields : env.Spelled) {d : VarDecl} {ty : Option String} (typed : ∀ t ∈ ty, Flat t)
    {names : List Name} (named : AllNames names) {values : List Expr}
    (formed : ∀ e ∈ values, (Construct.expr e).AllFormed) {ts : List String}
    (emitted : varTexts env d ty names values = .ok ts) : ∀ t ∈ ts, Shown t := by
  induction names generalizing values ts with
  | nil =>
    rw [varTexts] at emitted
    cases emitted
    exact nofun
  | cons name names ih =>
    obtain ⟨isName, others⟩ := List.forall_mem_cons.mp named
    cases values with
    | nil =>
      obtain ⟨first, written, rest, behind, result⟩ := by simpa only [varTexts, bind_ok_iff] using emitted
      cases result
      rw [List.forall_mem_cons]
      exact ⟨varText_shown typed isName (by simp) written, ih others (List.forall_mem_nil _) behind⟩
    | cons e es =>
      rw [List.forall_mem_cons] at formed
      obtain ⟨value, valued, first, written, rest, behind, result⟩ := by
        simpa only [varTexts, bind_ok_iff] using emitted
      cases result
      rw [List.forall_mem_cons]
      refine ⟨varText_shown typed isName ?_ written, ih others formed.2 behind⟩
      intro v same
      cases Option.mem_some_iff.mp same
      exact (expr_shown fields e formed.1 valued).flat

theorem varDecl_shown (fields : env.Spelled) {d : VarDecl} (formed : (Construct.varDecl d).AllFormed)
    {ts : List String} (emitted : varDecl env d = .ok ts) : ∀ t ∈ ts, Shown t := by
  obtain ⟨named, types, values⟩ := Construct.throughout_varDecl.mp formed
  unfold varDecl at emitted
  split at emitted
  · cases emitted
  · obtain ⟨ty, written, texts⟩ := bind_ok_iff.mp emitted
    refine varTexts_shown fields ?_ named values texts
    rintro t rfl
    cases declared : d.ty with
    | none =>
      rw [declared] at written
      cases written
    | some located =>
      rw [declared] at written
      obtain ⟨text, typed, result⟩ := bind_ok_iff.mp written
      cases result
      exact typeName_flat (types located declared) typed

theorem attributeText_shown (fields : env.Spelled) {target : Target} {d : Decorator}
    (formed : (Construct.decorator d).AllFormed) (emitted : attributeText env target d = .ok t) :
    ∃ text, t = "@" ++ text ∧ Flat text := by
  obtain ⟨named, given⟩ := Construct.throughout_decorator.mp formed
  have flat : Flat d.name.value := (IsName.shown named).flat
  obtain ⟨_, -, rest⟩ := bind_ok_iff.mp emitted
  split at rest
  · cases rest
    exact ⟨_, String.append_assoc, flat.append (by decide)⟩
  · obtain ⟨args, written, result⟩ := bind_ok_iff.mp rest
    cases result
    refine ⟨d.name.value ++ "(" ++ ", ".intercalate args ++ ") ", by simp only [String.append_assoc], ?_⟩
    exact ((flat.append (by decide)).append (flat_commas (exprs_flat fields d.args given written))).append (by decide)

theorem attributes_shown (fields : env.Spelled) {target : Target} {ds : List Decorator}
    (formed : ∀ d ∈ ds, (Construct.decorator d).AllFormed) (emitted : attributes env target ds = .ok t) :
    ∃ ts : List String, t = String.join ts ∧ ∀ text ∈ ts, ∃ behind, text = "@" ++ behind ∧ Flat behind := by
  obtain ⟨ts, written, result⟩ := bind_ok_iff.mp emitted
  cases result
  refine ⟨ts, rfl, fun text member => ?_⟩
  obtain ⟨d, inside, single⟩ := forall₂_mem_right (mapM_ok_forall₂.mp written) member
  exact attributeText_shown fields (formed d inside) single

theorem member_shown (fields : env.Spelled) {target : Target} {f : GpuField}
    (decorators : ∀ d ∈ f.decorators, (Construct.decorator d).AllFormed) (named : IsName f.name.value)
    (spelled : f.ty.value.Spelled) (emitted : member env target f = .ok t) : Shown t := by
  obtain ⟨attrs, written, ty, typed, result⟩ := by simpa only [member, bind_ok_iff] using emitted
  cases result
  obtain ⟨ts, rfl, each⟩ := attributes_shown fields decorators written
  have begun : Shown (String.join ts ++ f.name.value) := by
    refine shown_join_append (fun text inside => ?_) named.shown
    obtain ⟨behind, rfl, flat⟩ := each text inside
    exact (by decide : Shown "@").append flat
  exact (begun.append (by decide)).append (typeName_flat spelled typed)

end ViewLang.Gpu.Wgsl
