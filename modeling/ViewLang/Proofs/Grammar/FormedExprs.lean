import ViewLang.Proofs.Grammar.Termination
import ViewLang.Proofs.Syntax.Forms
import ViewLang.Proofs.Token.Legality

namespace ViewLang

namespace Grammar

open Reader

variable {α β : Type}

def Legible (ts : Tokens) : Prop := ∀ t ∈ ts, Lexer.Legal t.value

theorem Legible.suffix {ts us : Tokens} (legible : Legible ts) (shorter : us <:+ ts) : Legible us :=
  fun t member => legible t (shorter.subset member)

def GivesFrom (ts : Tokens) (p : Reader α) (post : α → Prop) : Prop :=
  ∀ a rest, p ts = .ok (a, rest) → post a ∧ Legible rest

def Gives (p : Reader α) (post : α → Prop) : Prop := ∀ ts, Legible ts → GivesFrom ts p post

abbrev Forms (p : Reader α) (view : α → Construct) : Prop := Gives p fun a => (view a).AllFormed

section

variable {p : Reader α} {f : α → Reader β} {mid : α → Prop} {post : β → Prop}

theorem GivesFrom.bind {ts : Tokens} (first : GivesFrom ts p mid) (next : ∀ a, mid a → Gives (f a) post) :
    GivesFrom ts (p >>= f) post := by
  intro b rest read
  obtain ⟨a, us, read₁, read₂⟩ := bind_ok.mp read
  obtain ⟨found, legible'⟩ := first a us read₁
  exact next a found us legible' b rest read₂

theorem GivesFrom.next {ts : Tokens} {f : Option (Located Token) → Reader β} (next : GivesFrom ts (f ts.head?) post) :
    GivesFrom ts (next? >>= f) post := next

theorem Gives.bind (first : Gives p mid) (next : ∀ a, mid a → Gives (f a) post) : Gives (p >>= f) post :=
  fun ts legible => (first ts legible).bind next

theorem Gives.imp {post' : α → Prop} (gives : Gives p mid) (weaker : ∀ a, mid a → post' a) : Gives p post' := by
  intro ts legible a rest read
  obtain ⟨found, legible'⟩ := gives ts legible a rest read
  exact ⟨weaker a found, legible'⟩

theorem Gives.map {g : α → β} (gives : Gives p fun a => post (g a)) : Gives (g <$> p) post := by
  intro ts legible b rest read
  obtain ⟨a, read', rfl⟩ := map_ok.mp read
  exact gives ts legible a rest read'

theorem Gives.within (gives : Gives p mid) : Gives (Reader.within p) mid :=
  fun ts legible a rest read => gives ts legible a rest (within_ok.mp read)

theorem Gives.sized {q : Nat → Reader α} (each : ∀ n, Gives (q n) mid) : Gives (Reader.sized q) mid :=
  fun ts legible => each ts.length ts legible

theorem Gives.pure {a : α} (found : mid a) : Gives (Pure.pure a) mid := by
  intro ts legible b rest read
  obtain ⟨rfl, rfl⟩ := pure_ok.mp read
  exact ⟨found, legible⟩

theorem gives_fail (what : String) : Gives (fail what) mid := fun _ _ _ _ read => absurd (fail_ok.mp read) id

theorem gives_of_keeps (keeps : Keeps p) : Gives p fun _ => True :=
  fun ts legible a rest read => ⟨trivial, legible.suffix (keeps ts a rest read)⟩

theorem gives_of_shrinks (shrinks : Shrinks p) : Gives p fun _ => True :=
  gives_of_keeps fun ts a rest read => (shrinks ts a rest read).1

end

section

variable {post : β → Prop}

theorem gives_look {g : Tokens → α} : Gives (fun ts => .ok (g ts, ts)) fun _ => True :=
  gives_of_keeps fun ts a rest read => by
    cases read
    exact List.suffix_refl ts

theorem gives_peek : Gives peek? fun _ => True := gives_look

theorem gives_second : Gives second? fun _ => True := gives_look

theorem gives_at (t : Token) : Gives (at? t) fun _ => True := gives_look

theorem gives_next : Gives next? fun o => ∀ t ∈ o, Lexer.Legal t.value := by
  intro ts legible o rest read
  cases read
  refine ⟨?_, legible⟩
  intro t first
  exact legible t (List.mem_of_mem_head? first)

theorem gives_skip : Gives skip fun _ => True :=
  gives_of_keeps fun ts a rest read => by
    cases read
    exact List.tail_suffix ts

theorem gives_dropWhile (gap : Located Token → Bool) : Gives (fun ts => .ok ((), ts.dropWhile gap)) fun _ => True :=
  gives_of_keeps fun ts a rest read => by
    cases read
    exact List.dropWhile_suffix gap

theorem gives_expect (t : Token) (what : String) : Gives (expect t what) fun _ => True :=
  gives_of_shrinks (shrinks_of_alike fun _ => alike_expect t what)

theorem gives_eat (t : Token) : Gives (eat? t) fun _ => True := gives_of_keeps (keeps_of_alike fun _ => alike_eat t)

theorem gives_ident : Gives ident fun n => IsName n.value := by
  intro ts legible n rest read
  rw [ident_ok.mp read] at legible
  exact List.forall_mem_cons.mp legible

theorem gives_stringLiteral : Gives stringLiteral fun _ => True :=
  gives_of_shrinks (shrinks_of_alike fun _ => alike_stringLiteral)

theorem moreIdents_names {ts : Tokens} (legible : Legible ts) :
    AllNames (moreIdents ts).1 ∧ Legible (moreIdents ts).2 := by
  fun_induction moreIdents ts with
  | case1 s name span ts names rest more ih =>
    have behind : Legible (⟨.ident name, span⟩ :: ts) := legible.suffix (List.suffix_cons _ _)
    obtain ⟨named, tail⟩ := List.forall_mem_cons.mp behind
    obtain ⟨others, legible'⟩ := ih tail
    rw [more] at others legible'
    exact ⟨List.forall_mem_cons.mpr ⟨named, others⟩, legible'⟩
  | case2 => exact ⟨List.forall_mem_nil _, legible⟩

theorem gives_identList : Gives identList AllNames := by
  refine gives_ident.bind fun first named => ?_
  intro ts legible names rest read
  cases read
  obtain ⟨others, legible'⟩ := moreIdents_names legible
  exact ⟨List.forall_mem_cons.mpr ⟨named, others⟩, legible'⟩

variable {each : α → Prop}

theorem Gives.whileSome {p : Reader (Option α)} (round : Gives p fun o => ∀ a ∈ o, each a) :
    Gives (whileSome p) fun as => ∀ a ∈ as, each a := by
  refine .sized fun n => ?_
  generalize n + 1 = n
  induction n with
  | zero => exact .pure nofun
  | succ n ih =>
    refine round.bind ?_
    rintro (_ | a) first
    · exact .pure nofun
    · exact ih.bind fun as others => .pure (List.forall_mem_cons.mpr ⟨first a rfl, others⟩)

theorem Gives.commaList {item : Reader α} (gives : Gives item each) (close : Token) (what : String) :
    Gives (commaList close what item) fun x => ∀ a ∈ x.1, each a := by
  refine .sized fun n => ?_
  generalize n + 1 = n
  induction n with
  | zero => exact gives_fail _
  | succ n ih =>
    refine (gives_eat close).bind ?_
    rintro (_ | s) -
    · refine gives.bind fun a first => (gives_eat _).bind ?_
      rintro (_ | s) -
      · exact (gives_expect _ _).bind fun s _ => .pure (List.forall_mem_singleton.mpr first)
      · exact ih.bind fun x others => .pure (List.forall_mem_cons.mpr ⟨first, others⟩)
    · exact .pure nofun

theorem Gives.items {gap : Reader Unit} {item : Reader α} (gives : Gives item each) (close : Token)
    (passes : Gives gap fun _ => True) : Gives (items gap close item) fun x => ∀ a ∈ x.1, each a := by
  refine .sized fun n => ?_
  generalize n + 1 = n
  induction n with
  | zero => exact gives_fail _
  | succ n ih =>
    refine passes.bind fun _ _ => (gives_eat close).bind ?_
    rintro (_ | s) -
    · exact gives.bind fun a first => ih.bind fun x others => .pure (List.forall_mem_cons.mpr ⟨first, others⟩)
    · exact .pure nofun

theorem Gives.unlessAt {p : Reader α} (gives : Gives p each) (t : Token) :
    Gives (unlessAt t p) fun o => ∀ a ∈ o, each a := by
  refine (gives_at t).bind fun stop _ => ?_
  split
  · exact .pure nofun
  · refine .map (gives.imp fun a found => ?_)
    rintro _ ⟨⟩
    exact found

end

section

variable {inner : Reader (Located TypeExpr)} (gives : Gives inner fun ty => ty.value.Spelled)

theorem gives_typeName : Gives typeName fun n => IsWord n.value := by
  refine gives_ident.bind fun first named => (gives_at _).bind fun dot _ => gives_second.bind fun member _ => ?_
  split
  · exact gives_skip.bind fun _ _ => gives_ident.bind fun name named' =>
      .pure ((named.word.append (by decide)).append named'.word)
  · exact .pure named.word

include gives

theorem gives_namedType : Gives (namedType inner) fun ty => ty.value.Spelled := by
  refine gives_typeName.bind fun name named => (gives_at _).bind fun opens _ => gives_second.bind fun next _ => ?_
  dsimp only
  split
  · exact gives_skip.bind fun _ _ => gives.within.bind fun arg spelled => (gives_expect _ _).bind fun close _ =>
      .pure (TypeExpr.spelled_generic.mpr ⟨named, spelled⟩)
  · exact .pure (TypeExpr.spelled_named.mpr named)

theorem gives_funcType (start : Span) : Gives (funcType inner start) fun ty => ty.value.Spelled := by
  have made (params results : List (Located TypeExpr)) (first : ∀ t ∈ params, t.value.Spelled)
      (second : ∀ t ∈ results, t.value.Spelled) :
      (TypeExpr.func (params.map (·.value)) (results.map (·.value))).Spelled :=
    TypeExpr.spelled_func.mpr ⟨List.forall_mem_map.mpr first, List.forall_mem_map.mpr second⟩
  refine (gives_expect _ _).bind fun _ _ => (gives.commaList _ _).bind fun params first =>
    gives_peek.bind fun following _ => ?_
  dsimp only
  split
  · exact gives_skip.bind fun _ _ => (gives.commaList _ _).bind fun results second =>
      .pure (made params.1 results.1 first second)
  · split
    · exact gives.bind fun result spelled =>
        .pure (made params.1 [result] first (List.forall_mem_singleton.mpr spelled))
    · exact .pure (made params.1 [] first nofun)

theorem gives_typeStep : Gives (typeStep inner) fun ty => ty.value.Spelled := by
  have wrapped (start : Span) {wrap : TypeExpr → TypeExpr} (same : ∀ {t}, (wrap t).Spelled ↔ t.Spelled) :
      Gives (wrapType start wrap <$> within inner) fun ty => ty.value.Spelled :=
    .map (gives.within.imp fun ty spelled => same.mpr spelled)
  refine gives_next.bind fun first _ => ?_
  split
  · exact gives_skip.bind fun _ _ => wrapped _ TypeExpr.spelled_pointer
  · exact gives_skip.bind fun _ _ => (gives_expect _ _).bind fun _ _ => wrapped _ TypeExpr.spelled_slice
  · exact gives_skip.bind fun _ _ => wrapped _ TypeExpr.spelled_chan
  · exact gives_skip.bind fun _ _ => (gives_expect _ _).bind fun _ _ => wrapped _ TypeExpr.spelled_chan
  · exact gives_skip.bind fun _ _ => (gives_funcType gives _).within
  · exact gives_namedType gives
  · exact gives_fail _

end

theorem gives_type : Gives type fun ty => ty.value.Spelled := by
  refine .sized fun n => ?_
  generalize n + 1 = n
  induction n with
  | zero => exact gives_fail _
  | succ n ih => exact gives_typeStep ih

structure ParamEntry.Formed (e : ParamEntry) : Prop where
  decorators : ∀ d ∈ e.decorators, (Construct.decorator d).AllFormed
  name : IsName e.name.value
  type : ∀ ty ∈ e.ty, ty.1.value.Spelled

structure DecoratedParam.Formed (p : DecoratedParam) : Prop where
  decorators : ∀ d ∈ p.decorators, (Construct.decorator d).AllFormed
  param : (Construct.param p.param).AllFormed

section

variable {decorators : Reader (List Decorator)}
  (decorated : Gives decorators fun ds => ∀ d ∈ ds, (Construct.decorator d).AllFormed)

include decorated

theorem gives_paramEntry : Gives (paramEntry decorators) ParamEntry.Formed := by
  refine decorated.bind fun ds each => gives_ident.bind fun name named => (gives_eat _).bind fun ellipsis _ =>
    gives_peek.bind fun following _ => ?_
  split
  · refine gives_type.bind fun ty spelled => .pure ⟨each, named, ?_⟩
    rintro _ ⟨⟩
    exact spelled
  · exact .pure ⟨each, named, nofun⟩

omit decorated in
theorem shareTypes_formed {entries : List ParamEntry} {params : List DecoratedParam}
    {next : Option (Located TypeExpr)} (shared : shareTypes entries = some (params, next))
    (each : ∀ e ∈ entries, e.Formed) : (∀ p ∈ params, p.Formed) ∧ ∀ ty ∈ next, ty.value.Spelled := by
  induction entries generalizing params next with
  | nil =>
    cases shared
    exact ⟨nofun, nofun⟩
  | cons e es ih =>
    rw [shareTypes, Option.bind_eq_bind, Option.bind_eq_some_iff] at shared
    obtain ⟨⟨others, following⟩, shared', h⟩ := shared
    obtain ⟨⟨decorated, named, typed⟩, each⟩ := List.forall_mem_cons.mp each
    obtain ⟨formed, later⟩ := ih shared' each
    dsimp only at h
    split at h
    · rename_i ty ellipsis own
      cases h
      have here := typed _ own
      refine ⟨List.forall_mem_cons.mpr ⟨⟨decorated, Construct.throughout_param.mpr ⟨named, here⟩⟩, formed⟩, ?_⟩
      rintro _ ⟨⟩
      exact here
    · rename_i ty _
      cases h
      refine ⟨List.forall_mem_cons.mpr ⟨⟨decorated, ?_⟩, formed⟩, later⟩
      exact Construct.throughout_param.mpr ⟨named, later ty rfl⟩
    · cases h

theorem gives_paramList : Gives (paramList decorators) fun ps => ∀ p ∈ ps, p.Formed := by
  refine (gives_expect _ _).bind fun _ _ => ((gives_paramEntry decorated).commaList _ _).bind fun x each => ?_
  obtain ⟨entries, close⟩ := x
  dsimp only at *
  cases shared : shareTypes entries with
  | none => exact gives_fail _
  | some x =>
    dsimp only
    cases misplacedVariadic? x.1 with
    | none => exact .pure (shareTypes_formed shared each).1
    | some d => exact fun _ _ _ _ read => nomatch read

end

theorem gives_plainParams : Gives plainParams fun ps => ∀ p ∈ ps, (Construct.param p).AllFormed :=
  (gives_paramList (.pure (List.forall_mem_nil _))).bind fun _ each =>
    .pure (List.forall_mem_map.mpr fun p member => (each p member).param)

theorem gives_resultList : Gives resultList fun rs => ∀ t ∈ rs, t.value.Spelled := by
  refine (gives_eat _).bind ?_
  rintro (_ | s) -
  · refine gives_peek.bind fun following _ => ?_
    split
    · exact gives_type.bind fun ty spelled => .pure (List.forall_mem_singleton.mpr spelled)
    · exact .pure nofun
  · exact (gives_type.commaList _ _).bind fun _ each => .pure each

structure OperandFormed (c : Bool) (p : Primary) : Prop where
  all : (Construct.primary p).AllFormed
  header : c = false → Bracketed p.exposed

structure ExprFormed (c : Bool) (e : Expr) : Prop where
  all : (Construct.expr e).AllFormed
  header : c = false → Bracketed e.exposed

structure RulesForm (r : Rules) : Prop where
  primary : ∀ c, Gives (r.primary c) (OperandFormed c)
  block : Forms r.block .block
  ifStmt : Forms r.ifStmt .cond

def EntryFormed (e : Entry) : Prop := AllNames e.key.toList ∧ (Construct.expr e.value).AllFormed

theorem primary_formed {p : Primary} : (Construct.primary p).AllFormed ↔ p.inner.AllFormed :=
  Construct.throughout_primary.trans (and_iff_right trivial)

section

variable {r : Rules} (rules : RulesForm r)

include rules

theorem gives_link (c : Bool) : Gives (link? r c) fun o => ∀ l ∈ o, OperandFormed c l.operand := by
  refine gives_next.bind ?_
  rintro (_ | t) -
  · exact .pure nofun
  · dsimp only
    split
    · exact .pure nofun
    · refine gives_skip.bind fun _ _ => (rules.primary c).within.bind fun operand formed => .pure ?_
      rintro _ ⟨⟩
      exact formed

theorem gives_exprWith (c : Bool) : Gives (exprWith r c) (ExprFormed c) := by
  refine (rules.primary c).bind fun head first => (Gives.whileSome (gives_link rules c)).bind fun tail links =>
    .pure ⟨Construct.throughout_expr.mpr ⟨trivial, first.all, fun l member => (links l member).all⟩, fun header => ?_⟩
  exact bracketed_append.mpr ⟨first.header header, bracketed_flatMap.mpr fun l member => (links l member).header header⟩

theorem forms_exprWith (c : Bool) : Forms (exprWith r c) .expr := (gives_exprWith rules c).imp fun _ => ExprFormed.all

theorem gives_commaExpr (c : Bool) : Gives (commaExpr? r c) fun o => ∀ e ∈ o, ExprFormed c e := by
  refine (gives_eat _).bind ?_
  rintro (_ | s) -
  · exact .pure nofun
  · refine .map ((gives_exprWith rules c).within.imp fun e formed => ?_)
    rintro _ ⟨⟩
    exact formed

theorem gives_exprList (c : Bool) : Gives (exprListWith r c) fun es => ∀ e ∈ es, ExprFormed c e := by
  rw [exprListWith_eq]
  exact (gives_exprWith rules c).bind fun first formed => (Gives.whileSome (gives_commaExpr rules c)).bind
    fun more others => .pure (List.forall_mem_cons.mpr ⟨formed, others⟩)

theorem gives_callArgs : Gives (callArgs r) fun x => ∀ e ∈ x.1, (Construct.expr e).AllFormed :=
  (forms_exprWith rules true).commaList _ _

theorem gives_entry : Gives (entry r) EntryFormed := by
  refine gives_peek.bind fun first _ => gives_second.bind fun second _ => ?_
  split
  · exact gives_ident.bind fun key named => gives_skip.bind fun _ _ => (forms_exprWith rules true).bind
      fun value formed => .pure ⟨List.forall_mem_singleton.mpr named, formed⟩
  · exact (forms_exprWith rules true).bind fun value formed => .pure ⟨nofun, formed⟩

theorem gives_indexRest {c : Bool} {target : Primary} (before : OperandFormed c target) :
    Gives (indexRest r target) (OperandFormed c) := by
  have inside := (forms_exprWith rules true).unlessAt
  rw [indexRest_eq]
  refine (inside _).bind fun low lows => (gives_eat _).bind ?_
  rintro (_ | s) -
  · cases low with
    | none => exact gives_fail _
    | some index =>
      refine (gives_expect _ _).bind fun close _ => .pure ⟨primary_formed.mpr ?_, before.header⟩
      exact Construct.throughout_index.mpr ⟨trivial, before.all, lows index rfl⟩
  · refine (inside _).bind fun high highs => (gives_expect _ _).bind fun close _ =>
      .pure ⟨primary_formed.mpr ?_, before.header⟩
    exact Construct.throughout_slice.mpr ⟨trivial, before.all, lows, highs⟩

/-- A literal may be exposed in a header only if its type starts with brackets. -/
theorem gives_compositeBody {c : Bool} {ty : Located TypeExpr} (typed : ty.value.Spelled)
    (header : c = false → ∃ elem, ty.value = .slice elem) : Gives (compositeBody r ty) (OperandFormed c) := by
  refine (gives_expect _ _).bind fun _ _ => ((gives_entry rules).commaList _ _).bind fun x each =>
    .pure ⟨primary_formed.mpr (Construct.throughout_composite.mpr ?_),
      fun h => List.forall_mem_singleton.mpr (header h)⟩
  exact ⟨fun e member => (each e member).1, typed, fun e member => (each e member).2⟩

omit rules in
theorem select_formed {b : Base} {path : List Name} {s : Span} :
    (Construct.primary (.select b path s)).AllFormed ↔
      (b.Formed ∧ ∀ d ∈ b.constructs, d.AllFormed) ∧ AllNames path := by
  rw [primary_formed]
  refine Construct.throughout_select.trans ?_
  change (b.Formed ∧ AllNames path) ∧ _ ↔ _
  tauto

omit rules in
theorem call_formed {b : Base} {path : List Name} {args : List Expr} {s : Span} :
    (Construct.primary (.call b path args s)).AllFormed ↔
      (b.Formed ∧ ∀ d ∈ b.constructs, d.AllFormed) ∧ AllNames path ∧ ∀ e ∈ args, (Construct.expr e).AllFormed := by
  rw [primary_formed]
  refine Construct.throughout_call.trans ?_
  change (b.Formed ∧ AllNames path) ∧ _ ↔ _
  tauto

omit rules in
theorem operand_formed {p : Primary} :
    (Base.operand p).Formed ∧ (∀ d ∈ (Base.operand p).constructs, d.AllFormed) ↔ (Construct.primary p).AllFormed := by
  simp [Base.Formed, Base.constructs]

omit rules in
theorem selectField_formed {c : Bool} {operand : Primary} {field : Name} (before : OperandFormed c operand)
    (named : IsName field.value) : OperandFormed c (selectField operand field) := by
  have last : AllNames [field] := List.forall_mem_singleton.mpr named
  have bare (base : Base) (same : base = .operand operand) (s : Span) :
      OperandFormed c (.select base [field] s) := by
    subst same
    exact ⟨select_formed.mpr ⟨operand_formed.mpr before.all, last⟩, before.header⟩
  unfold selectField
  cases operand with
  | select base path span =>
    obtain ⟨based, names⟩ := select_formed.mp before.all
    exact ⟨select_formed.mpr ⟨based, List.forall_mem_append.mpr ⟨names, last⟩⟩, before.header⟩
  | _ => exact bare _ rfl _

omit rules in
theorem callOperand_formed {c : Bool} {operand : Primary} {args : List Expr} (close : Span)
    (before : OperandFormed c operand) (each : ∀ e ∈ args, (Construct.expr e).AllFormed) :
    OperandFormed c (callOperand operand args close) := by
  have bare (base : Base) (same : base = .operand operand) (s : Span) :
      OperandFormed c (.call base [] args s) := by
    subst same
    exact ⟨call_formed.mpr ⟨operand_formed.mpr before.all, nofun, each⟩, before.header⟩
  unfold callOperand
  cases operand with
  | select base path span =>
    obtain ⟨based, names⟩ := select_formed.mp before.all
    exact ⟨call_formed.mpr ⟨based, names, each⟩, before.header⟩
  | _ => exact bare _ rfl _

omit rules in
/-- The type that is named in front of a brace is a path of words. -/
theorem compositeType?_spelled {operand : Primary} {ty : Located TypeExpr} (found : compositeType? operand = some ty)
    (before : (Construct.primary operand).AllFormed) : ty.value.Spelled := by
  unfold compositeType? at found
  split at found
  · rename_i base path span
    obtain ⟨⟨based, -⟩, names⟩ := select_formed.mp before
    split at found
    · obtain ⟨name, qualified, rfl⟩ := Option.map_eq_some_iff.mp found
      obtain ⟨n, start, rfl⟩ := Option.map_eq_some_iff.mp qualified
      cases base with
      | name m =>
        cases start
        refine TypeExpr.spelled_named.mpr (IsWord.intercalate (by decide) ?_)
        exact List.forall_mem_cons.mpr ⟨IsName.word based, List.forall_mem_map.mpr names.words⟩
      | operand p => cases start
    · cases found
  · cases found

theorem gives_suffix {c : Bool} {operand : Primary} (before : OperandFormed c operand) :
    Gives (suffix? r c operand) fun o => ∀ p ∈ o, OperandFormed c p := by
  refine gives_peek.bind fun first _ => ?_
  split
  · refine gives_skip.bind fun _ _ => gives_ident.within.bind fun field named => .pure ?_
    rintro _ ⟨⟩
    exact selectField_formed before named
  · refine gives_skip.bind fun _ _ => (gives_callArgs rules).within.bind fun x each => .pure ?_
    rintro _ ⟨⟩
    exact callOperand_formed x.2 before each
  · refine gives_skip.bind fun _ _ => .map ((gives_indexRest rules before).within.imp ?_)
    rintro p formed _ ⟨⟩
    exact formed
  · split
    · rename_i ty named
      have typed := compositeType?_spelled named before.all
      refine .map ((gives_compositeBody (c := true) rules typed nofun).within.imp ?_)
      rintro p formed _ ⟨⟩
      exact formed
    · exact .pure nofun
  · exact .pure nofun

theorem gives_suffixes {c : Bool} {operand : Primary} (before : OperandFormed c operand) :
    Gives (suffixes r c operand) (OperandFormed c) := by
  refine .sized fun n => ?_
  generalize n + 1 = n
  induction n generalizing operand with
  | zero => exact .pure before
  | succ n ih =>
    refine (gives_suffix rules before).bind ?_
    rintro (_ | longer) found
    · exact .pure before
    · exact ih (found longer rfl)

theorem gives_makeArg : Gives (makeArg? r) fun o => ∀ e ∈ o, (Construct.expr e).AllFormed := by
  refine (gives_eat _).bind ?_
  rintro (_ | s) -
  · exact .pure nofun
  · refine (gives_at _).bind fun stop _ => ?_
    split
    · exact .pure nofun
    · refine .map ((forms_exprWith rules true).imp ?_)
      rintro e formed _ ⟨⟩
      exact formed

omit rules in
/-- An operand without a part in which a literal could be exposed. -/
theorem OperandFormed.closed {c : Bool} {p : Primary} (formed : p.inner.AllFormed) (closed : p.exposed = []) :
    OperandFormed c p := ⟨primary_formed.mpr formed, fun _ => closed ▸ bracketed_nil⟩

theorem gives_makeExpr (c : Bool) : Gives (makeExpr r) (OperandFormed c) :=
  (gives_expect _ _).bind fun _ _ => .within ((gives_expect _ _).bind fun _ _ => gives_type.bind fun _ typed =>
    (Gives.whileSome (gives_makeArg rules)).bind fun _ each => (gives_expect _ _).bind fun _ _ =>
    .pure (.closed (Construct.throughout_make.mpr ⟨trivial, typed, each⟩) rfl))

theorem gives_funcLiteral (c : Bool) : Gives (funcLiteral r) (OperandFormed c) :=
  (gives_expect _ _).bind fun _ _ => .within (gives_plainParams.bind fun _ params => gives_resultList.bind
    fun _ results => rules.block.bind fun _ body =>
    .pure (.closed (Construct.throughout_func.mpr ⟨trivial, params, results, body⟩) rfl))

theorem gives_fragment : Gives (fragment r) fun f => ∀ d ∈ f.constructs, d.AllFormed := by
  refine gives_peek.bind fun first _ => ?_
  split
  · exact gives_fail _
  · exact gives_skip.bind fun _ _ => .pure nofun
  · exact gives_skip.bind fun _ _ => (forms_exprWith rules true).bind fun value formed => (gives_expect _ _).bind
      fun _ _ => .pure (List.forall_mem_singleton.mpr formed)
  · exact gives_fail _

theorem forms_templateWith : Forms (templateWith r) .template :=
  (gives_expect _ _).bind fun _ _ => .within (((gives_fragment rules).items _ (.pure trivial)).bind fun _ each =>
    .pure (Construct.throughout_template.mpr ⟨trivial, each⟩))

/-- If the tokens start with a bracket, the type of a literal does. -/
theorem gives_operandWith (c : Bool) {first : Located Token} {ts : Tokens} (legible : Legible (first :: ts)) :
    GivesFrom (first :: ts) (operandWith r first) (OperandFormed c) := by
  have legal := legible first List.mem_cons_self
  have skipped := gives_skip _ legible
  have literal {p : Primary} (leaf : p.inner.children = []) (formed : p.inner.Formed) (closed : p.exposed = []) :
      GivesFrom (first :: ts) (do skip; pure p) (OperandFormed c) :=
    skipped.bind fun _ _ => .pure (.closed ((Construct.throughout_leaf leaf).mpr formed) closed)
  unfold operandWith
  split
  · rename_i text same
    rw [same] at legal
    exact literal rfl legal rfl
  · rename_i text same
    rw [same] at legal
    exact literal rfl legal rfl
  · exact literal rfl trivial rfl
  · exact Gives.map ((forms_templateWith rules).imp fun t formed =>
      .closed (Construct.throughout_templateLiteral.mpr ⟨trivial, formed⟩) rfl) _ legible
  · exact gives_funcLiteral rules c _ legible
  · exact gives_makeExpr rules c _ legible
  · exact skipped.bind fun _ _ => (forms_exprWith rules true).within.bind fun inner formed =>
      (gives_expect _ _).bind fun _ _ => .pure (.closed formed rfl)
  · rename_i same
    obtain ⟨value, span⟩ := first
    cases same
    intro p rest read
    obtain ⟨ty, mid, typed, read⟩ := bind_ok.mp read
    obtain ⟨spelled, legible'⟩ := gives_type _ legible ty mid typed
    exact (gives_compositeBody rules spelled fun _ => type_slice typed).within mid legible' p rest read
  · refine Gives.map (gives_ident.imp fun n named => ?_) _ legible
    exact ⟨select_formed.mpr ⟨⟨named, nofun⟩, nofun⟩, fun _ => bracketed_nil⟩
  · exact gives_fail _ _ legible

theorem gives_primaryStep (c : Bool) : Gives (primaryStep r c) (OperandFormed c) := by
  intro ts legible
  refine .next ?_
  cases ts with
  | nil => exact gives_fail _ _ legible
  | cons first ts =>
    rw [List.head?_cons]
    dsimp only
    split
    · exact (gives_skip _ legible).bind fun _ _ => (rules.primary c).within.bind fun operand inside =>
        .pure ⟨primary_formed.mpr (Construct.throughout_unary.mpr ⟨trivial, inside.all⟩), inside.header⟩
    · split
      · exact (gives_skip _ legible).bind fun _ _ => gives_ident.within.bind fun channel named =>
          .pure (.closed ((Construct.throughout_leaf rfl).mpr named) rfl)
      · exact (gives_operandWith rules c legible).bind fun operand formed => gives_suffixes rules formed

end

end Grammar
end ViewLang
