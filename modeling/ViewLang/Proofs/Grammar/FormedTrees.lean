import ViewLang.Proofs.Grammar.SpanSoundness
import ViewLang.Proofs.Grammar.FormedExprs

namespace ViewLang
namespace Grammar

open Reader

variable {α : Type}

structure SimpleFormed (c : Bool) (s : SimpleStmt) : Prop where
  all : (Construct.stmt (.simple s)).AllFormed
  header : c = false → Bracketed s.exposed

theorem stmt_formed {s : Stmt} : (Construct.stmt s).AllFormed ↔ s.inner.AllFormed :=
  Construct.throughout_stmt.trans (and_iff_right trivial)

section

variable {r : Rules} (rules : RulesForm r)

include rules

omit rules in
theorem exprStmt_formed {c : Bool} {targets : List Expr} (start : Span) (each : ∀ e ∈ targets, ExprFormed c e) :
    SimpleFormed c (exprStmt targets start) :=
  ⟨stmt_formed.mpr (Construct.throughout_exprs.mpr ⟨trivial, fun e member => (each e member).all⟩),
    fun header => bracketed_flatMap.mpr fun e member => (each e member).header header⟩

omit rules in
theorem assign_formed {c : Bool} {targets values : List Expr} {op : Located AssignOp} {s : Span}
    (each : ∀ e ∈ targets, ExprFormed c e) (others : ∀ e ∈ values, ExprFormed c e) :
    SimpleFormed c (.assign targets op values s) := by
  refine ⟨stmt_formed.mpr (Construct.throughout_assign.mpr ⟨trivial, fun e member => (each e member).all,
    fun e member => (others e member).all⟩), fun header => bracketed_append.mpr ⟨?_, ?_⟩⟩
  · exact bracketed_flatMap.mpr fun e member => (each e member).header header
  · exact bracketed_flatMap.mpr fun e member => (others e member).header header

theorem gives_assignRest {c : Bool} {targets : List Expr} (start : Span) (op : Located AssignOp)
    (each : ∀ e ∈ targets, ExprFormed c e) : Gives (assignRest r c targets start op) (SimpleFormed c) := by
  unfold assignRest
  split
  · exact .pure (assign_formed each nofun)
  · exact (gives_exprList rules c).within.bind fun values others => .pure (assign_formed each others)

theorem gives_simpleStmt (c : Bool) : Gives (simpleStmt r c) (SimpleFormed c) := by
  refine (gives_exprList rules c).bind fun targets each => gives_next.bind ?_
  rintro (_ | t) -
  · exact .pure (exprStmt_formed _ each)
  · dsimp only
    split
    · exact gives_skip.bind fun _ _ => gives_assignRest rules _ _ each
    · split
      · refine gives_skip.bind fun _ _ => (gives_exprWith rules c).within.bind fun value formed => .pure ⟨?_, ?_⟩
        · exact stmt_formed.mpr (Construct.throughout_send.mpr ⟨trivial, (each _ List.mem_cons_self).all, formed.all⟩)
        · exact fun header =>
            bracketed_append.mpr ⟨(each _ List.mem_cons_self).header header, formed.header header⟩
      · exact .pure (exprStmt_formed _ each)
    · exact .pure (exprStmt_formed _ each)

theorem forms_varDecl : Forms (varDecl r) .varDecl := by
  rw [varDecl_eq]
  have typed : Gives typeIfAny fun ty => ∀ t ∈ ty, t.value.Spelled := by
    refine gives_peek.bind fun next _ => ?_
    split
    · refine .map (gives_type.imp ?_)
      rintro ty spelled _ ⟨⟩
      exact spelled
    · exact .pure nofun
  have valued : Gives (valuesIfAny r) fun es => ∀ e ∈ es, ExprFormed true e := by
    refine (gives_eat _).bind ?_
    rintro (_ | s) -
    · exact .pure nofun
    · exact gives_exprList rules true
  refine (gives_expect _ _).bind fun start _ => .within (gives_identList.bind fun names named => typed.bind
    fun ty spelled => valued.bind fun values each => ?_)
  have values (e : Expr) (member : e ∈ values) : (Construct.expr e).AllFormed := (each e member).all
  unfold varEnd
  split
  · exact .pure (Construct.throughout_varDecl.mpr ⟨named, spelled, values⟩)
  · exact .pure (Construct.throughout_varDecl.mpr ⟨named, spelled, values⟩)
  · exact gives_fail _

theorem forms_returnStmt : Forms (returnStmt r) .stmt := by
  refine (gives_expect _ _).bind fun start _ => gives_peek.bind fun next _ => ?_
  have made {values : List Expr} (each : ∀ e ∈ values, ExprFormed true e) (s : Span) :
      (Construct.stmt (.ret values s)).AllFormed :=
    stmt_formed.mpr (Construct.throughout_ret.mpr ⟨trivial, fun e member => (each e member).all⟩)
  split
  · exact (gives_exprList rules true).within.bind fun values each => .pure (made each _)
  · exact .pure (made (List.forall_mem_nil _) _)

omit rules in
theorem forms_branchStmt : Forms branchStmt .stmt := by
  have made (kind : BranchKind) (s : Span) : (Construct.stmt (.branch kind s)).AllFormed :=
    stmt_formed.mpr ((Construct.throughout_leaf rfl).mpr trivial)
  refine (gives_eat _).bind ?_
  rintro (_ | s) -
  · exact (gives_expect _ _).bind fun s _ => .pure (made _ s)
  · exact .pure (made _ s)

omit rules in
theorem gives_asCondition {c : Bool} {s : SimpleStmt} (formed : SimpleFormed c s) :
    Gives (asCondition s) (ExprFormed c) := by
  unfold asCondition
  split
  · have inside := (Construct.throughout_exprs.mp (stmt_formed.mp formed.all)).2
    exact .pure ⟨inside _ List.mem_cons_self,
      fun header => bracketed_flatMap.mp (formed.header header) _ List.mem_cons_self⟩
  · exact gives_fail _

theorem gives_ifHeader :
    Gives (ifHeader r) fun x => (∀ s ∈ x.1, SimpleFormed false s) ∧ ExprFormed false x.2 := by
  refine (gives_simpleStmt rules false).bind fun first formed => (gives_eat _).bind ?_
  rintro (_ | s) -
  · exact (gives_asCondition formed).bind fun cond inside => .pure ⟨nofun, inside⟩
  · refine (gives_exprWith rules false).bind fun cond inside => .pure ⟨?_, inside⟩
    rintro _ ⟨⟩
    exact formed

omit rules in
theorem cond_formed {init : Option SimpleStmt} {cond : Expr} {body : Block} {otherwise : Else} {s : Span}
    (inits : ∀ s ∈ init, SimpleFormed false s) (conds : ExprFormed false cond)
    (inside : (Construct.block body).AllFormed)
    (others : ∀ d ∈ otherwise.constructs, d.AllFormed) :
    (Construct.cond ⟨init, cond, body, otherwise, s⟩).AllFormed := by
  refine Construct.throughout_cond.mpr ⟨?_, fun s member => (inits s member).all, conds.all, inside, others⟩
  exact bracketed_append.mpr ⟨bracketed_toList.mpr fun s member => (inits s member).header rfl, conds.header rfl⟩

theorem forms_ifStep : Forms (ifStep r) .cond := by
  refine (gives_expect _ _).bind fun start _ => (gives_ifHeader rules).bind fun ⟨init, cond⟩ ⟨inits, conds⟩ =>
    rules.block.bind fun body inside => (gives_eat _).bind ?_
  rintro (_ | s) -
  · exact .pure (cond_formed inits conds inside nofun)
  · refine (gives_at _).bind fun chained _ => ?_
    split
    · exact rules.ifStmt.bind fun nested other =>
        .pure (cond_formed inits conds inside (List.forall_mem_singleton.mpr other))
    · exact rules.block.bind fun block other =>
        .pure (cond_formed inits conds inside (List.forall_mem_singleton.mpr other))

omit rules in
theorem gives_rangeVars : Gives rangeVars? fun o => ∀ x ∈ o, AllNames (x.1.toList ++ x.2.toList) := by
  intro ts legible vars rest read
  have nothing : (∀ x ∈ (none : Option (Option Name × Option Name)), AllNames (x.1.toList ++ x.2.toList)) ∧
      Legible ts := ⟨nofun, legible⟩
  unfold rangeVars? at read
  split at read
  · rename_i names mark _ _ after listed
    obtain ⟨named, further⟩ := gives_identList ts legible _ _ listed
    have further := further.suffix ((List.suffix_cons _ _).trans (List.suffix_cons _ _))
    split at read
    · split at read
      · cases read
        refine ⟨?_, further⟩
        rintro _ ⟨⟩
        exact named
      · cases read
        refine ⟨?_, further⟩
        rintro _ ⟨⟩
        exact named
      · cases read
        exact nothing
    · cases read
      exact nothing
  · cases read
    exact nothing

def RangeFormed (x : Option Name × Option Name × Expr) : Prop :=
  AllNames (x.1.toList ++ x.2.1.toList) ∧ ExprFormed false x.2.2

theorem gives_rangeClause : Gives (rangeClause? r) fun o => ∀ x ∈ o, RangeFormed x := by
  have iterable := (gives_exprWith rules false).within
  refine (gives_eat _).bind ?_
  rintro (_ | s) -
  · refine gives_rangeVars.bind ?_
    rintro (_ | ⟨key, value⟩) named
    · exact .pure nofun
    · refine iterable.bind fun e formed => .pure ?_
      rintro _ ⟨⟩
      exact ⟨named _ rfl, formed⟩
  · refine iterable.bind fun e formed => .pure ?_
    rintro _ ⟨⟩
    exact ⟨nofun, formed⟩

structure HeaderFormed (h : LoopHeader) : Prop where
  here (body : Block) (s : Span) : (Construct.loop h body s).Formed
  inside : ∀ d ∈ h.constructs, d.AllFormed

theorem gives_classicRest {init : Option SimpleStmt} (inits : ∀ s ∈ init, SimpleFormed false s) :
    Gives (classicRest r init) HeaderFormed := by
  rw [classicRest_eq]
  refine ((gives_exprWith rules false).unlessAt _).bind fun test tests => (gives_expect _ _).bind fun _ _ =>
    ((gives_simpleStmt rules false).unlessAt _).bind fun post posts => .pure ⟨fun _ _ => ?_, ?_⟩
  · refine bracketed_append.mpr ⟨bracketed_append.mpr ⟨?_, ?_⟩, ?_⟩
    · exact bracketed_toList.mpr fun s member => (inits s member).header rfl
    · exact bracketed_toList.mpr fun e member => (tests e member).header rfl
    · exact bracketed_toList.mpr fun s member => (posts s member).header rfl
  · simp only [LoopHeader.constructs, List.forall_mem_append, List.forall_mem_map, Option.mem_toList]
    exact ⟨⟨fun s member => (inits s member).all, fun e member => (tests e member).all⟩,
      fun s member => (posts s member).all⟩

theorem gives_forHeader : Gives (forHeader r) HeaderFormed := by
  rw [forHeader_eq]
  refine (gives_at _).bind fun infinite _ => ?_
  split
  · exact .pure ⟨fun _ _ => bracketed_nil, nofun⟩
  · refine (gives_rangeClause rules).bind ?_
    rintro (_ | ⟨key, value, iterable⟩) ranged
    · refine ((gives_simpleStmt rules false).unlessAt _).bind fun init inits => (gives_eat _).bind ?_
      rintro (_ | s) -
      · cases init with
        | none => exact gives_fail _
        | some stmt =>
          exact .map ((gives_asCondition (inits stmt rfl)).imp fun e formed =>
            ⟨fun _ _ => formed.header rfl, List.forall_mem_singleton.mpr formed.all⟩)
      · exact gives_classicRest rules inits
    · obtain ⟨named, formed⟩ := ranged _ rfl
      exact .pure ⟨fun _ _ => ⟨named, formed.header rfl⟩, List.forall_mem_singleton.mpr formed.all⟩

theorem forms_forStmt : Forms (forStmt r) .stmt :=
  (gives_expect _ _).bind fun _ _ => (gives_forHeader rules).bind fun _ headed => rules.block.bind fun _ inside =>
    .pure (stmt_formed.mpr (Construct.throughout_loop.mpr ⟨headed.here _ _, headed.inside, inside⟩))

theorem forms_plainStmt : Forms (plainStmt r) .stmt := by
  intro ts legible s rest read
  obtain ⟨simple, read', -, rfl⟩ := plainStmt_ok read
  obtain ⟨formed, legible'⟩ := gives_simpleStmt rules true ts legible simple rest read'
  exact ⟨formed.all, legible'⟩

theorem forms_statementWith : Forms (statementWith r) .stmt := by
  refine gives_peek.bind fun first _ => ?_
  split
  · exact gives_fail _
  · split
    · exact .map ((forms_varDecl rules).imp fun d formed => stmt_formed.mpr formed)
    · exact forms_returnStmt rules
    · exact forms_branchStmt
    · exact forms_branchStmt
    · exact .map (rules.ifStmt.imp fun s formed => stmt_formed.mpr formed)
    · exact forms_forStmt rules
    · exact forms_plainStmt rules

theorem forms_blockStep : Forms (blockStep r) .block :=
  (gives_expect _ _).bind fun _ _ => ((forms_statementWith rules).items _ (gives_dropWhile _)).bind fun _ each =>
    .pure (Construct.throughout_block.mpr ⟨trivial, each⟩)

end

theorem rules_form (n : Nat) : RulesForm (rules n) := by
  induction n with
  | zero => exact ⟨fun _ => gives_fail _, gives_fail _, gives_fail _⟩
  | succ n ih => exact ⟨gives_primaryStep ih, forms_blockStep ih, forms_ifStep ih⟩

theorem gives_nested {p : Rules → Reader α} {post : α → Prop} (each : ∀ {r}, RulesForm r → Gives (p r) post) :
    Gives (nested p) post := .sized fun n => each (rules_form (n + 1))

theorem gives_expr (c : Bool) : Gives (expr c) (ExprFormed c) := gives_nested fun rules => gives_exprWith rules c

theorem node_formed {n : Node} : (Construct.node n).AllFormed ↔ n.inner.AllFormed :=
  Construct.throughout_node.trans (and_iff_right trivial)

section

variable {inner : Reader Node} (gives : Forms inner .node)

include gives

theorem gives_nodeBlock : Gives (nodeBlock inner) fun x => ∀ n ∈ x.1, (Construct.node n).AllFormed :=
  (gives_expect _ _).bind fun _ _ => (gives.items _ (gives_dropWhile _)).bind fun _ each => .pure each

omit gives in
theorem gives_elementArgs (span : Span) : Gives (elementArgs span) fun x => ∀ a ∈ x.1, EntryFormed a := by
  refine (gives_eat _).bind ?_
  rintro (_ | s) -
  · exact .pure nofun
  · exact ((gives_nested gives_entry).commaList _ _).bind fun x each => .pure each

theorem forms_element : Forms (element inner) .element := by
  refine gives_ident.bind fun tag named => (gives_elementArgs tag.span).bind fun ⟨args, span⟩ each =>
    (gives_at _).bind fun opens _ => ?_
  have values : ∀ a ∈ args, (Construct.elementArg a).AllFormed := fun a member =>
    Construct.throughout_elementArg.mpr (each a member)
  split
  · exact (gives_nodeBlock gives).bind fun x children =>
      .pure (Construct.throughout_element.mpr ⟨named, values, children⟩)
  · exact .pure (Construct.throughout_element.mpr ⟨named, values, nofun⟩)

theorem forms_nodeIf : Forms (nodeIf inner) .nodeIf := by
  refine (gives_expect _ _).bind fun start _ => (gives_expr false).bind fun cond test => (gives_nodeBlock gives).bind
    fun ⟨body, extent⟩ inside => (gives_eat _).bind ?_
  have made {otherwise : List Node} (others : ∀ n ∈ otherwise, (Construct.node n).AllFormed) (s : Span) :
      (Construct.nodeIf ⟨cond, body, otherwise, s⟩).AllFormed :=
    Construct.throughout_nodeIf.mpr ⟨test.header rfl, test.all, inside, others⟩
  rintro (_ | s) -
  · exact .pure (made (List.forall_mem_nil _) _)
  · refine (gives_at _).bind fun chained _ => ?_
    split
    · exact gives.bind fun n other => .pure (made (List.forall_mem_singleton.mpr other) _)
    · exact (gives_nodeBlock gives).bind fun x others => .pure (made others _)

theorem forms_nodeFor : Forms (nodeFor inner) .nodeFor := by
  refine (gives_expect _ _).bind fun start _ => (gives_nested gives_rangeClause).bind ?_
  rintro (_ | ⟨key, value, iterable⟩) ranged
  · exact gives_fail _
  · obtain ⟨named, formed⟩ := ranged _ rfl
    exact (gives_nodeBlock gives).bind fun x children =>
      .pure (Construct.throughout_nodeFor.mpr ⟨⟨named, formed.header rfl⟩, formed.all, children⟩)

theorem forms_nodeStep : Forms (nodeStep inner) .node := by
  refine gives_peek.bind fun first _ => ?_
  split
  · exact .map (gives_stringLiteral.imp fun t _ => node_formed.mpr ((Construct.throughout_leaf rfl).mpr trivial))
  · exact .map ((gives_nested forms_templateWith).imp fun t formed => node_formed.mpr formed)
  · exact .map ((forms_nodeIf gives).imp fun c formed => node_formed.mpr formed)
  · exact .map ((forms_nodeFor gives).imp fun l formed => node_formed.mpr formed)
  · exact .map ((forms_element gives).imp fun e formed => node_formed.mpr formed)
  · exact gives_fail _

end

theorem forms_node : Forms node .node := by
  refine .sized fun n => ?_
  generalize n + 1 = n
  induction n with
  | zero => exact gives_fail _
  | succ n ih => exact forms_nodeStep ih

def BodyItem.construct : BodyItem → Construct
  | .var d => .varDecl d
  | .stmt s => .stmt s
  | .node n => .node n

theorem forms_stmtOrNode : Forms stmtOrNode BodyItem.construct := by
  intro ts legible item rest read
  unfold stmtOrNode at read
  split at read
  · cases read
    exact gives_nested forms_statementWith ts legible _ _ ‹_›
  · split at read
    · split at read
      · cases read
      · cases read
        exact forms_node ts legible _ _ ‹_›
    · split at read <;> cases read

theorem forms_bodyItem : Forms bodyItem BodyItem.construct := by
  refine (gives_at _).bind fun var _ => ?_
  split
  · exact .map (gives_nested forms_varDecl)
  · exact forms_stmtOrNode

theorem body_formed {list : List BodyItem} (each : ∀ i ∈ list, i.construct.AllFormed) :
    (Construct.body (list.foldl BodyItem.addTo Body.empty)).AllFormed := by
  rw [foldl_addTo]
  refine Construct.throughout_body.mpr ⟨trivial, ?_, ?_, ?_⟩
  all_goals
    intro x member
    simp only [Body.empty, List.nil_append, List.mem_filterMap] at member
    obtain ⟨i, member, picked⟩ := member
    have formed := each i member
    cases i <;> cases picked
    exact formed

theorem gives_componentBody : Gives componentBody fun x => (Construct.body x.1).AllFormed :=
  (gives_expect _ _).bind fun _ _ => (forms_bodyItem.items _ (gives_dropWhile _)).bind fun _ each =>
    .pure (body_formed each)

theorem forms_component (autoProps : Bool) (start : Span) : Forms (component autoProps start) .component :=
  (gives_expect _ _).bind fun _ _ => .within (gives_ident.bind fun _ named => gives_plainParams.bind fun _ params =>
    gives_resultList.bind fun _ results => gives_componentBody.bind fun _ body =>
    .pure (Construct.throughout_component.mpr ⟨named, params, results, body⟩))

theorem forms_decorator : Forms decorator .decorator := by
  refine (gives_expect _ _).bind fun start _ => .within (gives_ident.bind fun name named => (gives_eat _).bind ?_)
  rintro (_ | s) -
  · exact .pure (Construct.throughout_decorator.mpr ⟨named, nofun⟩)
  · exact (gives_nested gives_callArgs).bind fun x each => .pure (Construct.throughout_decorator.mpr ⟨named, each⟩)

theorem gives_decoratorList :
    Gives decoratorList fun ds => ∀ d ∈ ds, (Construct.decorator d).AllFormed := by
  refine Gives.whileSome ((gives_at _).bind fun decorated _ => ?_)
  split
  · refine .map (forms_decorator.imp fun d formed => ?_)
    rintro _ ⟨⟩
    exact formed
  · exact .pure nofun

theorem gives_fieldGroup (decorated : Bool) :
    Gives (fieldGroup decorated) fun fs => ∀ f ∈ fs, (Construct.gpuField f).AllFormed := by
  have fields : Gives (do
      let decorators ← decoratorList
      let names ← identList
      let ty ← type
      pure (names.map fun name => (⟨decorators, name, ty⟩ : GpuField)))
      fun fs => ∀ f ∈ fs, (Construct.gpuField f).AllFormed :=
    gives_decoratorList.bind fun _ decorators => gives_identList.bind fun _ named => gives_type.bind fun _ typed =>
      .pure (List.forall_mem_map.mpr fun n member =>
        Construct.throughout_gpuField.mpr ⟨named n member, decorators, typed⟩)
  unfold fieldGroup
  cases decorated with
  | true => exact fields
  | false =>
    refine (gives_at _).bind fun decorators _ => ?_
    split
    · exact gives_fail _
    · exact fields

theorem gives_structFields (decorated : Bool) :
    Gives (structFields decorated) fun x => ∀ f ∈ x.1, (Construct.gpuField f).AllFormed := by
  refine (gives_expect _ _).bind fun _ _ => ((gives_fieldGroup decorated).items _ (gives_dropWhile _)).bind
    fun _ each => .pure ?_
  intro f member
  obtain ⟨group, listed, member⟩ := List.mem_flatten.mp member
  exact each group listed f member

def Decl.construct : Decl → Construct
  | .type d => .typeDef d
  | .component c => .component c
  | .gpuStruct s => .gpuStruct s
  | .gpuBinding b => .gpuBinding b
  | .gpuFunction f => .gpuFunction f

section

variable {decorators : List Decorator} (each : ∀ d ∈ decorators, (Construct.decorator d).AllFormed) (start : Span)

include each

theorem forms_structDecl : Forms (structDecl decorators start) Decl.construct := by
  refine (gives_expect _ _).bind fun _ _ => .within (gives_ident.bind fun name named => (gives_expect _ _).bind
    fun _ _ => (gives_structFields _).bind fun ⟨fields, close⟩ formed => ?_)
  dsimp only
  split
  · have plain : ∀ f ∈ fields.map fun f => (⟨f.name, f.ty⟩ : Field), (Construct.field f).AllFormed := by
      refine List.forall_mem_map.mpr fun f member => Construct.throughout_field.mpr ?_
      obtain ⟨named, -, typed⟩ := Construct.throughout_gpuField.mp (formed f member)
      exact ⟨named, typed⟩
    exact .pure (Construct.throughout_typeDef.mpr ⟨named, plain⟩)
  · exact .pure (Construct.throughout_gpuStruct.mpr ⟨named, each, formed⟩)

omit each in
theorem gives_gpuResult : Gives gpuResult? fun o => ∀ r ∈ o,
    (∀ d ∈ r.decorators, (Construct.decorator d).AllFormed) ∧ r.ty.value.Spelled := by
  refine (gives_at _).bind fun decorated _ => gives_peek.bind fun next _ => ?_
  split
  · refine gives_decoratorList.bind fun ds decorators => gives_type.bind fun ty typed => .pure ?_
    rintro _ ⟨⟩
    exact ⟨decorators, typed⟩
  · exact .pure nofun

theorem forms_gpuFunction : Forms (gpuFunction decorators start) .gpuFunction := by
  refine (gives_expect _ _).bind fun _ _ => .within (gives_ident.bind fun name named =>
    (gives_paramList gives_decoratorList).bind fun params formed => gives_gpuResult.bind fun result results =>
    (gives_nested fun rules => rules.block).bind fun body inside => .pure ?_)
  refine Construct.throughout_gpuFunction.mpr ⟨named, each, List.forall_mem_map.mpr fun p member => ?_, results, inside⟩
  obtain ⟨named, typed⟩ := Construct.throughout_param.mp (formed p member).param
  exact Construct.throughout_gpuParam.mpr ⟨named, (formed p member).decorators, typed⟩

theorem forms_gpuBinding : Forms (gpuBinding decorators start) .gpuBinding :=
  (gives_expect _ _).bind fun _ _ => .within (gives_ident.bind fun _ named => gives_type.bind fun _ typed =>
    .pure (Construct.throughout_gpuBinding.mpr ⟨named, each, typed⟩))

theorem forms_funcDecl : Forms (funcDecl decorators start) Decl.construct := by
  have shader : Forms (.gpuFunction <$> gpuFunction decorators start) Decl.construct :=
    .map (forms_gpuFunction each start)
  unfold funcDecl
  split
  · exact .map (forms_component false start)
  · split
    · exact .map (forms_component true start)
    · exact shader
  · split
    · exact gives_fail _
    · exact shader

end

theorem forms_topLevelDecl : Forms topLevelDecl Decl.construct := by
  refine gives_next.bind ?_
  rintro (_ | first) -
  · exact gives_fail _
  · refine gives_decoratorList.bind fun decorators each => gives_peek.bind fun next _ => ?_
    split
    · exact forms_structDecl each _
    · exact forms_funcDecl each _
    · exact .map (forms_gpuBinding each _)
    · exact gives_fail _

theorem gives_decl : Gives decl? fun o => ∀ d ∈ o, d.construct.AllFormed := by
  refine gives_next.bind ?_
  rintro (_ | first) -
  · exact .pure nofun
  · refine forms_topLevelDecl.bind fun d formed => (gives_dropWhile _).bind fun _ _ => .pure ?_
    rintro _ ⟨⟩
    exact formed

theorem assemble_formed {package : Name} {imports : List Name} {decls : List Decl} (named : IsName package.value)
    (each : ∀ d ∈ decls, d.construct.AllFormed) : (Construct.unit (assemble package imports decls)).AllFormed := by
  refine Construct.throughout_unit.mpr ⟨named, fun _ _ => trivial, ?_, ?_, ?_, ?_, ?_⟩
  all_goals
    intro x member
    obtain ⟨d, member, picked⟩ := List.mem_filterMap.mp member
    have formed := each d member
    cases d <;> cases picked
    exact formed

theorem forms_sourceUnit : Forms sourceUnit .unit := by
  have imports : Keeps importGroup? := keeps_of_rounds fun _ => importGroup?_rounds
  exact (gives_dropWhile _).bind fun _ _ => (gives_expect _ _).bind fun _ _ => gives_ident.within.bind
    fun package named => (gives_dropWhile _).bind fun _ _ =>
    (Gives.whileSome ((gives_of_keeps imports).imp fun _ _ _ _ => trivial)).bind fun _ _ =>
    (Gives.whileSome gives_decl).bind fun _ each => .pure (assemble_formed named each)

structure UnitSpelled (u : SourceUnit) : Prop where
  package : IsWord u.package.value
  types : ∀ d ∈ u.types, (Construct.typeDef d).AllSpelled
  components : ∀ c ∈ u.components, (Construct.component c).AllSpelled

theorem unitSpelled_of_formed {u : SourceUnit} (formed : (Construct.unit u).AllFormed) : UnitSpelled u := by
  obtain ⟨package, -, types, components, -⟩ := Construct.throughout_unit.mp formed
  exact ⟨IsName.word package, fun d member => Construct.AllFormed.spelled (types d member),
    fun c member => Construct.AllFormed.spelled (components c member)⟩

end Grammar

/-- What the reader of units gives holds of the unit that a source has. -/
theorem parsed_gives {post : SourceUnit → Prop} (gives : Grammar.Gives Grammar.sourceUnit post) {file source : String}
    {u : SourceUnit} (accepted : parse file source = .ok u) : post u := by
  unfold parse at accepted
  split at accepted
  · cases accepted
  · rename_i tokens tokenized
    unfold parseTokens at accepted
    split at accepted
    · cases accepted
    · rename_i whole parsed
      cases accepted
      split at parsed
      · rename_i read
        cases parsed
        exact (gives tokens (Lexer.tokenize_legal tokenized) _ _ read).1
      · cases parsed

/-- The unit that a source has is in form, with all that stands in it. -/
theorem parsed_formed {file source : String} {u : SourceUnit} (accepted : parse file source = .ok u) :
    (Construct.unit u).AllFormed := parsed_gives Grammar.forms_sourceUnit accepted

/-- In the unit that a source has, all words are spelled as words. -/
theorem parsed_spelled {file source : String} {u : SourceUnit} (accepted : parse file source = .ok u) :
    Grammar.UnitSpelled u := Grammar.unitSpelled_of_formed (parsed_formed accepted)

end ViewLang
