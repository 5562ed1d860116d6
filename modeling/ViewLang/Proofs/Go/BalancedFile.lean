import ViewLang.Proofs.Go.BalancedText
import ViewLang.Proofs.Grammar.FormedTrees
import ViewLang.Proofs.Success

namespace ViewLang.Go

open Lexical (Locals)

def Makes {α : Type} (act : Lower α) (post : α → Prop) : Prop :=
  ∀ locals, ∃ a names assigned, Runs act locals a names assigned ∧ post a

section

variable {α β : Type}

theorem Makes.pure {a : α} {post : α → Prop} (made : post a) : Makes (pure a) post :=
  fun _ => ⟨a, [], false, .pure a, made⟩

theorem Makes.bind {act : Lower α} {next : α → Lower β} {mid : α → Prop} {post : β → Prop} (first : Makes act mid)
    (second : ∀ a, mid a → Makes (next a) post) : Makes (act >>= next) post := by
  intro locals
  obtain ⟨a, names, assigned, ran, made⟩ := first locals
  obtain ⟨b, more, later, ran', made'⟩ := second a made (locals.extend names)
  exact ⟨b, names ++ more, assigned || later, ran.bind ran', made'⟩

theorem Makes.inScope {act : Lower α} {post : α → Prop} (inner : Makes act post) :
    Makes (Lower.inScope act) post := by
  intro locals
  obtain ⟨a, _, assigned, ran, made⟩ := inner locals
  exact ⟨a, [], assigned, ran.inScope, made⟩

theorem Runs.makes {act : Lower α} {post : α → Prop} {a : Locals → α} {names : List String} {assigned : Locals → Bool}
    (runs : ∀ locals, Runs act locals (a locals) names (assigned locals)) (made : ∀ locals, post (a locals)) :
    Makes act post :=
  fun locals => ⟨a locals, names, assigned locals, runs locals, made locals⟩

theorem Makes.emitted {act : Lower Doc} {post : Doc → Prop} (makes : Makes act post) :
    post (Emitted.ofLower act).doc := by
  obtain ⟨a, names, assigned, ran, made⟩ := makes []
  obtain ⟨uses, same⟩ := ran [] [] [] Uses.none rfl
  have doc : (Emitted.ofLower act).doc = a := congrArg Prod.fst same
  rw [doc]
  exact made

end

section

variable {env : Env} (words : EnvSpelled env)

include words

theorem type_makes {ty : TypeExpr} (spelled : ty.Spelled) : Makes (Lower.type env ty) Balanced :=
  Runs.makes (fun _ => type_runs ty) fun _ => type_balanced words spelled

theorem params_make {ps : List Param} (spelled : ∀ p ∈ ps, (Construct.param p).AllSpelled) :
    Makes (Lower.params env ps) fun ts => ∀ t ∈ ts, Balanced t :=
  Runs.makes (fun _ => params_runs ps) fun _ => params_balanced words spelled

theorem runtime_makes {name : String} (word : IsWord name) : Makes (Lower.runtime env name) Balanced :=
  Runs.makes (fun _ => runtime_runs name) fun _ => runtime_balanced words word

theorem exprs_make {level : Nat} {es : List Expr} (spelled : ∀ e ∈ es, (Construct.expr e).AllSpelled) :
    Makes (Lower.exprs env level es) fun ts => ∀ t ∈ ts, Balanced t :=
  Runs.makes (fun locals => exprs_runs env locals level es) fun locals => exprs_balanced words locals level es spelled

theorem stmts_make {level : Nat} {ss : List Stmt} (spelled : ∀ s ∈ ss, (Construct.stmt s).AllSpelled) :
    Makes (Lower.stmts env level ss) fun d => Lays d level [] [] :=
  Runs.makes (fun locals => stmts_runs env locals level ss) fun locals => stmts_lay words locals level ss spelled

theorem nodeList_makes {level : Nat} {ns : List Node} (spelled : ∀ n ∈ ns, (Construct.node n).AllSpelled) :
    Makes (Lower.nodeList env level ns) Balanced :=
  Runs.makes (fun locals => nodeList_runs env locals level ns)
    fun locals => nodeList_balanced words locals level spelled

end

def RowFits (row : String × String) : Prop := IsWord row.1 ∧ Balanced row.2

theorem structDoc_margin {name : String} (named : IsWord name) {rows : List (String × String)}
    (each : ∀ row ∈ rows, RowFits row) : Margin (structDoc name rows) [] [] := by
  have head := (by decide : Balanced "type ").text named.balanced
  rw [structDoc]
  split
  · exact .line (head.text (by decide))
  · refine .block (head.to [.curly] (by decide)) ?_ (by decide)
    refine .lines (List.forall_mem_map.mpr fun row member => ?_)
    obtain ⟨word, typed⟩ := each row member
    exact .line (((padRight_balanced word.balanced _).text (by decide : Balanced " ")).text typed)

section

variable {env : Env} (words : EnvSpelled env)

include words

theorem paramType_makes {p : Param} (spelled : (Construct.param p).AllSpelled) :
    Makes (Lower.paramType env p) Balanced := by
  refine (type_makes words (Construct.allSpelled_param.mp spelled).2).bind fun ty typed => .pure ?_
  split
  · exact (by decide : Balanced "[]").text typed
  · exact typed

theorem paramRows_make {name : String → String} (keeps : ∀ s, IsWord s → IsWord (name s)) {ps : List Param}
    (spelled : ∀ p ∈ ps, (Construct.param p).AllSpelled) :
    Makes (Lower.paramRows env name ps) fun rows => ∀ row ∈ rows, RowFits row := by
  induction ps with
  | nil => exact .pure nofun
  | cons p ps ih =>
    obtain ⟨first, others⟩ := List.forall_mem_cons.mp spelled
    refine (paramType_makes words first).bind fun ty typed => (ih others).bind fun rows each => .pure ?_
    exact List.forall_mem_cons.mpr ⟨⟨keeps _ (Construct.allSpelled_param.mp first).1, typed⟩, each⟩

end

theorem inferType?_spelled (p : Primary) {ty : TypeExpr} (found : inferType? p = some ty)
    (spelled : (Construct.primary p).AllSpelled) : ty.Spelled := by
  have inside := Construct.allSpelled_primary.mp spelled
  fun_induction inferType? p with
  | case1 | case2 | case3 | case4 =>
    cases found
    exact TypeExpr.spelled_named.mpr (by decide)
  | case5 =>
    cases found
    exact (Construct.allSpelled_composite.mp inside).1
  | case6 =>
    cases found
    exact (Construct.allSpelled_make.mp inside).1
  | case7 =>
    cases found
    obtain ⟨params, results, -⟩ := Construct.allSpelled_func.mp inside
    refine TypeExpr.spelled_func.mpr ⟨List.forall_mem_map.mpr ?_, List.forall_mem_map.mpr results⟩
    exact fun p member => (Construct.allSpelled_param.mp (params p member)).2
  | case8 inner span ih =>
    have first := (Construct.allSpelled_expr.mp inside).1
    exact ih found first (Construct.allSpelled_primary.mp first)
  | case9 => cases found

theorem inferExpr?_spelled {e : Expr} {ty : TypeExpr} (found : inferExpr? e = some ty)
    (spelled : (Construct.expr e).AllSpelled) : ty.Spelled := by
  obtain ⟨p, alone, found⟩ := Option.bind_eq_some_iff.mp found
  unfold Expr.primary? at alone
  split at alone
  · cases alone
    exact inferType?_spelled _ found (Construct.allSpelled_expr.mp spelled).1
  · cases alone

theorem chanElem?_spelled {ty elem : TypeExpr} (found : ty.chanElem? = some elem) (spelled : ty.Spelled) :
    elem.Spelled := by
  cases ty with
  | chan recvOnly inner =>
    cases found
    exact TypeExpr.spelled_chan.mp spelled
  | _ => cases found

structure ChannelSpelled (ch : ChannelProp) : Prop where
  name : IsWord ch.name
  access : IsWord ch.access
  elem : ch.elem.Spelled

theorem ChannelSpelled.latest {ch : ChannelProp} (spelled : ChannelSpelled ch) : IsWord ch.latest :=
  IsWord.append (by decide) (spelled.name.append (by decide))

theorem receiver_word {name : String} (word : IsWord name) : IsWord ("c." ++ name) := IsWord.append (by decide) word

section

variable {c : Component} (spelled : (Construct.component c).AllSpelled)

include spelled

theorem paramAccess_word {p : Param} (member : p ∈ c.params) : IsWord (paramAccess c p) := by
  obtain ⟨-, params, -⟩ := Construct.allSpelled_component.mp spelled
  have named := (Construct.allSpelled_param.mp (params p member)).1
  rw [paramAccess]
  split
  · exact IsWord.append (by decide) named.exported
  · exact receiver_word named

theorem hoisted_words {d : VarDecl} (member : d ∈ c.body.vars) : (Construct.varDecl d).AllSpelled :=
  (Construct.allSpelled_body.mp (Construct.allSpelled_component.mp spelled).2.2.2).1 d member

theorem channelProps_spelled : ∀ ch ∈ channelProps c, ChannelSpelled ch := by
  refine List.forall_mem_append.mpr ⟨?_, ?_⟩
  · intro ch listed
    obtain ⟨p, member, made⟩ := List.mem_filterMap.mp listed
    obtain ⟨elem, found, rfl⟩ := Option.map_eq_some_iff.mp made
    obtain ⟨-, params, -⟩ := Construct.allSpelled_component.mp spelled
    obtain ⟨named, typed⟩ := Construct.allSpelled_param.mp (params p member)
    exact ⟨named, paramAccess_word spelled member, chanElem?_spelled found typed⟩
  · intro ch listed
    obtain ⟨d, declared, listed⟩ := List.mem_flatMap.mp listed
    obtain ⟨⟨name, i⟩, member, made⟩ := List.mem_filterMap.mp listed
    obtain ⟨named, typed, values⟩ := Construct.allSpelled_varDecl.mp (hoisted_words spelled declared)
    have word := named name (List.fst_mem_of_mem_zipIdx member)
    change hoistedChannel? c.body.received d name i = some ch at made
    rw [hoistedChannel?] at made
    split at made
    · obtain ⟨elem, found, rfl⟩ := Option.map_eq_some_iff.mp made
      obtain ⟨ty, known, found⟩ := Option.bind_eq_some_iff.mp found
      refine ⟨word, receiver_word word, chanElem?_spelled found ?_⟩
      cases own : d.ty with
      | some t =>
        rw [own] at known
        cases known
        exact typed t own
      | none =>
        rw [own] at known
        obtain ⟨value, listed, inferred⟩ := Option.bind_eq_some_iff.mp known
        exact inferExpr?_spelled inferred (values value (List.mem_of_getElem? listed))
    · cases made

theorem stateFields_words : ∀ x ∈ stateFields c, IsWord x.2 := by
  intro x listed
  rw [stateFields, List.mem_reverse] at listed
  rcases List.mem_append.mp listed with param | hoisted
  · obtain ⟨p, member, rfl⟩ := List.mem_map.mp param
    exact paramAccess_word spelled member
  · obtain ⟨d, declared, named⟩ := List.mem_flatMap.mp hoisted
    obtain ⟨name, member, rfl⟩ := List.mem_map.mp named
    exact receiver_word ((Construct.allSpelled_varDecl.mp (hoisted_words spelled declared)).1 name member)

end

/-- The words of a component and of what its environment holds. -/
theorem plainEnv_spelled {runtime : String} (word : IsWord runtime) {u : SourceUnit}
    (each : ∀ c ∈ u.components, (Construct.component c).AllSpelled) : EnvSpelled (plainEnv runtime u) where
  runtime := word
  fields := nofun
  latest := nofun
  params c member := (Construct.allSpelled_component.mp (each c member)).2.1

theorem componentEnv_spelled {runtime : String} (word : IsWord runtime) {u : SourceUnit}
    (each : ∀ c ∈ u.components, (Construct.component c).AllSpelled) {c : Component}
    (spelled : (Construct.component c).AllSpelled) : EnvSpelled (componentEnv runtime u c) where
  runtime := word
  fields := stateFields_words spelled
  latest x listed := by
    rw [componentEnv, List.mem_reverse] at listed
    obtain ⟨ch, member, rfl⟩ := List.mem_map.mp listed
    exact (channelProps_spelled spelled ch member).latest
  params c member := (Construct.allSpelled_component.mp (each c member)).2.1

section

variable {env : Env} (words : EnvSpelled env) {c : Component} (spelled : (Construct.component c).AllSpelled)

include words

omit words in
theorem hoistedType?_spelled {d : VarDecl} {i : Nat} {ty : TypeExpr} (known : Lower.hoistedType? d i = some ty)
    (declared : (Construct.varDecl d).AllSpelled) : ty.Spelled := by
  obtain ⟨-, typed, values⟩ := Construct.allSpelled_varDecl.mp declared
  rw [Lower.hoistedType?] at known
  split at known
  · rename_i t own
    cases known
    exact typed t own
  · split at known
    · obtain ⟨value, listed, inferred⟩ := Option.bind_eq_some_iff.mp known
      exact inferExpr?_spelled inferred (values value (List.mem_of_getElem? listed))
    · cases known

theorem hoistedRows_make {d : VarDecl} (declared : (Construct.varDecl d).AllSpelled) {names : List (Name × Nat)}
    (each : ∀ n ∈ names, IsWord n.1.value) :
    Makes (Lower.hoistedRows env d names) fun rows => ∀ row ∈ rows, RowFits row := by
  induction names with
  | nil => exact .pure nofun
  | cons entry names ih =>
    obtain ⟨name, i⟩ := entry
    obtain ⟨named, others⟩ := List.forall_mem_cons.mp each
    have behind {first : Lower String} (typed : Makes first Balanced) : Makes (do
        let ty ← first
        let rows ← Lower.hoistedRows env d names
        pure ((name.value, ty) :: rows)) fun rows => ∀ row ∈ rows, RowFits row := by
      refine typed.bind fun ty balanced => (ih others).bind fun rows rest => .pure ?_
      exact List.forall_mem_cons.mpr ⟨⟨named, balanced⟩, rest⟩
    rw [Lower.hoistedRows]
    cases known : Lower.hoistedType? d i with
    | some ty => exact behind (type_makes words (hoistedType?_spelled known declared))
    | none => exact behind (.pure (by decide))

theorem varRows_make {ds : List VarDecl} (each : ∀ d ∈ ds, (Construct.varDecl d).AllSpelled) :
    Makes (Lower.varRows env ds) fun rows => ∀ row ∈ rows, RowFits row := by
  induction ds with
  | nil => exact .pure nofun
  | cons d ds ih =>
    obtain ⟨first, others⟩ := List.forall_mem_cons.mp each
    have named := (Construct.allSpelled_varDecl.mp first).1
    refine (hoistedRows_make words first fun n member => ?_).bind fun rows fit => (ih others).bind fun more rest =>
      .pure (List.forall_mem_append.mpr ⟨fit, rest⟩)
    exact named n.1 (List.fst_mem_of_mem_zipIdx member)

theorem latestRows_make {chs : List ChannelProp} (each : ∀ ch ∈ chs, ChannelSpelled ch) :
    Makes (Lower.latestRows env chs) fun rows => ∀ row ∈ rows, RowFits row := by
  induction chs with
  | nil => exact .pure nofun
  | cons ch chs ih =>
    obtain ⟨first, others⟩ := List.forall_mem_cons.mp each
    refine (type_makes words first.elem).bind fun ty typed => (ih others).bind fun rows rest => .pure ?_
    exact List.forall_mem_cons.mpr ⟨⟨first.name.append (by decide), typed⟩, rest⟩

include spelled

theorem structRows_make : Makes (Lower.structRows env c) fun rows => ∀ row ∈ rows, RowFits row := by
  obtain ⟨named, params, -⟩ := Construct.allSpelled_component.mp spelled
  have vars := varRows_make words fun d member => hoisted_words spelled member
  have latest := latestRows_make words (channelProps_spelled spelled)
  have quit : ∀ row ∈ if (channelProps c).isEmpty then [] else [("quit", "chan struct\x7b\x7d")], RowFits row := by
    split
    · exact nofun
    · exact List.forall_mem_singleton.mpr ⟨by decide, by decide⟩
  have behind {own : Lower (List (String × String))} (first : Makes own fun rows => ∀ row ∈ rows, RowFits row) :
      Makes (do
        let params ← own
        let vars ← Lower.varRows env c.body.vars
        let latest ← Lower.latestRows env (channelProps c)
        pure (params ++ vars ++ latest ++
          if (channelProps c).isEmpty then [] else [("quit", "chan struct\x7b\x7d")])) fun rows =>
        ∀ row ∈ rows, RowFits row := by
    refine first.bind fun params fit => vars.bind fun hoisted fit' => latest.bind fun kept fit'' => .pure ?_
    simp only [List.forall_mem_append]
    exact ⟨⟨⟨fit, fit'⟩, fit''⟩, quit⟩
  unfold Lower.structRows
  split
  · refine behind (.pure ?_)
    split
    · exact nofun
    · have props := (named.append (by decide : IsWord "Props")).balanced
      exact List.forall_mem_singleton.mpr ⟨(by decide : IsWord "props"), props⟩
  · exact behind (paramRows_make words (fun _ word => word) params)

omit spelled in
theorem optionDoc_makes {name : String} (named : IsWord name) {p : Param} (spelled : (Construct.param p).AllSpelled) :
    Makes (Lower.optionDoc env name p) fun d => Margin d [] [] := by
  obtain ⟨word, typed⟩ := Construct.allSpelled_param.mp spelled
  have field := word.exported
  refine (type_makes words typed).bind fun ty balanced => .pure ?_
  have mark : Balanced (if p.variadic then "..." else "") := by
    split <;> decide
  have remark := (((((by decide : Remark "// ").text named.oneLine).text (by decide : '\n' ∉ "With".toList)).text
    field.oneLine).text (by decide : '\n' ∉ " sets ".toList)).text field.oneLine
  have function := (((by decide : Balanced "func ").text named.balanced).text (by decide : Balanced "With")).text
    field.balanced
  have argument := ((function.to [.round] (by decide : Carries "(v " _ _)).text mark).text balanced
  have head := ((argument.to [] (by decide : Carries ") " _ _)).text named.balanced).to [.curly]
    (by decide : Carries "Option \x7b" _ _)
  have inner := (((by decide : Carries "return func(p *" [] [.round]).text named.balanced).to [.curly]
    (by decide : Carries "Props) \x7b" _ _))
  have assigned : Balanced ("p." ++ exported p.name.value ++ " = v") :=
    ((by decide : Balanced "p.").text field.balanced).text (by decide)
  exact ((Margin.comment (remark.text (by decide))).append
    (.block head (.block inner (.line assigned) (by decide)) (by decide))).append .blank

omit spelled in
theorem optionDocs_make {name : String} (named : IsWord name) {ps : List Param}
    (each : ∀ p ∈ ps, (Construct.param p).AllSpelled) :
    Makes (Lower.optionDocs env name ps) fun d => Margin d [] [] := by
  induction ps with
  | nil => exact .pure .nil
  | cons p ps ih =>
    obtain ⟨first, others⟩ := List.forall_mem_cons.mp each
    exact (optionDoc_makes words named first).bind fun d margin => (ih others).bind fun ds rest =>
      .pure (margin.append rest)

theorem propsDoc_makes : Makes (Lower.propsDoc env c) fun d => Margin d [] [] := by
  obtain ⟨named, params, -⟩ := Construct.allSpelled_component.mp spelled
  refine (paramRows_make words (fun _ word => word.exported) params).bind fun rows fit =>
    (optionDocs_make words named params).bind fun options margin => .pure ?_
  have holds := ((((by decide : Remark "// ").text named.oneLine).text
    (by decide : '\n' ∉ "Props holds the properties of ".toList)).text named.oneLine).text
    (by decide : '\n' ∉ ".".toList)
  have sets := ((((by decide : Remark "// ").text named.oneLine).text
    (by decide : '\n' ∉ "Option sets one property of ".toList)).text named.oneLine).text
    (by decide : '\n' ∉ ".".toList)
  have option := ((((by decide : Balanced "type ").text named.balanced).to [.round]
    (by decide : Carries "Option func(*" _ _)).text named.balanced).to [] (by decide : Carries "Props)" _ _)
  have struct := structDoc_margin (named.append (by decide : IsWord "Props")) fit
  exact ((((((Margin.comment holds).append struct).append .blank).append (.comment sets)).append (.line option)).append
    .blank).append margin

theorem structDecl_makes : Makes (Lower.structDecl env c) fun d => Margin d [] [] := by
  obtain ⟨named, -⟩ := Construct.allSpelled_component.mp spelled
  refine (structRows_make words spelled).bind fun rows fit => .pure ?_
  have remark := ((by decide : Remark "// ").text named.oneLine).text
      (by decide : '\n' ∉ " is a renderable unit.".toList)
  exact ((Margin.comment remark).append (structDoc_margin named fit)).append .blank

omit spelled in
theorem initialise_makes {ds : List VarDecl} (each : ∀ d ∈ ds, (Construct.varDecl d).AllSpelled) :
    Makes (Lower.initialise env ds) fun d => Lays d 1 [] [] := by
  induction ds with
  | nil => exact .pure .nil
  | cons d ds ih =>
    obtain ⟨first, others⟩ := List.forall_mem_cons.mp each
    obtain ⟨named, -, values⟩ := Construct.allSpelled_varDecl.mp first
    refine (exprs_make words values).bind fun texts balanced => (ih others).bind fun rest lays => ?_
    have targets : ∀ t ∈ d.names.map fun n => "c." ++ n.value, Balanced t :=
      List.forall_mem_map.mpr fun n member => (receiver_word (named n member)).balanced
    have line := ((balanced_commas targets).text (by decide : Balanced " = ")).text (balanced_commas balanced)
    split
    · exact .pure lays
    · exact .pure (.cons line lays)

/-- The brace that the constructor opens is left open. -/
theorem constructorHead_makes : Makes (Lower.constructorHead env c) fun d => Margin d [] [.curly] := by
  obtain ⟨named, params, -⟩ := Construct.allSpelled_component.mp spelled
  have name := named.balanced
  have function := (by decide : Balanced "func New").text name
  have made : Lays (Doc.line ("c := &" ++ c.name.value ++ "\x7b\x7d")) 0 [] [] :=
    .line (((by decide : Balanced "c := &").text name).text (by decide))
  unfold Lower.constructorHead
  split
  · refine .pure ?_
    have head := (((function.to [.round] (by decide : Carries "(opts ..." _ _)).text name).to []
      (by decide : Carries "Option) *" _ _)).text name
    refine (Margin.opening (head.to [.curly] (by decide))).append (.inside (made.append ?_).indent .curly)
    split
    · exact .nil
    · exact .block (by decide : Carries "for _, opt := range opts \x7b" [] [.curly]) (.line (by decide)) (by decide)
  · refine (params_make words params).bind fun ps balanced => .pure ?_
    have head := (((function.to [.round] (by decide : Carries "(" _ _)).text (balanced_commas balanced)).to []
      (by decide : Carries ") *" _ _)).text name
    refine (Margin.opening (head.to [.curly] (by decide))).append (.inside (Lays.indent ?_) .curly)
    split
    · exact made
    · refine .block (((by decide : Balanced "c := &").text name).to [.curly] (by decide)) ?_ (by decide)
      refine .lines (List.forall_mem_map.mpr fun p member => ?_)
      have word := (Construct.allSpelled_param.mp (params p member)).1.balanced
      exact .line (((Carries.text word (by decide : Balanced ": ")).text word).text (by decide))

theorem constructorDoc_makes : Makes (Lower.constructorDoc env c) fun d => Margin d [] [] := by
  obtain ⟨named, -⟩ := Construct.allSpelled_component.mp spelled
  have vars := initialise_makes words fun d member => hoisted_words spelled member
  refine (constructorHead_makes words spelled).bind fun head opened => vars.bind fun values inside => .pure ?_
  have remark := ((((by decide : Remark "// New").text named.oneLine).text
    (by decide : '\n' ∉ " creates a ".toList)).text named.oneLine).text (by decide : '\n' ∉ ".".toList)
  have returned : Lays (Doc.indent (Doc.line "return c")) 1 [] [] := Lays.indent (.line (by decide))
  exact (((((Margin.comment remark).append opened).append (.inside inside .curly)).append
    (.inside returned .curly)).append (.closing (by decide))).append .blank

theorem renderDoc_makes : Makes (Lower.renderDoc env c) fun d => Margin d [] [] := by
  obtain ⟨named, -, -, body⟩ := Construct.allSpelled_component.mp spelled
  obtain ⟨-, stmts, nodes⟩ := Construct.allSpelled_body.mp body
  refine (runtime_makes words (by decide)).bind fun type typed => (stmts_make words stmts).bind fun lines inside =>
    (nodeList_makes words nodes).bind fun root balanced => .pure ?_
  have remark := ((by decide : Remark "// Render builds the node tree of ").text named.oneLine).text
    (by decide : '\n' ∉ ".".toList)
  have head := (((by decide : Carries "func (c *" [] [.round]).text named.balanced).to []
    (by decide : Carries ") Render() " _ _)).text typed
  have returned : Lays [.text 1 ("return " ++ root)] 1 [] [] := .line ((by decide : Balanced "return ").text balanced)
  exact (((((Margin.comment remark).append (.opening (head.to [.curly] (by decide)))).append
    (.inside inside .curly)).append (.inside returned .curly)).append (.closing (by decide))).append .blank

omit spelled in
theorem listenerDoc_makes {ch : ChannelProp} (channel : ChannelSpelled ch) :
    Makes (Lower.listenerDoc env ch) fun d => Lays d 0 [] [] := by
  refine (type_makes words channel.elem).bind fun elem typed => .pure ?_
  have access := channel.access.balanced
  have kept : Lays (Doc.line (ch.latest ++ " = v")) 0 [] [] := .line (channel.latest.balanced.text (by decide))
  have stop : Lays (Doc.line "return") 0 [] [] := .line (by decide)
  have received : Lays (Doc.block "if !ok \x7b" (Doc.line "return") "\x7d" ++ Doc.line (ch.latest ++ " = v") ++
      Doc.line "c.Update()") 0 [] [] :=
    ((Lays.block (by decide : Carries _ [] [.curly]) stop (by decide)).append kept).append (.line (by decide))
  have select := (((((Lays.line (by decide : Carries "select \x7b" [] [.curly])).append
    (.line (by decide : Carries "case v, ok := <-ch:" _ _))).append (received.indent.nested [.curly])).append
    (.line (by decide : Carries "case <-quit:" _ _))).append (stop.indent.nested [.curly])).append
    (.line (by decide : Carries "\x7d" _ []))
  have tested := ((by decide : Balanced "if ").text access).to [.curly] (by decide : Carries " != nil \x7b" _ _)
  have started := ((by decide : Carries "go func(ch <-chan " [] [.round]).text typed).to [.curly]
    (by decide : Carries ", quit <-chan struct\x7b\x7d) \x7b" _ _)
  have called := ((by decide : Carries "\x7d(" [.curly] [.round]).text access).to []
      (by decide : Carries ", c.quit)" _ _)
  have repeated : Lays (Doc.block "for \x7b" _ "\x7d") 0 [] [] :=
    .block (by decide : Carries "for \x7b" [] [.curly]) select (by decide)
  exact .block tested (.block started repeated called) (by decide)

omit spelled in
theorem listenerDocs_make {chs : List ChannelProp} (each : ∀ ch ∈ chs, ChannelSpelled ch) :
    Makes (Lower.listenerDocs env chs) fun d => Lays d 0 [] [] := by
  induction chs with
  | nil => exact .pure .nil
  | cons ch chs ih =>
    obtain ⟨first, others⟩ := List.forall_mem_cons.mp each
    exact (listenerDoc_makes words first).bind fun d lays => (ih others).bind fun ds rest => .pure (lays.append rest)

theorem mountDoc_makes : Makes (Lower.mountDoc env c) fun d => Margin d [] [] := by
  obtain ⟨named, -⟩ := Construct.allSpelled_component.mp spelled
  refine (listenerDocs_make words (channelProps_spelled spelled)).bind fun listeners lays => .pure ?_
  have remark := ((by decide : Remark "// Mount starts listening on the channel props of ").text named.oneLine).text
    (by decide : '\n' ∉ ".".toList)
  have head := (by decide : Carries "func (c *" [] [.round]).text named.balanced
  refine ((Margin.comment remark).append ?_).append .blank
  split
  · exact .line (head.to [] (by decide))
  · exact .block (head.to [.curly] (by decide)) ((Lays.line (by decide)).append lays) (by decide)

theorem updateDoc_makes : Makes (Lower.updateDoc env c) fun d => Margin d [] [] := by
  obtain ⟨named, -⟩ := Construct.allSpelled_component.mp spelled
  refine (runtime_makes words (by decide)).bind fun schedule balanced => .pure ?_
  have remark := ((by decide : Remark "// Update schedules a re-render of ").text named.oneLine).text
    (by decide : '\n' ∉ ".".toList)
  have head := (by decide : Carries "func (c *" [] [.round]).text named.balanced
  exact ((Margin.comment remark).append
    (.block (head.to [.curly] (by decide)) (.line (Carries.text balanced (by decide))) (by decide))).append .blank

theorem functionDoc_makes : Makes (Lower.functionDoc env c) fun d => Margin d [] [] := by
  obtain ⟨named, params, -, body⟩ := Construct.allSpelled_component.mp spelled
  obtain ⟨vars, stmts, -⟩ := Construct.allSpelled_body.mp body
  have hoisted : ∀ s ∈ c.body.vars.map Stmt.var, (Construct.stmt s).AllSpelled :=
    List.forall_mem_map.mpr fun d member => Construct.allSpelled_stmt.mpr (vars d member)
  have declared : Makes (Lower.declareAll (c.params.map (·.name))) fun _ => True :=
    Runs.makes (fun _ => declareAll_runs _) fun _ => trivial
  have lines : Makes (Lower.inScope do
      Lower.declareAll (c.params.map (·.name))
      let vars ← Lower.stmts env 1 (c.body.vars.map .var)
      let rest ← Lower.stmts env 1 c.body.stmts
      pure (vars ++ rest)) fun d => Lays d 1 [] [] :=
    .inScope (declared.bind fun _ _ => (stmts_make words hoisted).bind fun _ lays =>
      (stmts_make words stmts).bind fun _ lays' => .pure (lays.append lays'))
  refine (params_make words params).bind fun ps balanced => lines.bind fun inside lays => .pure ?_
  have head := ((((by decide : Balanced "func ").text named.balanced).to [.round] (by decide : Carries "(" _ _)).text
    (balanced_commas balanced)).to [.curly] (by decide : Carries ") \x7b" _ _)
  exact (((Margin.opening head).append (.inside lays .curly)).append (.closing (by decide))).append .blank

omit words in
theorem unmountDoc_margin : Margin (unmountDoc c) [] [] := by
  obtain ⟨named, -⟩ := Construct.allSpelled_component.mp spelled
  have head := (by decide : Carries "func (c *" [] [.round]).text named.balanced
  refine ((Margin.comment (by decide)).append ?_).append .blank
  split
  · exact .line (head.to [] (by decide))
  · have close : Lays (Doc.line "close(c.quit)" ++ Doc.line "c.quit = nil") 0 [] [] :=
      (Lays.line (by decide : Balanced "close(c.quit)")).append (.line (by decide))
    exact .block (head.to [.curly] (by decide))
      (.block (by decide : Carries "if c.quit != nil \x7b" [] [.curly]) close (by decide)) (by decide)

end

theorem Emitted.concat_doc (es : List Emitted) : (Emitted.concat es).doc = (es.map (·.doc)).flatten := by
  have joined (first : Emitted) : (es.foldl append first).doc = first.doc ++ (es.map (·.doc)).flatten := by
    induction es generalizing first with
    | nil => exact (List.append_nil _).symm
    | cons e es ih =>
      rw [List.foldl_cons, ih, List.map_cons, List.flatten_cons, ← List.append_assoc]
      rfl
  exact joined empty

theorem Emitted.concat_margin {es : List Emitted} (each : ∀ e ∈ es, Margin e.doc [] []) :
    Margin (Emitted.concat es).doc [] [] := by
  rw [Emitted.concat_doc]
  exact .flatten (List.forall_mem_map.mpr each)

section

variable {runtime : String} (word : IsWord runtime) {u : SourceUnit}
  (each : ∀ c ∈ u.components, (Construct.component c).AllSpelled)

include word each

theorem component_margin {c : Component} (member : c ∈ u.components) :
    Margin (component runtime u c).doc [] [] := by
  have spelled := each c member
  have plain := plainEnv_spelled word each
  have own := componentEnv_spelled word each spelled
  rw [component]
  split
  · refine Emitted.concat_margin ?_
    simp only [List.forall_mem_cons]
    refine ⟨?_, (structDecl_makes plain spelled).emitted, (constructorDoc_makes own spelled).emitted,
      (renderDoc_makes own spelled).emitted, (mountDoc_makes plain spelled).emitted, unmountDoc_margin spelled,
      (updateDoc_makes plain spelled).emitted, nofun⟩
    split
    · exact (propsDoc_makes plain spelled).emitted
    · exact .nil
  · exact (functionDoc_makes plain spelled).emitted

end

theorem typeDef_margin {runtime : String} (word : IsWord runtime) {d : TypeDef}
    (spelled : (Construct.typeDef d).AllSpelled) : Margin (typeDef runtime d).doc [] [] := by
  obtain ⟨named, fields⟩ := Construct.allSpelled_typeDef.mp spelled
  have typed : ∀ t ∈ d.fields.map (·.ty.value), t.Spelled :=
    List.forall_mem_map.mpr fun f member => (Construct.allSpelled_field.mp (fields f member)).2
  have rows : ∀ row ∈ (fieldRows runtime d.fields).1, RowFits row := by
    intro row member
    obtain ⟨left, right⟩ := List.of_mem_zip member
    obtain ⟨f, listed, same⟩ := List.mem_map.mp left
    rw [RowFits, ← same]
    exact ⟨(Construct.allSpelled_field.mp (fields f listed)).1, typeExprs_balanced word _ typed _ right⟩
  exact (structDoc_margin named rows).append .blank

theorem mem_of_eraseReps {α : Type} [BEq α] {a : α} {as : List α} (member : a ∈ as.eraseReps) : a ∈ as := by
  have loop (rest : List α) : ∀ first seen, a ∈ List.eraseRepsBy.loop (· == ·) first rest seen →
      a ∈ first :: rest ∨ a ∈ seen := by
    induction rest with
    | nil =>
      intro first seen member
      rw [List.eraseRepsBy.loop, List.mem_reverse] at member
      grind
    | cons b rest ih =>
      intro first seen member
      rw [List.eraseRepsBy.loop] at member
      split at member
      · have := ih _ _ member
        grind
      · have := ih _ _ member
        grind
  cases as with
  | nil => exact member
  | cons first rest =>
    rcases loop rest first [] member with listed | none
    · exact listed
    · cases none

theorem sorted_subset (is : List ImportLine) : ImportLine.sorted is ⊆ is :=
  fun _ member => List.mem_mergeSort.mp (mem_of_eraseReps member)

theorem lays_intercalate {ds : List Doc} {level : Nat} (each : ∀ d ∈ ds, Lays d level [] []) :
    Lays (Doc.blank.intercalate ds) level [] [] := by
  rw [List.intercalate]
  induction ds with
  | nil => exact .nil
  | cons d ds ih =>
    obtain ⟨first, others⟩ := List.forall_mem_cons.mp each
    cases ds with
    | nil => exact first.append .nil
    | cons e ds => exact first.append (Lays.blank.append (ih others))

theorem importDoc_margin {is : List ImportLine} (each : ∀ i ∈ is, Balanced i.line) : Margin (importDoc is) [] [] := by
  rw [importDoc]
  generalize made : ([_, _].filter _ : List (List ImportLine)) = groups
  have balanced : ∀ group ∈ groups, ∀ i ∈ group, Balanced i.line := by
    intro group listed i member
    rw [← made] at listed
    have chosen := List.mem_of_mem_filter listed
    simp only [List.mem_cons, List.not_mem_nil, or_false] at chosen
    rcases chosen with rfl | rfl
    · exact each i (List.mem_of_mem_filter (sorted_subset _ member))
    · exact each i (List.mem_of_mem_filter (sorted_subset _ member))
  split
  · exact .nil
  · rename_i i
    have line := balanced [i] List.mem_cons_self i List.mem_cons_self
    exact (Margin.line ((by decide : Balanced "import ").text line)).append .blank
  · refine (Margin.block (by decide : Carries _ [] [.round]) (lays_intercalate ?_) (by decide)).append .blank
    refine List.forall_mem_map.mpr fun group listed => .lines (List.forall_mem_map.mpr fun i member => ?_)
    exact .line (balanced group listed i member)

theorem imports_balanced {config : Config} (word : IsWord config.runtimeAlias) (u : SourceUnit) (uses : Uses) :
    ∀ i ∈ imports config u uses, Balanced i.line := by
  have plain (path : String) : Balanced (ImportLine.plain path).line := quote_balanced path
  have runtime : Balanced (ImportLine.runtime config).line := by
    rw [ImportLine.runtime]
    split
    · exact quote_balanced _
    · exact (word.balanced.text (by decide : Balanced " ")).text (quote_balanced _)
  simp only [imports, List.forall_mem_append, List.forall_mem_map]
  refine ⟨⟨fun path _ => plain path, ?_⟩, ?_⟩
  · split
    · exact List.forall_mem_singleton.mpr (plain _)
    · exact nofun
  · split
    · exact List.forall_mem_singleton.mpr runtime
    · exact nofun

/-- What is generated for the declarations of the unit, one after the other. -/
def emittedDecls (runtime : String) (u : SourceUnit) : List Emitted :=
  u.types.map (typeDef runtime) ++ u.components.map (component runtime u)

theorem emittedDecls_margin {runtime : String} (word : IsWord runtime) {u : SourceUnit}
    (spelled : Grammar.UnitSpelled u) :
    ∀ e ∈ emittedDecls runtime u, Margin e.doc [] [] := by
  rw [emittedDecls, List.forall_mem_append, List.forall_mem_map, List.forall_mem_map]
  constructor
  · intro d member
    exact typeDef_margin word (spelled.types d member)
  · intro c member
    exact component_margin word spelled.components member

/-- A file is the clause of its package and its imports, and then the declarations. -/
theorem document_parts {config : Config} (word : IsWord config.runtimeAlias) (header : Remark config.header)
    {package : String} (named : IsWord package) (u : SourceUnit) :
    ∃ front, document config package u = front ++ ((emittedDecls config.runtimeAlias u).map (·.doc)).flatten ∧
      Margin front [] [] := by
  have first : Margin (if config.header.isEmpty then [] else Doc.line config.header ++ Doc.blank) [] [] := by
    split
    · exact .nil
    · exact (Margin.comment header).append .blank
  have clause := (by decide : Balanced "package ").text named.balanced
  have opening := (first.append (.line clause)).append .blank
  refine ⟨_, ?_, opening.append (importDoc_margin (imports_balanced word u (declarations config.runtimeAlias u).uses))⟩
  rw [document, declarations, Emitted.concat_doc, emittedDecls]

/-- The generated text closes what it opens, and so does what it has for each declaration. Lines stand at the margin
exactly where no bracket is open in front of them or behind them, so that every declaration ends at the margin. -/
theorem generated_balanced {file source : String} {u : SourceUnit} (accepted : parse file source = .ok u) :
    Balanced (generate Config.default u.package.value u) ∧
    Levelled [] (document Config.default u.package.value u) ∧
    ∃ front, document Config.default u.package.value u =
        front ++ ((emittedDecls Config.default.runtimeAlias u).map (·.doc)).flatten ∧
      Balanced (Doc.render "\t" front) ∧
      ∀ e ∈ emittedDecls Config.default.runtimeAlias u, Balanced (Doc.render "\t" e.doc) ∧ Levelled [] e.doc := by
  have spelled := parsed_spelled accepted
  have word : IsWord Config.default.runtimeAlias := by decide
  obtain ⟨front, parts, margin⟩ := document_parts word (by decide) spelled.package u
  have each := emittedDecls_margin word spelled
  have whole : Margin (document Config.default u.package.value u) [] [] := by
    rw [parts]
    exact margin.append (.flatten (List.forall_mem_map.mpr each))
  refine ⟨trimEnd_balanced whole.carries, whole.levelled, front, parts, margin.carries, ?_⟩
  intro e member
  exact ⟨(each e member).carries, (each e member).levelled⟩

/-- A string literal that holds a quote and closing brackets, two levels deep. -/
def noteSource : String := "package p func f(on bool) \x7b if on \x7b g(\"\\\"\x7d(\") \x7d \x7d"

def noteText : String :=
  "// Code generated by weft. DO NOT EDIT.\n\npackage p\n\n" ++
    "func f(on bool) \x7b\n\tif on \x7b\n\t\tg(\"\\\"\x7d(\")\n\t\x7d\n\x7d\n"

theorem generated_balanced_note : ∃ u, parse "note" noteSource = .ok u ∧
    generate Config.default u.package.value u = noteText ∧ Balanced noteText ∧
    Levelled [] (document Config.default u.package.value u) := by
  have known : (parse "note" noteSource).toOption.map (fun u => generate Config.default u.package.value u) =
      some noteText := by decide +kernel
  obtain ⟨u, read, text⟩ := Option.map_eq_some_iff.mp known
  have accepted := toOption_some_iff.mp read
  obtain ⟨balanced, levelled, -⟩ := generated_balanced accepted
  exact ⟨u, accepted, text, text ▸ balanced, levelled⟩

end ViewLang.Go
