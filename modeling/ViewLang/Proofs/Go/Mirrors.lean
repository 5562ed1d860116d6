import Mathlib.Data.List.Nodup
import ViewLang.Proofs.Go.ChannelFields
import ViewLang.Proofs.Go.StateFields
import ViewLang.Proofs.Syntax.Templates

namespace ViewLang.Go

/-- The last value of the channel `x`, which carries `elem`, is kept: `x` is a parameter of a channel type, or a hoisted
variable whose type, declared or else shown by its value, is a channel, and some template inside the body interpolates
`<-x`. -/
inductive Mirrored (c : Component) (x : String) (elem : TypeExpr) : Prop
  | param (p : Param) (recvOnly : Bool) (declared : p ∈ c.params) (named : p.name.value = x)
    (typed : p.ty.value = .chan recvOnly elem)
  | hoisted (d : VarDecl) (name : Name) (i : Nat) (recvOnly : Bool) (t : Template) (declared : d ∈ c.body.vars)
    (placed : d.names[i]? = some name) (named : name.value = x)
    (typed : (match d.ty with
      | some ty => some ty.value
      | none => d.values[i]? >>= inferExpr?) = some (.chan recvOnly elem))
    (inside : Item.Inside (.body c.body) (.template t)) (interpolated : t.Interpolates x)

section

variable {c : Component}

theorem mem_paramDecls {decl : StateDecl} : decl ∈ paramDecls c ↔ ∃ p ∈ c.params, decl = .param p := by
  rw [paramDecls, List.mem_map]
  simp only [eq_comm]

theorem mem_hoistedDecls {decl : StateDecl} :
    decl ∈ hoistedDecls c ↔ ∃ d ∈ c.body.vars, ∃ name i, d.names[i]? = some name ∧ decl = .hoisted d name i := by
  simp only [hoistedDecls, List.mem_flatMap, List.mem_map, Prod.exists, List.mem_zipIdx_iff_getElem?, eq_comm]

theorem mirrored_iff {x : String} {elem : TypeExpr} :
    Mirrored c x elem ↔ ∃ ch ∈ channelProps c, ch.name = x ∧ ch.elem = elem := by
  constructor
  · rintro (⟨p, recvOnly, declared, rfl, typed⟩ |
      ⟨d, name, i, recvOnly, t, declared, placed, rfl, typed, inside, heard⟩)
    · refine ⟨⟨p.name.value, paramAccess c p, elem⟩, mem_channelProps.mpr ⟨.param p, ?_, ?_⟩, rfl, rfl⟩
      · exact List.mem_append_left _ (mem_paramDecls.mpr ⟨p, declared, rfl⟩)
      · exact StateDecl.channel?_eq_some.mpr ⟨rfl, ⟨recvOnly, congrArg some typed⟩, rfl, rfl⟩
    · refine ⟨⟨name.value, "c." ++ name.value, elem⟩, mem_channelProps.mpr ⟨.hoisted d name i, ?_, ?_⟩, rfl, rfl⟩
      · exact List.mem_append_right _ (mem_hoistedDecls.mpr ⟨d, declared, name, i, placed, rfl⟩)
      · have watched : c.body.received.contains name.value = true :=
          List.contains_iff_mem.mpr (Body.mem_received.mpr ⟨t, inside, heard⟩)
        exact StateDecl.channel?_eq_some.mpr ⟨watched, ⟨recvOnly, typed⟩, rfl, rfl⟩
  · rintro ⟨ch, member, rfl, rfl⟩
    obtain ⟨decl, declared, kept⟩ := mem_channelProps.mp member
    obtain ⟨watched, ⟨recvOnly, typed⟩, named, _⟩ := StateDecl.channel?_eq_some.mp kept
    rcases List.mem_append.mp declared with param | hoisted
    · obtain ⟨p, inside, rfl⟩ := mem_paramDecls.mp param
      exact .param p recvOnly inside named.symm (Option.some.inj typed)
    · obtain ⟨d, inVars, name, i, placed, rfl⟩ := mem_hoistedDecls.mp hoisted
      obtain ⟨t, inside, heard⟩ := Body.mem_received.mp (List.contains_iff_mem.mp watched)
      rw [named]
      exact .hoisted d name i recvOnly t inVars placed rfl typed inside heard

theorem latest_lookup (runtime : String) (u : SourceUnit) (x : String) :
    (componentEnv runtime u c).latest.lookup x = some ("c." ++ (x ++ "Value")) ∧ (∃ elem, Mirrored c x elem) ∨
      (componentEnv runtime u c).latest.lookup x = none ∧ ¬ ∃ elem, Mirrored c x elem := by
  cases found : (componentEnv runtime u c).latest.lookup x with
  | some text =>
    have member := mem_of_lookup found
    rw [componentEnv, List.mem_reverse] at member
    obtain ⟨ch, kept, same⟩ := List.mem_map.mp member
    cases same
    exact .inl ⟨rfl, ch.elem, mirrored_iff.mpr ⟨ch, kept, rfl, rfl⟩⟩
  | none =>
    refine .inr ⟨rfl, ?_⟩
    rintro ⟨elem, mirrored⟩
    obtain ⟨ch, kept, rfl, rfl⟩ := mirrored_iff.mp mirrored
    have absent := List.lookup_eq_none_iff.mp found (ch.name, ch.latest) (by
      rw [componentEnv, List.mem_reverse]
      exact List.mem_map_of_mem kept)
    simp at absent

/-- A receive from a name that no declaration hides reads the mirror exactly if the name has one. -/
theorem receive_reads_mirror (runtime : String) (u : SourceUnit) (level : Nat) (channel : Name) (span : Span)
    {s : LowerState} (visible : s.isLocal channel.value = false) :
    ((Lower.primary (componentEnv runtime u c) level (.receive channel span)).run s).1 =
        "c." ++ (channel.value ++ "Value") ↔ ∃ elem, Mirrored c channel.value elem := by
  have shown : ((Lower.primary (componentEnv runtime u c) level (.receive channel span)).run s).1 =
      ((componentEnv runtime u c).latest.lookup channel.value).getD
        ("<-" ++ ((componentEnv runtime u c).fields.lookup channel.value).getD channel.value) := by
    have mirror : s.latest? (componentEnv runtime u c) channel.value =
        (componentEnv runtime u c).latest.lookup channel.value := by
      rw [LowerState.latest?, if_neg (by simp [visible])]
    have field : s.field? (componentEnv runtime u c) channel.value =
        (componentEnv runtime u c).fields.lookup channel.value := by
      rw [LowerState.field?, if_neg (by simp [visible])]
    rw [← mirror, ← field, Lower.primary, StateT.run_bind, StateT.run_get, pure_bind]
    cases s.latest? (componentEnv runtime u c) channel.value with
    | some text => rfl
    | none => rfl
  rw [shown]
  rcases latest_lookup (c := c) runtime u channel.value with ⟨found, mirrored⟩ | ⟨found, unmirrored⟩
  · rw [found]
    exact iff_of_true rfl mirrored
  · rw [found]
    refine iff_of_false (fun same => ?_) unmirrored
    have chars := congrArg String.toList same
    simp at chars

def declaredNames (c : Component) : List String :=
  c.params.map (·.name.value) ++ c.body.vars.flatMap (·.names.map (·.value))

/-- What depends on the name alone is read off the names of the declarations. -/
theorem stateDecls_map {α : Type} (view : StateDecl → α) (ofName : Name → α)
    (same : ∀ d name i, view (.hoisted d name i) = ofName name) :
    (stateDecls c).map view = c.params.map (view <| .param ·) ++ c.body.vars.flatMap (·.names.map ofName) := by
  have hoisted (d : VarDecl) : (d.names.zipIdx.map fun entry => StateDecl.hoisted d entry.1 entry.2).map view =
      d.names.map ofName := by
    have names : d.names.zipIdx.map Prod.fst = d.names := List.zipIdx_map_fst 0 d.names
    conv_rhs => rw [← names, List.map_map]
    rw [List.map_map]
    exact List.map_congr_left fun entry _ => same d entry.1 entry.2
  rw [stateDecls, paramDecls, hoistedDecls, List.map_append, List.map_map, List.map_flatMap]
  exact congrArg _ (List.flatMap_congr fun d _ => hoisted d)

theorem stateDecls_names (c : Component) : (stateDecls c).map (·.name) = declaredNames c :=
  stateDecls_map _ (·.value) fun _ _ _ => rfl

theorem stateFields_eq (c : Component) :
    stateFields c = ((stateDecls c).map fun decl => (decl.name, decl.access c)).reverse := by
  rw [stateDecls_map _ (fun name => (name.value, "c." ++ name.value)) fun _ _ _ => rfl]
  rfl

theorem channelProps_names (c : Component) : ((channelProps c).map (·.name)).Sublist (declaredNames c) := by
  rw [← stateDecls_names, channelProps_eq]
  generalize stateDecls c = decls
  induction decls with
  | nil => exact .slnil
  | cons decl decls ih =>
    rw [List.map_cons, List.filterMap_cons]
    cases kept : decl.channel? c with
    | none => exact ih.cons _
    | some ch =>
      obtain ⟨_, _, named, _⟩ := StateDecl.channel?_eq_some.mp kept
      rw [List.map_cons, named]
      exact ih.cons_cons _

/-- Where names are distinct, the listener of a channel reads what the channel's name stands for. -/
theorem access_of_name (distinct : (declaredNames c).Nodup) {ch : ChannelProp} (member : ch ∈ channelProps c)
    (runtime : String) (u : SourceUnit) : ch.access = Lexical.name (componentEnv runtime u c) [] ch.name := by
  obtain ⟨decl, declared, kept⟩ := mem_channelProps.mp member
  obtain ⟨_, _, named, reached⟩ := StateDecl.channel?_eq_some.mp kept
  have keys : ((stateFields c).map Prod.fst).Nodup := by
    rw [stateFields_eq, List.map_reverse, List.nodup_reverse, List.map_map]
    change ((stateDecls c).map (·.name)).Nodup
    rw [stateDecls_names]
    exact distinct
  have entry : (decl.name, decl.access c) ∈ stateFields c := by
    rw [stateFields_eq, List.mem_reverse]
    exact List.mem_map_of_mem declared
  have found : (componentEnv runtime u c).fields.lookup decl.name = some (decl.access c) := lookup_of_mem keys entry
  rw [named, reached, Lexical.name, Lexical.field?, if_neg List.not_mem_nil, found, Option.getD_some]

end

/-- If parameters and hoisted variables have distinct names: receives that no declaration hides read mirrors exactly for
the mirrored channels. The struct has, behind the fields for what is declared, one field for each of them, and `quit` if
there is any. `Mount` has one listener for each and nothing else to start; without mirrored channels, `Mount` and
`Unmount` are empty. -/
theorem mirrors_exact (runtime : String) (u : SourceUnit) (c : Component) (distinct : (declaredNames c).Nodup) :
    let env := componentEnv runtime u c
    let plain := plainEnv runtime u
    ∃ mirrors : List (String × TypeExpr), (mirrors.map Prod.fst).Nodup ∧
      (∀ x elem, (x, elem) ∈ mirrors ↔ Mirrored c x elem) ∧
      (∀ (level : Nat) (channel : Name) (span : Span) (s : LowerState), s.isLocal channel.value = false →
        (((Lower.primary env level (.receive channel span)).run s).1 = "c." ++ (channel.value ++ "Value") ↔
          ∃ elem, Mirrored c channel.value elem)) ∧
      answer (Lower.structRows plain c) =
        (if c.autoProps then propsRow c else answer (Lower.paramRows plain id c.params)) ++
          answer (Lower.varRows plain c.body.vars) ++
          mirrors.map (fun (x, elem) => (x ++ "Value", (type runtime elem).1)) ++
          (if mirrors.isEmpty then [] else [("quit", "chan struct\x7b\x7d")]) ∧
      answer (Lower.mountDoc plain c) =
        Doc.line ("// Mount starts listening on the channel props of " ++ c.name.value ++ ".") ++
          (if mirrors.isEmpty then Doc.line ("func (c *" ++ c.name.value ++ ") Mount() \x7b\x7d")
            else Doc.block ("func (c *" ++ c.name.value ++ ") Mount() \x7b")
              (Doc.line "c.quit = make(chan struct\x7b\x7d)" ++ mirrors.flatMap fun (x, elem) =>
                listener (Lexical.name env [] x) ("c." ++ (x ++ "Value")) (type runtime elem).1) "\x7d") ++
          Doc.blank ∧
      unmountDoc c =
        Doc.line "// Unmount stops the listeners started by Mount." ++
          (if mirrors.isEmpty then Doc.line ("func (c *" ++ c.name.value ++ ") Unmount() \x7b\x7d")
            else Doc.block ("func (c *" ++ c.name.value ++ ") Unmount() \x7b")
              (Doc.block "if c.quit != nil \x7b" (Doc.line "close(c.quit)" ++ Doc.line "c.quit = nil") "\x7d")
              "\x7d") ++
          Doc.blank := by
  intro env plain
  let mirror (ch : ChannelProp) : String × TypeExpr := (ch.name, ch.elem)
  have listeners : (channelProps c).flatMap (·.listener runtime) = ((channelProps c).map mirror).flatMap
      fun (x, elem) => listener (Lexical.name env [] x) ("c." ++ (x ++ "Value")) (type runtime elem).1 := by
    rw [List.flatMap_map]
    refine List.flatMap_congr fun ch member => ?_
    rw [ChannelProp.listener, access_of_name distinct member runtime u]
    rfl
  refine ⟨(channelProps c).map mirror, ?_, ?_, ?_, ?_, ?_, ?_⟩
  · rw [List.map_map]
    exact (channelProps_names c).nodup distinct
  · intro x elem
    simp only [List.mem_map, mirrored_iff, mirror, Prod.mk.injEq]
  · exact fun level channel span s visible => receive_reads_mirror runtime u level channel span visible
  · have params : answer (Lower.paramRows plain (if c.autoProps then exported else id) c.params) = _ :=
      paramDecls_rows.answer
    have vars : answer (Lower.varRows plain c.body.vars) = _ := hoistedDecls_rows.answer
    have rows : answer (Lower.structRows plain c) = _ := structRows_runs.answer
    rw [rows, vars, quitRow, List.isEmpty_map, List.map_map]
    cases gathered : c.autoProps with
    | true => rfl
    | false =>
      rw [gathered] at params
      rw [← params]
      rfl
  · have mounted : answer (Lower.mountDoc plain c) = _ := (mountDoc_runs c).answer
    rw [mounted, ← listeners, List.isEmpty_map]
    rfl
  · rw [unmountDoc, List.isEmpty_map]

/-- A clock with a channel parameter, a hoisted channel, and a button whose handler logs a template of the latter. -/
def clock : Component where
  name := ⟨"Clock", .none⟩
  params := [⟨⟨"feed", .none⟩, ⟨.chan true (.named "int"), .none⟩, false⟩]
  results := [⟨.named "Node", .none⟩]
  body := ⟨[⟨[⟨"ticks", .none⟩], none, [.single (.make ⟨.chan false (.named "string"), .none⟩ [] .none)], .none⟩], [],
    [.element ⟨⟨"Button", .none⟩, [⟨some ⟨"onClick", .none⟩, .single (.func [] []
      ⟨[.simple (.exprs [.single (.call (.name ⟨"log", .none⟩) [] [.single (.template
        ⟨[.text "at ", .interp (.single (.receive ⟨"ticks", .none⟩ .none))], .none⟩)] .none)] .none)],
        .none⟩ .none)⟩], [], .none⟩]⟩
  autoProps := false
  span := .none

theorem mirrors_exact_clock :
    let unit : SourceUnit := ⟨⟨"main", .none⟩, [], [], [clock], [], [], []⟩
    (declaredNames clock).Nodup ∧ Mirrored clock "ticks" (.named "string") ∧
      ((Lower.primary (componentEnv "rt" unit clock) 1 (.receive ⟨"ticks", .none⟩ .none)).run .start).1 =
        "c.ticksValue" := by
  intro unit
  have distinct : (declaredNames clock).Nodup := by decide
  obtain ⟨t, inside, interpolated⟩ := Body.mem_received.mp (show "ticks" ∈ clock.body.received by decide)
  have mirrored : Mirrored clock "ticks" (.named "string") :=
    .hoisted _ ⟨"ticks", .none⟩ 0 false t (.head _) rfl rfl rfl inside interpolated
  obtain ⟨_, _, _, receives, _⟩ := mirrors_exact "rt" unit clock distinct
  exact ⟨distinct, mirrored, (receives 1 ⟨"ticks", .none⟩ .none .start rfl).mpr ⟨_, mirrored⟩⟩

end ViewLang.Go
