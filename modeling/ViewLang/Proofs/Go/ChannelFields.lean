import ViewLang.Go.Component
import ViewLang.Proofs.Go.ScopeDiscipline

namespace ViewLang.Go

open Lexical (Locals)

def answer {α : Type} (act : Lower α) : α := (act.run LowerState.start).1

theorem Runs.answer {α : Type} {act : Lower α} {a : α} {names : List String} {assigned : Bool}
    (runs : Runs act [] a names assigned) : answer act = a := by
  obtain ⟨uses, ran⟩ := runs [] [] [] Uses.none rfl
  exact congrArg Prod.fst ran

inductive StateDecl
  | param (p : Param)
  | hoisted (d : VarDecl) (name : Name) (i : Nat)

namespace StateDecl

def name : StateDecl → String
  | param p => p.name.value
  | hoisted _ name _ => name.value

/-- How methods of the component reach what is declared here. -/
def access (c : Component) : StateDecl → String
  | param p => paramAccess c p
  | hoisted _ name _ => "c." ++ name.value

def type? : StateDecl → Option TypeExpr
  | param p => some p.ty.value
  | hoisted d _ i => match d.ty with
    | some t => some t.value
    | none => d.values[i]? >>= inferExpr?

def watched (c : Component) : StateDecl → Bool
  | param _ => true
  | hoisted _ name _ => c.body.received.contains name.value

def channel? (c : Component) : StateDecl → Option ChannelProp
  | param p => p.ty.value.chanElem?.map fun elem => ⟨p.name.value, paramAccess c p, elem⟩
  | hoisted d name i => hoistedChannel? c.body.received d name i

def fieldType (runtime : String) : StateDecl → String
  | param p => if p.variadic then "[]" ++ (type runtime p.ty.value).1 else (type runtime p.ty.value).1
  | hoisted d _ i => match Lower.hoistedType? d i with
    | some ty => (type runtime ty).1
    | none => "any"

def row (runtime : String) (c : Component) : StateDecl → String × String
  | param p => (if c.autoProps then exported p.name.value else p.name.value, fieldType runtime (param p))
  | hoisted d name i => (name.value, fieldType runtime (hoisted d name i))

def KeepsType : StateDecl → Prop
  | param p => p.variadic = false
  | hoisted d _ _ => d.ty.isSome = true ∨ d.values.length = d.names.length

end StateDecl

def paramDecls (c : Component) : List StateDecl := c.params.map .param

def hoistedDecls (c : Component) : List StateDecl :=
  c.body.vars.flatMap fun d => d.names.zipIdx.map fun (name, i) => .hoisted d name i

def stateDecls (c : Component) : List StateDecl := paramDecls c ++ hoistedDecls c

theorem channelProps_eq (c : Component) : channelProps c = (stateDecls c).filterMap (·.channel? c) := by
  rw [channelProps, stateDecls, List.filterMap_append, paramDecls, hoistedDecls, List.filterMap_map,
    List.filterMap_flatMap, hoistedChannels]
  simp only [List.filterMap_map]
  rfl

theorem chanElem?_eq_some {ty elem : TypeExpr} : ty.chanElem? = some elem ↔ ∃ recvOnly, ty = .chan recvOnly elem := by
  cases ty <;> simp [TypeExpr.chanElem?, eq_comm]

theorem StateDecl.channel?_eq (c : Component) (decl : StateDecl) :
    decl.channel? c = if decl.watched c then
      (decl.type? >>= TypeExpr.chanElem?).map fun elem => ⟨decl.name, decl.access c, elem⟩ else none := by
  cases decl <;> rfl

/-- The last value of a declared name is kept exactly if the name is watched and its type is a channel. -/
theorem StateDecl.channel?_eq_some {c : Component} {decl : StateDecl} {ch : ChannelProp} :
    decl.channel? c = some ch ↔
      decl.watched c = true ∧ (∃ recvOnly, decl.type? = some (.chan recvOnly ch.elem)) ∧
        ch.name = decl.name ∧ ch.access = decl.access c := by
  obtain ⟨name, access, elem⟩ := ch
  rw [channel?_eq, Option.ite_none_right_eq_some, Option.map_eq_some_iff]
  simp only [Option.bind_eq_bind, Option.bind_eq_some_iff, chanElem?_eq_some, ChannelProp.mk.injEq]
  refine and_congr_right fun _ => ⟨?_, ?_⟩
  · rintro ⟨elem, ⟨_, typed, recvOnly, rfl⟩, named, reached, rfl⟩
    exact ⟨⟨recvOnly, typed⟩, named.symm, reached.symm⟩
  · rintro ⟨⟨recvOnly, typed⟩, named, reached⟩
    exact ⟨elem, ⟨_, typed, recvOnly, rfl⟩, named.symm, reached.symm, rfl⟩

theorem mem_channelProps {c : Component} {ch : ChannelProp} :
    ch ∈ channelProps c ↔ ∃ decl ∈ stateDecls c, decl.channel? c = some ch := by
  rw [channelProps_eq, List.mem_filterMap]

def ChannelProp.row (runtime : String) (ch : ChannelProp) : String × String := (ch.field, (type runtime ch.elem).1)

def propsRow (c : Component) : List (String × String) :=
  if c.params.isEmpty then [] else [("props", c.name.value ++ "Props")]

def quitRow (channels : List ChannelProp) : List (String × String) :=
  if channels.isEmpty then [] else [("quit", "chan struct\x7b\x7d")]

section

variable {locals : Locals} {env : Env} {c : Component}

theorem paramType_runs (p : Param) :
    Runs (Lower.paramType env p) locals (StateDecl.fieldType env.runtime (.param p)) [] false := (type_runs _).map _

theorem paramRows_runs (name : String → String) (ps : List Param) :
    Runs (Lower.paramRows env name ps) locals
      (ps.map fun p => (name p.name.value, StateDecl.fieldType env.runtime (.param p))) [] false := by
  induction ps with
  | nil => exact .pure []
  | cons p ps ih => exact (paramType_runs p).bind (ih.map _)

theorem hoistedRows_runs (d : VarDecl) (names : List (Name × Nat)) :
    Runs (Lower.hoistedRows env d names) locals
      (names.map fun (name, i) => (name.value, StateDecl.fieldType env.runtime (.hoisted d name i))) [] false := by
  induction names with
  | nil => exact .pure []
  | cons entry names ih =>
    obtain ⟨name, i⟩ := entry
    simp only [Lower.hoistedRows, List.map_cons, StateDecl.fieldType]
    cases Lower.hoistedType? d i with
    | none => exact Runs.bind (.pure "any") (ih.map _)
    | some ty => exact (type_runs ty).bind (ih.map _)

theorem varRows_runs (ds : List VarDecl) :
    Runs (Lower.varRows env ds) locals (ds.flatMap fun d => d.names.zipIdx.map fun (name, i) =>
      (name.value, StateDecl.fieldType env.runtime (.hoisted d name i))) [] false := by
  induction ds with
  | nil => exact .pure []
  | cons d ds ih =>
    rw [List.flatMap_cons]
    exact (hoistedRows_runs d _).bind (ih.map _)

theorem latestRows_runs (chs : List ChannelProp) :
    Runs (Lower.latestRows env chs) locals (chs.map (·.row env.runtime)) [] false := by
  induction chs with
  | nil => exact .pure []
  | cons ch chs ih => exact (type_runs ch.elem).bind (ih.map _)

theorem hoistedDecls_rows :
    Runs (Lower.varRows env c.body.vars) locals ((hoistedDecls c).map (·.row env.runtime c)) [] false := by
  rw [hoistedDecls, List.map_flatMap]
  simp only [List.map_map]
  exact varRows_runs c.body.vars

theorem paramDecls_rows :
    Runs (Lower.paramRows env (if c.autoProps then exported else id) c.params) locals
      ((paramDecls c).map (·.row env.runtime c)) [] false := by
  have naming : (paramDecls c).map (·.row env.runtime c) = c.params.map fun p =>
      ((if c.autoProps then exported else id) p.name.value, StateDecl.fieldType env.runtime (.param p)) := by
    rw [paramDecls, List.map_map]
    refine List.map_congr_left fun p _ => ?_
    rw [Function.comp_apply, StateDecl.row]
    cases c.autoProps <;> rfl
  rw [naming]
  exact paramRows_runs _ c.params

/-- A struct has a field for each declaration, one for each mirrored channel, and `quit` if there is such a channel.
Parameters have their fields in the props struct if there is one. -/
theorem structRows_runs :
    Runs (Lower.structRows env c) locals
      ((if c.autoProps then propsRow c else (paramDecls c).map (·.row env.runtime c)) ++
        (hoistedDecls c).map (·.row env.runtime c) ++ (channelProps c).map (·.row env.runtime) ++
          quitRow (channelProps c)) [] false := by
  have params : Runs (Lower.paramRows env _ c.params) locals _ [] false := paramDecls_rows
  rw [Lower.structRows]
  cases gathered : c.autoProps with
  | true => exact Runs.bind (.pure (propsRow c)) (hoistedDecls_rows.bind ((latestRows_runs _).map _))
  | false =>
    rw [gathered] at params
    exact params.bind (hoistedDecls_rows.bind ((latestRows_runs _).map _))

end

def listener (access latest elem : String) : Doc :=
  [.text 0 ("if " ++ access ++ " != nil \x7b"),
    .text 1 ("go func(ch <-chan " ++ elem ++ ", quit <-chan struct\x7b\x7d) \x7b"),
    .text 2 "for \x7b",
    .text 3 "select \x7b",
    .text 3 "case v, ok := <-ch:",
    .text 4 "if !ok \x7b",
    .text 5 "return",
    .text 4 "\x7d",
    .text 4 (latest ++ " = v"),
    .text 4 "c.Update()",
    .text 3 "case <-quit:",
    .text 4 "return",
    .text 3 "\x7d",
    .text 2 "\x7d",
    .text 1 ("\x7d(" ++ access ++ ", c.quit)"),
    .text 0 "\x7d"]

def ChannelProp.listener (runtime : String) (ch : ChannelProp) : Doc :=
  Go.listener ch.access ch.latest (type runtime ch.elem).1

section

variable {locals : Locals} {env : Env}

theorem listenerDoc_runs (ch : ChannelProp) :
    Runs (Lower.listenerDoc env ch) locals (ch.listener env.runtime) [] false := (type_runs ch.elem).map _

theorem listenerDocs_runs (chs : List ChannelProp) :
    Runs (Lower.listenerDocs env chs) locals (chs.flatMap (·.listener env.runtime)) [] false := by
  induction chs with
  | nil => exact .pure []
  | cons ch chs ih =>
    rw [List.flatMap_cons]
    exact (listenerDoc_runs ch).bind (ih.map _)

/-- `Mount` makes `quit` and starts a listener for each mirrored channel; without such channels it does nothing. -/
theorem mountDoc_runs (c : Component) :
    Runs (Lower.mountDoc env c) locals
      (Doc.line ("// Mount starts listening on the channel props of " ++ c.name.value ++ ".") ++
        (if (channelProps c).isEmpty then Doc.line ("func (c *" ++ c.name.value ++ ") Mount() \x7b\x7d")
          else Doc.block ("func (c *" ++ c.name.value ++ ") Mount() \x7b")
            (Doc.line "c.quit = make(chan struct\x7b\x7d)" ++ (channelProps c).flatMap (·.listener env.runtime))
            "\x7d") ++
        Doc.blank) [] false := (listenerDocs_runs _).map _

end

theorem listener_in_mount {c : Component} {ch : ChannelProp} (env : Env) (member : ch ∈ channelProps c) :
    Doc.indent (ch.listener env.runtime) <:+: answer (Lower.mountDoc env c) := by
  have mirrored : ¬ (channelProps c).isEmpty = true := by
    rw [Bool.not_eq_true, List.isEmpty_eq_false_iff_exists_mem]
    exact ⟨ch, member⟩
  have among : ch.listener env.runtime <:+: (channelProps c).flatMap (·.listener env.runtime) := by
    obtain ⟨before, behind, split⟩ := List.append_of_mem member
    rw [split, List.flatMap_append, List.flatMap_cons, ← List.append_assoc]
    exact List.infix_append _ _ _
  rw [(mountDoc_runs c).answer, if_neg mirrored, Doc.block]
  exact ((among.trans (List.suffix_append _ _).isInfix).map _).trans
    ((List.infix_append _ _ _).trans (List.infix_append _ _ _))

def IsChannelOf (elem ty : String) : Prop := ty = "chan " ++ elem ∨ ty = "<-chan " ++ elem

instance (elem ty : String) : Decidable (IsChannelOf elem ty) := inferInstanceAs (Decidable (_ ∨ _))

theorem type_chan_isChannel (runtime : String) (recvOnly : Bool) (elem : TypeExpr) :
    IsChannelOf (type runtime elem).1 (type runtime (.chan recvOnly elem)).1 := by
  rw [type]
  cases recvOnly with
  | true => exact .inr rfl
  | false => exact .inl rfl

theorem slice_not_channel (elem ty : String) : ¬ IsChannelOf elem ("[]" ++ ty) := by
  rintro (same | same)
  all_goals
    have chars := congrArg String.toList same
    simp at chars

theorem any_not_channel (elem : String) : ¬ IsChannelOf elem "any" := by
  rintro (same | same)
  all_goals
    have chars := congrArg String.toList same
    simp at chars

/-- A field for what is declared with a channel type has that type unless it has to hold several channels, or the
values of its declaration do not match the names. -/
theorem StateDecl.fieldType_isChannel {decl : StateDecl} {recvOnly : Bool} {elem : TypeExpr} (runtime : String)
    (typed : decl.type? = some (.chan recvOnly elem)) :
    IsChannelOf (type runtime elem).1 (decl.fieldType runtime) ↔ decl.KeepsType := by
  have channel := type_chan_isChannel runtime recvOnly elem
  cases decl with
  | param p =>
    obtain typed : p.ty.value = .chan recvOnly elem := Option.some.inj typed
    rw [fieldType, KeepsType, typed]
    cases p.variadic with
    | true => simp [slice_not_channel]
    | false => simp [channel]
  | hoisted d name i =>
    rw [fieldType, KeepsType, Lower.hoistedType?]
    rw [type?] at typed
    cases declared : d.ty with
    | some ty =>
      rw [declared] at typed
      obtain typed : ty.value = .chan recvOnly elem := Option.some.inj typed
      simp [typed, channel]
    | none =>
      rw [declared] at typed
      dsimp only at typed
      by_cases matching : d.values.length = d.names.length
      · simp [matching, typed, channel]
      · simp [matching, any_not_channel]

/-- The field that a text reaches, with its type: a field of the component's own struct, or of its props struct. -/
inductive Reaches (env : Env) (c : Component) (access : String) (row : String × String) : Prop
  | own (reached : access = "c." ++ row.1) (declared : row ∈ answer (Lower.structRows env c))
  | prop (reached : access = "c.props." ++ row.1)
      (gathered : ("props", c.name.value ++ "Props") ∈ answer (Lower.structRows env c))
      (declared : row ∈ answer (Lower.paramRows env exported c.params))

theorem reaches_declared {c : Component} {decl : StateDecl} (env : Env) (member : decl ∈ stateDecls c) :
    Reaches env c (decl.access c) (decl.row env.runtime c) := by
  have own : answer (Lower.structRows env c) = _ := structRows_runs.answer
  rcases List.mem_append.mp member with param | hoisted
  · obtain ⟨p, inside, rfl⟩ := List.mem_map.mp param
    rw [StateDecl.access, paramAccess]
    cases gathered : c.autoProps with
    | true =>
      have props : answer (Lower.paramRows env (if c.autoProps then exported else id) c.params) = _ :=
        paramDecls_rows.answer
      have given : ¬ c.params.isEmpty = true := by
        rw [Bool.not_eq_true, List.isEmpty_eq_false_iff_exists_mem]
        exact ⟨p, inside⟩
      rw [gathered] at props own
      refine .prop ?_ ?_ ?_
      · rw [StateDecl.row, gathered]
        rfl
      · rw [own, propsRow, if_neg given]
        exact List.mem_cons_self
      · rw [if_pos rfl] at props
        rw [props]
        exact List.mem_map_of_mem param
    | false =>
      rw [gathered] at own
      refine .own ?_ ?_
      · rw [StateDecl.row, gathered]
        rfl
      · rw [own]
        simp only [Bool.false_eq_true, if_false, List.append_assoc]
        exact List.mem_append_left _ (List.mem_map_of_mem param)
  · refine .own ?_ ?_
    · obtain ⟨d, _, named⟩ := List.mem_flatMap.mp hoisted
      obtain ⟨entry, _, rfl⟩ := List.mem_map.mp named
      rfl
    · rw [own]
      simp only [List.append_assoc]
      exact List.mem_append_right _ (List.mem_append_left _ (List.mem_map_of_mem hoisted))

theorem mirror_declared {c : Component} {ch : ChannelProp} (env : Env) (member : ch ∈ channelProps c) :
    ch.row env.runtime ∈ answer (Lower.structRows env c) := by
  rw [structRows_runs.answer]
  exact List.mem_append_left _ (List.mem_append_right _ (List.mem_map_of_mem member))

/-- For every declaration whose last value is kept: its listener in `Mount` takes values of the type of the mirror
field. The field that it reads is a channel of that type exactly if the declaration keeps its type, which a variadic
parameter does not, nor a declaration without a type whose values do not match its names. -/
theorem channel_fields_typed_iff (runtime : String) (u : SourceUnit) (c : Component) :
    let env := plainEnv runtime u
    channelProps c = (stateDecls c).filterMap (·.channel? c) ∧
    ∀ decl ∈ stateDecls c, ∀ ch, decl.channel? c = some ch →
      let elem := (type runtime ch.elem).1
      let row := decl.row runtime c
      (ch.field, elem) ∈ answer (Lower.structRows env c) ∧
      Doc.indent (listener ch.access ("c." ++ ch.field) elem) <:+: answer (Lower.mountDoc env c) ∧
      Reaches env c ch.access row ∧
      (IsChannelOf elem row.2 ↔ decl.KeepsType) := by
  intro env
  refine ⟨channelProps_eq c, fun decl declared ch kept => ?_⟩
  have member : ch ∈ channelProps c := mem_channelProps.mpr ⟨decl, declared, kept⟩
  obtain ⟨_, ⟨recvOnly, typed⟩, _, reached⟩ := StateDecl.channel?_eq_some.mp kept
  refine ⟨mirror_declared env member, listener_in_mount env member, ?_, ?_⟩
  · rw [reached]
    exact reaches_declared env declared
  · have shown : (decl.row runtime c).2 = decl.fieldType runtime := by cases decl <;> rfl
    rw [shown]
    exact decl.fieldType_isChannel runtime typed

/-- A board with a variadic channel parameter, and two variables with one channel for a value: `feeds ...chan int`,
`var ticks, spare = make(chan int)`. -/
def feedBoard : Component where
  name := ⟨"Board", .none⟩
  params := [⟨⟨"feeds", .none⟩, ⟨.chan false (.named "int"), .none⟩, true⟩]
  results := [⟨.named "Node", .none⟩]
  body := ⟨[⟨[⟨"ticks", .none⟩, ⟨"spare", .none⟩], none,
      [.single (.make ⟨.chan false (.named "int"), .none⟩ [] .none)], .none⟩], [],
    [.template ⟨[.interp (.single (.receive ⟨"ticks", .none⟩ .none))], .none⟩]⟩
  autoProps := false
  span := .none

theorem channel_fields_typed_iff_board :
    let env := plainEnv "rt" ⟨⟨"main", .none⟩, [], [], [feedBoard], [], [], []⟩
    let feeds := StateDecl.param ⟨⟨"feeds", .none⟩, ⟨.chan false (.named "int"), .none⟩, true⟩
    feeds ∈ stateDecls feedBoard ∧ feeds.channel? feedBoard = some ⟨"feeds", "c.feeds", .named "int"⟩ ∧
      Reaches env feedBoard "c.feeds" ("feeds", "[]chan int") ∧
      (IsChannelOf "int" "[]chan int" ↔ feeds.KeepsType) := by
  intro env feeds
  have declared : feeds ∈ stateDecls feedBoard := .head _
  have kept : feeds.channel? feedBoard = some ⟨"feeds", "c.feeds", .named "int"⟩ := rfl
  obtain ⟨_, _, reached, typed⟩ := (channel_fields_typed_iff "rt" _ feedBoard).2 feeds declared _ kept
  exact ⟨declared, kept, reached, typed⟩

/-- The listeners of the board read fields that are no channels. -/
theorem board_fields_untyped :
    (channelProps feedBoard).map (fun ch => (ch.access, ch.elem.render)) = [("c.feeds", "int"), ("c.ticks", "int")] ∧
    answer (Lower.structRows (plainEnv "rt" ⟨⟨"main", .none⟩, [], [], [feedBoard], [], [], []⟩) feedBoard) =
      [("feeds", "[]chan int"), ("ticks", "any"), ("spare", "any"), ("feedsValue", "int"), ("ticksValue", "int"),
        ("quit", "chan struct\x7b\x7d")] ∧
    ¬ IsChannelOf "int" "[]chan int" ∧ ¬ IsChannelOf "int" "any" := by
  decide +kernel

end ViewLang.Go
