import ViewLang.Proofs.Grammar.PlacedStatements
import ViewLang.Proofs.Grammar.Termination
import ViewLang.Proofs.Success

namespace ViewLang

open Places

theorem Node.extent (n : Node) : n.places.extent? = some n.span := by
  cases n with
  | element e =>
    cases e
    rw [Node.places, Element.places]
    rfl
  | text t =>
    rw [Node.places]
    rfl
  | template t =>
    rw [Node.places]
    exact t.extent
  | cond c =>
    cases c
    rw [Node.places, NodeIf.places]
    rfl
  | loop l =>
    cases l
    rw [Node.places, NodeFor.places]
    rfl

namespace Grammar

open Reader

variable {source : List Char}

section

variable {inner : Reader Node} (placing : Placing source inner Node.places)

include placing

theorem placing_nodeBlock : Placing source (nodeBlock inner) fun x => part x.2 (row (x.1.map Node.places)) := by
  intro lo
  refine (puts_expect _ _).bind ?_
  rintro start _ le ⟨rfl, low, less, -⟩
  refine (placing.items _ fun _ => puts_dropWhile _).bind ?_
  rintro ⟨nodes, close⟩ hi le' closes
  exact .pure (closes.part low less (Nat.le_refl _))

omit placing in
/-- The arguments of an element stand behind its tag, and the range grows by them. -/
theorem puts_elementArgs {tag : Span} (proper : Proper source tag) {lo : Nat} (le : tag.stop ≤ lo) :
    Puts source lo (elementArgs tag) fun x hi => x.2.start = tag.start ∧ tag.stop ≤ x.2.stop ∧ x.2.stop ≤ hi ∧
      x.2.stop ≤ byteLength source ∧ Lies source tag.stop x.2.stop (row (x.1.map Entry.places)) := by
  obtain ⟨less, within⟩ := proper
  refine (puts_eat _).bind ?_
  rintro (_ | s) m le' _
  · exact .pure ⟨rfl, Nat.le_refl _, Nat.le_trans le le', within, trivial⟩
  · have listed : Placing source (nested entry) Entry.places := fun lo =>
      puts_nested fun rules => placing_entry rules lo
    refine (listed.commaList _ _).bind ?_
    rintro ⟨args, close⟩ _ le₂ ⟨⟨rfl, low, less', within'⟩, inside⟩
    dsimp only at *
    rw [Span.union_eq (by omega) (by omega)]
    exact .pure ⟨rfl, by dsimp only; omega, Nat.le_refl _, within', inside.mono (by omega) (by dsimp only; omega)⟩

theorem placing_element : Placing source (element inner) Element.places := by
  intro lo
  refine (placing_ident lo).bind fun tag m₁ le₁ named => ?_
  obtain ⟨start, stop, ⟨less, within⟩, tight⟩ := named.within rfl
  refine (puts_elementArgs ⟨less, within⟩ stop).bind ?_
  rintro ⟨args, span⟩ m₂ le₂ ⟨begins, further, bounded, within₂, listed⟩
  refine (puts_at _).bind fun opens m₃ le₃ _ => ?_
  dsimp only at *
  split
  · refine (placing_nodeBlock placing m₃).bind ?_
    rintro ⟨children, extent⟩ m₄ le₄ ⟨start₄, stop₄, ⟨less₄, within₄⟩, inside⟩
    refine .pure ?_
    rw [Element.places, Node.each_eq]
    refine lies_part (by omega) stop₄ (by omega) (by omega) (by omega) within₄ ?_
    rw [begins]
    exact tight.next (by omega) (by omega) (listed.next further (by omega) (inside.lower (by omega)))
  · refine .pure ?_
    rw [Element.places, Node.each_eq]
    refine ⟨by omega, by omega, ⟨by omega, within₂⟩, ?_⟩
    rw [begins]
    exact tight.next (by omega) further (listed.next further (Nat.le_refl _) trivial)

theorem placing_nodeIf : Placing source (nodeIf inner) NodeIf.places := by
  intro lo
  refine (puts_expect _ _).bind ?_
  rintro start _ le ⟨rfl, low, less, -⟩
  have condition : Placing source (expr false) Expr.places := fun lo => puts_nested fun rules =>
    placing_exprWith rules false lo
  refine (condition _).bind fun cond m₁ le₁ conds => (placing_nodeBlock placing m₁).bind ?_
  rintro ⟨body, extent⟩ m₂ le₂ ⟨start₂, stop₂, ⟨less₂, within₂⟩, inside⟩
  dsimp only at *
  have first : start.union extent = ⟨start.start, extent.stop⟩ := Span.union_eq (by omega) (by omega)
  have reach : start.start < extent.stop := by omega
  have whole (otherwise : Places) {hi : Nat} (le : extent.stop ≤ hi) (lies : Lies source extent.stop hi otherwise) :
      Lies source start.start hi (next cond.places (next (row (body.map Node.places)) otherwise)) :=
    (conds.lower (Nat.le_of_lt less)).next (by omega) (by omega)
      ((inside.lower start₂).next (by omega) le lies)
  rw [first]
  refine (puts_eat _).bind ?_
  rintro (_ | s) m₃ le₃ _
  · refine .pure ?_
    rw [NodeIf.places, Node.each_eq]
    refine ⟨low, by dsimp only; omega, ⟨reach, within₂⟩, whole _ (Nat.le_refl _) ?_⟩
    rw [Node.each_eq]
    trivial
  · refine (puts_at _).bind fun chained m₄ le₄ _ => ?_
    split
    · refine (placing m₄).bind fun node m₅ le₅ lies => .pure ?_
      obtain ⟨start₅, stop₅, ⟨less₅, within₅⟩, tight₅⟩ := lies.within node.extent
      rw [NodeIf.places, Node.each_eq, Node.each_eq]
      refine lies_part low stop₅ reach (by dsimp only; omega) (by dsimp only; omega) within₅ ?_
      exact whole _ (by omega) (lies_row_single (tight₅.lower (by omega)) (by omega))
    · refine (placing_nodeBlock placing m₄).bind ?_
      rintro ⟨otherwise, extent'⟩ m₅ le₅ ⟨start₅, stop₅, ⟨less₅, within₅⟩, inside₅⟩
      refine .pure ?_
      dsimp only at *
      rw [NodeIf.places, Node.each_eq, Node.each_eq]
      refine lies_part low stop₅ reach (by dsimp only; omega) (by dsimp only; omega) within₅ ?_
      exact whole _ (by omega) (inside₅.lower (by omega))

theorem placing_nodeFor : Placing source (nodeFor inner) NodeFor.places := by
  intro lo
  refine (puts_expect _ _).bind ?_
  rintro start _ le ⟨rfl, low, less, -⟩
  refine (puts_nested fun rules => puts_rangeClause rules _).bind ?_
  rintro (_ | ⟨key, value, iterable⟩) m₁ le₁ ranged
  · exact puts_fail _
  · refine (placing_nodeBlock placing m₁).bind ?_
    rintro ⟨children, extent⟩ m₂ le₂ ⟨start₂, stop₂, ⟨less₂, within₂⟩, inside⟩
    refine .pure ?_
    have header := ranged _ rfl
    rw [LoopHeader.places] at header
    obtain ⟨m₃, low₃, high₃, keyed, m₄, low₄, high₄, valued, iterated⟩ := header
    rw [NodeFor.places, Node.each_eq]
    dsimp only at *
    refine lies_part low stop₂ less (by omega) (by omega) within₂ ?_
    refine (keyed.lower (by omega)).next (by omega) (by omega) (valued.next low₄ (by omega) ?_)
    exact iterated.next high₄ (by omega) (inside.lower start₂)

theorem placing_nodeStep : Placing source (nodeStep inner) Node.places := by
  intro lo
  refine puts_peek.bind fun first m le _ => ?_
  split
  · refine .map ((placing_stringLiteral m).imp fun t hi _ lies => ?_)
    rw [Node.places]
    exact lies.lower le
  · refine .map ((puts_nested fun rules => placing_templateWith rules m).imp fun t hi _ lies => ?_)
    rw [Node.places]
    exact lies.lower le
  · refine .map ((placing_nodeIf placing m).imp fun t hi _ lies => ?_)
    rw [Node.places]
    exact lies.lower le
  · refine .map ((placing_nodeFor placing m).imp fun t hi _ lies => ?_)
    rw [Node.places]
    exact lies.lower le
  · refine .map ((placing_element placing m).imp fun t hi _ lies => ?_)
    rw [Node.places]
    exact lies.lower le
  · exact puts_fail _

end

theorem placing_node : Placing source node Node.places := by
  refine fun lo => .sized fun n => ?_
  generalize n + 1 = n
  induction n generalizing lo with
  | zero => exact puts_fail _
  | succ n ih => exact placing_nodeStep ih lo

def BodyItem.places : BodyItem → Places
  | .var d => d.places
  | .stmt s => s.places
  | .node n => n.places

theorem foldl_addTo (list : List BodyItem) (b : Body) : list.foldl BodyItem.addTo b =
    ⟨b.vars ++ list.filterMap (fun | .var d => some d | _ => none),
      b.stmts ++ list.filterMap (fun | .stmt s => some s | _ => none),
      b.nodes ++ list.filterMap (fun | .node n => some n | _ => none)⟩ := by
  induction list generalizing b with
  | nil => simp
  | cons item list ih =>
    rw [List.foldl_cons, ih]
    cases item <;> simp [BodyItem.addTo]

/-- Items of one kind, in a row of items of all kinds. -/
theorem filterMap_sublist {α β : Type} {pick : α → Option β} {view : α → Places} {places : β → Places}
    (same : ∀ a b, pick a = some b → places b = view a) (list : List α) :
    ((list.filterMap pick).map places).Sublist (list.map view) := by
  induction list with
  | nil => exact .slnil
  | cons a list ih =>
    cases picked : pick a with
    | none =>
      rw [List.filterMap_cons_none picked, List.map_cons]
      exact ih.cons _
    | some b =>
      rw [List.filterMap_cons_some picked, List.map_cons, List.map_cons, same a b picked]
      exact ih.cons_cons _

theorem body_lies {list : List BodyItem} {lo hi : Nat} (lies : Lies source lo hi (row (list.map BodyItem.places))) :
    Lies source lo hi (list.foldl BodyItem.addTo Body.empty).places := by
  rw [foldl_addTo, Body.places, lies_bag]
  intro x member
  simp only [Body.empty, List.nil_append, List.mem_cons, List.not_mem_nil, or_false] at member
  rcases member with rfl | rfl | rfl
  all_goals
    refine lies.sublist (filterMap_sublist ?_ list)
    intro a b picked
    cases a <;> cases picked
    rfl

theorem placing_stmtOrNode : Placing source stmtOrNode BodyItem.places := by
  have stmts : Placing source statement Stmt.places := fun lo => puts_nested fun rules => placing_statementWith rules lo
  intro lo ts ahead item rest read
  unfold stmtOrNode at read
  split at read
  · cases read
    exact stmts lo ts ahead _ _ ‹_›
  · split at read
    · split at read
      · cases read
      · cases read
        exact placing_node lo ts ahead _ _ ‹_›
    · split at read <;> cases read

theorem placing_bodyItem : Placing source bodyItem BodyItem.places := by
  intro lo
  refine (puts_at _).bind fun var m le _ => ?_
  split
  · exact .map ((puts_nested fun rules => placing_varDecl rules m).imp fun d hi _ lies => lies.lower le)
  · exact (placing_stmtOrNode m).imp fun item hi _ lies => lies.lower le

theorem placing_componentBody : Placing source componentBody fun x => part x.2 x.1.places := by
  intro lo
  refine (puts_expect _ _).bind ?_
  rintro start _ le ⟨rfl, low, less, -⟩
  refine (placing_bodyItem.items _ fun _ => puts_dropWhile _).bind ?_
  rintro ⟨list, close⟩ hi le' ⟨taken, inside⟩
  exact .pure (Closes.part ⟨taken, body_lies inside⟩ low less (Nat.le_refl _))

/-- A declaration whose decorators are read. Every token left ends behind its first one. -/
structure Begun (source : List Char) (start : Span) (decorators : List Decorator) (lo : Nat) (ts : Tokens) : Prop where
  ahead : Ahead source lo ts
  less : start.start < start.stop
  low : start.start ≤ lo
  late : ∀ t ∈ ts, start.stop ≤ t.span.stop
  decorated : Lies source start.start lo (decoratorPlaces decorators)

/-- Behind the keyword, what is read lies behind the first token of the declaration. -/
theorem PutsAt.keyword {β : Type} {start : Span} {decorators : List Decorator} {lo : Nat} {ts : Tokens} {t : Token}
    {what : String} {f : Span → Reader β} {post : β → Nat → Prop} (begun : Begun source start decorators lo ts)
    (next : ∀ s m, lo ≤ m → start.stop ≤ m → Puts source m (f s) post) :
    PutsAt source lo ts (expect t what >>= f) post := by
  refine (putsAt_expect t what begun.ahead).bind ?_
  rintro _ _ le ⟨⟨rfl, -, -⟩, u, member, rfl⟩
  exact next _ _ le (begun.late u member)

theorem putsAt_component {start : Span} {decorators : List Decorator} {lo : Nat} {ts : Tokens} (autoProps : Bool)
    (begun : Begun source start decorators lo ts) :
    PutsAt source lo ts (component autoProps start) fun c hi => Lies source start.start hi c.places := by
  have less := begun.less
  have low := begun.low
  refine .keyword begun fun _ m le further => .within ?_
  refine (placing_ident m).bind fun name m₁ le₁ named => (placing_plainParams m₁).bind fun params m₂ le₂ listed =>
    (placing_resultList m₂).bind fun results m₃ le₃ typed => (placing_componentBody m₃).bind ?_
  rintro ⟨body, extent⟩ m₄ le₄ ⟨start₄, stop₄, ⟨less₄, within₄⟩, inside⟩
  refine .pure ?_
  dsimp only at *
  refine lies_part (Nat.le_refl _) stop₄ less (by omega) (by omega) within₄ ?_
  refine (named.lower (by omega)).next (by omega) (by omega) (listed.next le₂ (by omega) ?_)
  exact typed.next le₃ (by omega) (inside.lower start₄)

theorem placing_decorator : Placing source decorator Decorator.places := by
  intro lo
  refine (puts_expect _ _).bind ?_
  rintro start _ le ⟨rfl, low, less, -⟩
  refine .within ((placing_ident _).bind fun name m₁ le₁ named => ?_)
  obtain ⟨start₁, stop₁, ⟨less₁, within₁⟩, tight⟩ := named.within rfl
  have first : start.union name.span = ⟨start.start, name.span.stop⟩ := Span.union_eq (by omega) (by omega)
  have reach : start.start < name.span.stop := by omega
  dsimp only
  rw [first]
  refine (puts_eat _).bind ?_
  rintro (_ | s) m₂ le₂ _
  · refine .pure ⟨low, by dsimp only; omega, ⟨reach, within₁⟩, ?_⟩
    dsimp only
    exact (tight.lower (by omega)).next (by omega) (Nat.le_refl _) trivial
  · refine (puts_nested fun rules => puts_callArgs rules m₂).bind ?_
    rintro ⟨args, close⟩ _ le₃ ⟨⟨rfl, low₃, less₃, within₃⟩, inside⟩
    refine .pure ?_
    dsimp only at *
    refine lies_part low (Nat.le_refl _) reach (by dsimp only; omega) (by dsimp only; omega) within₃ ?_
    exact (tight.lower (by dsimp only; omega)).next (by dsimp only; omega) (by omega)
      (inside.mono (by omega) (by omega))

theorem placing_decoratorList : Placing source decoratorList decoratorPlaces := by
  refine fun lo => .whileSome fun lo => (puts_at _).bind fun more m le _ => ?_
  split
  · refine .map ((placing_decorator m).imp ?_)
    rintro d hi _ lies _ ⟨⟩
    exact lies.lower le
  · exact .pure nofun

theorem placing_fieldGroup (decorated : Bool) :
    Placing source (fieldGroup decorated) fun fs => bag (fs.map GpuField.places) := by
  intro lo
  refine (puts_at _).bind fun stop m le _ => ?_
  split
  · exact puts_fail _
  · refine (placing_decoratorList m).bind fun decorators m₁ le₁ before => (placing_identList m₁).bind
      fun names m₂ le₂ named => (placing_type m₂).bind fun ty m₃ le₃ typed => .pure ?_
    rw [lies_bag, List.map_map]
    intro x found
    obtain ⟨name, member, rfl⟩ := List.mem_map.mp found
    have word := named.of_mem_row (List.mem_map.mpr ⟨name, member, rfl⟩)
    refine ⟨before.mono le (by omega), word.mono (by omega) le₃, typed.lower (by omega), trivial⟩

theorem puts_structFields (decorated : Bool) (lo : Nat) : Puts source lo (structFields decorated) fun x hi =>
    Closes source lo (bag (x.1.map GpuField.places)) x.2 hi := by
  refine (puts_expect _ _).bind fun _ m le _ =>
    ((placing_fieldGroup decorated).items _ fun _ => puts_dropWhile _).bind ?_
  rintro ⟨groups, close⟩ _ le' ⟨⟨rfl, low, proper⟩, inside⟩
  refine .pure ⟨⟨rfl, Nat.le_trans le low, proper⟩, ?_⟩
  rw [lies_bag]
  intro x found
  obtain ⟨field, member, rfl⟩ := List.mem_map.mp found
  obtain ⟨group, listed, member⟩ := List.mem_flatten.mp member
  have grouped := inside.of_mem_row (List.mem_map.mpr ⟨group, listed, rfl⟩)
  exact (lies_bag.mp grouped _ (List.mem_map.mpr ⟨field, member, rfl⟩)).lower le

def Decl.places : Decl → Places
  | .type d => d.places
  | .component c => c.places
  | .gpuStruct s => s.places
  | .gpuBinding b => b.places
  | .gpuFunction f => f.places

theorem putsAt_structDecl {start : Span} {decorators : List Decorator} {lo : Nat} {ts : Tokens}
    (begun : Begun source start decorators lo ts) :
    PutsAt source lo ts (structDecl decorators start) fun d hi => Lies source start.start hi d.places := by
  have less := begun.less
  have low := begun.low
  have decorated := begun.decorated
  refine .keyword begun fun _ m le further => .within ?_
  refine (placing_ident m).bind fun name m₁ le₁ named => (puts_expect _ _).bind fun _ m₂ le₂ _ =>
    (puts_structFields _ m₂).bind ?_
  rintro ⟨fields, close⟩ _ le₃ ⟨⟨rfl, low₃, less₃, within₃⟩, inside⟩
  dsimp only at *
  split
  · refine .pure (lies_part (Nat.le_refl _) (Nat.le_refl _) less (by omega) (by omega) within₃ ?_)
    refine (named.lower (by omega)).next (by omega) (by omega) ?_
    rw [List.map_map, lies_bag]
    intro x found
    obtain ⟨field, member, rfl⟩ := List.mem_map.mp found
    obtain ⟨-, word, ty, -⟩ := lies_bag.mp inside _ (List.mem_map.mpr ⟨field, member, rfl⟩)
    exact ⟨word.mono (by omega) (by omega), ty.mono (by omega) (by omega)⟩
  · refine .pure (lies_part (Nat.le_refl _) (Nat.le_refl _) less (by omega) (by omega) within₃ ?_)
    refine decorated.next low (by omega) ((named.lower le).next (by omega) (by omega) ?_)
    exact inside.mono (by omega) (by omega)

theorem placing_gpuResult : Placing source gpuResult? (maybe GpuResult.places) := by
  intro lo
  refine (puts_at _).bind fun at_ m₁ le₁ _ => puts_peek.bind fun next m₂ le₂ _ => ?_
  split
  · refine (placing_decoratorList m₂).bind fun decorators m₃ le₃ before => (placing_type m₃).bind
      fun ty m₄ le₄ typed => .pure ?_
    exact (before.lower (by omega)).next (by omega) le₄ typed
  · exact .pure trivial

theorem putsAt_gpuFunction {start : Span} {decorators : List Decorator} {lo : Nat} {ts : Tokens}
    (begun : Begun source start decorators lo ts) :
    PutsAt source lo ts (gpuFunction decorators start) fun f hi => Lies source start.start hi f.places := by
  have less := begun.less
  have low := begun.low
  have decorated := begun.decorated
  have bodies : Placing source block Block.places := fun lo => puts_nested fun rules => rules.block lo
  refine .keyword begun fun _ m le further => .within ?_
  refine (placing_ident m).bind fun name m₁ le₁ named => (puts_paramList placing_decoratorList).bind
    fun params m₂ le₂ listed => (placing_gpuResult m₂).bind fun result m₃ le₃ typed => (bodies m₃).bind
    fun body m₄ le₄ inside => .pure ?_
  obtain ⟨start₄, stop₄, ⟨less₄, within₄⟩, tight⟩ := inside.within body.extent
  refine lies_part (Nat.le_refl _) stop₄ less (by omega) (by omega) within₄ ?_
  refine decorated.next low (by omega) ((named.lower le).next (by omega) (by omega) ?_)
  refine ⟨m₂, le₂, by omega, ?_, typed.next le₃ (by omega) (tight.lower start₄)⟩
  rw [List.map_map, lies_bag]
  intro x found
  obtain ⟨d, member, rfl⟩ := List.mem_map.mp found
  exact ⟨(listed d member).decorators, (listed d member).name, (listed d member).ty, trivial⟩

theorem putsAt_gpuBinding {start : Span} {decorators : List Decorator} {lo : Nat} {ts : Tokens}
    (begun : Begun source start decorators lo ts) :
    PutsAt source lo ts (gpuBinding decorators start) fun b hi => Lies source start.start hi b.places := by
  have less := begun.less
  have low := begun.low
  have decorated := begun.decorated
  refine .keyword begun fun _ m le further => .within ?_
  refine (placing_ident m).bind fun name m₁ le₁ named => (placing_type m₁).bind fun ty m₂ le₂ typed => .pure ?_
  obtain ⟨start₂, stop₂, ⟨less₂, within₂⟩, tight⟩ := typed.within rfl
  refine lies_part (Nat.le_refl _) stop₂ less (by omega) (by omega) within₂ ?_
  exact decorated.next low (by omega) ((named.lower le).next (by omega) (by omega) (tight.lower start₂))

theorem PutsAt.map {α β : Type} {lo : Nat} {ts : Tokens} {p : Reader α} {g : α → β} {post : β → Nat → Prop}
    (puts : PutsAt source lo ts p fun a hi => post (g a) hi) : PutsAt source lo ts (g <$> p) post := by
  intro b rest read
  obtain ⟨a, read', rfl⟩ := map_ok.mp read
  exact puts a rest read'

theorem putsAt_funcDecl {start : Span} {decorators : List Decorator} {lo : Nat} {ts : Tokens}
    (begun : Begun source start decorators lo ts) :
    PutsAt source lo ts (funcDecl decorators start) fun d hi => Lies source start.start hi d.places := by
  unfold funcDecl
  split
  · exact .map (putsAt_component _ begun)
  · split
    · exact .map (putsAt_component _ begun)
    · exact .map (putsAt_gpuFunction begun)
  · split
    · exact puts_fail _ _ begun.ahead
    · exact .map (putsAt_gpuFunction begun)

theorem placing_topLevelDecl : Placing source topLevelDecl Decl.places := by
  intro lo ts ahead d rest read
  cases ts with
  | nil => cases read
  | cons first ts =>
    obtain ⟨low, less, within⟩ := ahead.head
    obtain ⟨_, _, looked, read⟩ := bind_ok.mp read
    cases looked
    obtain ⟨decorators, mid, listed, read⟩ := bind_ok.mp read
    -- The decorators are read from the start of the first token on, so that they lie in the declaration.
    have from_first : Ahead source first.span.start (first :: ts) := by
      refine ⟨ahead.spelled, ?_, ahead.ordered⟩
      intro t member
      rcases List.mem_cons.mp member with rfl | member
      · exact Nat.le_refl _
      · exact Nat.le_trans (Nat.le_of_lt less) (ahead.tail.from_le t member)
    obtain ⟨m, le, ahead', decorated⟩ := placing_decoratorList _ _ from_first _ _ listed
    have left := readers_keep.decoratorList _ _ _ listed
    have late (t : Located Token) (member : t ∈ mid) : first.span.stop ≤ t.span.stop := by
      rcases List.mem_cons.mp (left.subset member) with rfl | member
      · exact Nat.le_refl _
      · have behind := ahead.tail.from_le t member
        have proper := (proper_of_spelled (ahead.tail.spelled t member)).1
        omega
    have begun : Begun source first.span decorators m mid := ⟨ahead', less, le, late, decorated⟩
    have finish {p : Reader Decl} (read : p mid = .ok (d, rest))
        (puts : PutsAt source m mid p fun d hi => Lies source first.span.start hi d.places) :
        ∃ hi, lo ≤ hi ∧ Ahead source hi rest ∧ Lies source lo hi d.places := by
      obtain ⟨hi, le', further, lies⟩ := puts d rest read
      exact ⟨hi, by omega, further, lies.lower low⟩
    refine finish read (.peek ?_)
    split
    · exact putsAt_structDecl begun
    · exact putsAt_funcDecl begun
    · exact .map (putsAt_gpuBinding begun)
    · exact puts_fail _ _ ahead'

theorem placing_importDecl : Placing source importDecl fun paths => row (paths.map Located.place) := by
  intro lo
  refine (puts_expect _ _).bind fun _ m le _ => .within ((puts_eat _).bind ?_)
  rintro (_ | s) m₁ le₁ _
  · refine (placing_stringLiteral m₁).bind fun path m₂ le₂ lies => .pure ?_
    exact lies_row_single (lies.lower (by omega)) (by omega)
  · refine (placing_stringLiteral.items _ fun _ => puts_dropWhile _).bind ?_
    rintro ⟨paths, close⟩ _ le₂ ⟨⟨rfl, low, less, within⟩, inside⟩
    dsimp only at *
    exact .pure (inside.mono (by omega) (by omega))

theorem puts_importGroup (lo : Nat) : Puts source lo importGroup? fun o hi =>
    ∀ paths ∈ o, Lies source lo hi (row (paths.map Located.place)) := by
  refine (puts_at _).bind fun more m le _ => ?_
  split
  · refine (placing_importDecl m).bind fun paths m₁ le₁ lies => (puts_dropWhile _).bind fun _ m₂ le₂ _ => .pure ?_
    rintro _ ⟨⟩
    exact lies.mono le le₂
  · exact .pure nofun

theorem puts_decl (lo : Nat) : Puts source lo decl? fun o hi => ∀ d ∈ o, Lies source lo hi d.places := by
  intro ts ahead
  refine .next ?_
  cases ts with
  | nil => exact Puts.pure nofun _ ahead
  | cons t ts =>
    refine Puts.bind (placing_topLevelDecl lo) (fun d m le lies => ?_) _ ahead
    refine (puts_dropWhile _).bind fun _ m' le' _ => .pure ?_
    rintro _ ⟨⟩
    exact lies.raise le'

theorem lies_flatten {α : Type} {view : α → Places} {groups : List (List α)} {lo hi : Nat} (le : lo ≤ hi)
    (lies : Lies source lo hi (row (groups.map fun g => row (g.map view)))) :
    Lies source lo hi (row (groups.flatten.map view)) := by
  induction groups generalizing lo with
  | nil => trivial
  | cons g groups ih =>
    obtain ⟨m, low, high, first, others⟩ := lies
    rw [List.flatten_cons, List.map_append]
    exact lies_row_append first low high (ih high others)

theorem assemble_lies {package : Name} {imports : List Name} {decls : List Decl} {lo m₁ m₂ hi : Nat}
    (named : Lies source lo m₁ (word package)) (le₁ : lo ≤ m₁) (le₂ : m₁ ≤ m₂) (le₃ : m₂ ≤ hi)
    (imported : Lies source m₁ m₂ (row (imports.map Located.place)))
    (declared : Lies source m₂ hi (row (decls.map Decl.places))) :
    Lies source lo hi (assemble package imports decls).places := by
  refine named.next le₁ (by omega) (imported.next le₂ le₃ ?_)
  rw [lies_bag]
  intro x member
  simp only [assemble, List.mem_cons, List.not_mem_nil, or_false] at member
  rcases member with rfl | rfl | rfl | rfl | rfl
  all_goals
    refine declared.sublist (filterMap_sublist ?_ decls)
    intro a b picked
    cases a <;> cases picked
    rfl

theorem placing_sourceUnit : Placing source sourceUnit SourceUnit.places := by
  intro lo
  refine (puts_dropWhile _).bind fun _ m₁ le₁ _ => (puts_expect _ _).bind fun _ m₂ le₂ _ =>
    (placing_ident m₂).within.bind fun package m₃ le₃ named => (puts_dropWhile _).bind fun _ m₄ le₄ _ =>
    (Puts.whileSome puts_importGroup).bind fun imports m₅ le₅ imported =>
    (Puts.whileSome puts_decl).bind fun decls m₆ le₆ declared => .pure ?_
  exact assemble_lies (named.mono (by omega) le₄) (by omega) le₅ le₆ (lies_flatten le₅ imported) declared

end Grammar

/-- The ranges in the tree of a source that is accepted are sound. -/
theorem parsed_spans_sound {file source : String} {unit : SourceUnit} (accepted : parse file source = .ok unit) :
    unit.places.Sound source.toList := by
  unfold parse at accepted
  split at accepted
  · cases accepted
  · rename_i tokens tokenized
    obtain ⟨_, reaches, -, -⟩ := Lexer.run_ok tokenized
    obtain ⟨-, spelled, ordered, -⟩ := reaches.tiled
    unfold parseTokens at accepted
    split at accepted
    · cases accepted
    · rename_i whole parsed
      cases accepted
      split at parsed
      · rename_i unit rest read
        cases parsed
        obtain ⟨hi, -, -, lies⟩ := Grammar.placing_sourceUnit 0 tokens
          ⟨fun t member => (spelled t member).1, fun _ _ => Nat.zero_le _, ordered⟩ _ _ read
        exact lies.sound
      · cases parsed

/-- Grouped fields and parameters, a decorator, a call behind parentheses and a template. -/
def signSource : String :=
  "package p @gpu type V struct \x7b x, y f32 \x7d func F(a, b int) W \x7b var n = a + (f)(1).c " ++
    "T(w: n) \x7b \x60q\x7bb\x7d\x60 \x7d \x7d"

def signSpans : List Span :=
  [⟨8, 9⟩, ⟨42, 104⟩, ⟨47, 48⟩, ⟨49, 50⟩, ⟨54, 57⟩, ⟨52, 53⟩, ⟨54, 57⟩, ⟨59, 60⟩, ⟨63, 83⟩, ⟨67, 68⟩, ⟨71, 83⟩,
    ⟨71, 72⟩, ⟨71, 72⟩, ⟨73, 74⟩, ⟨76, 83⟩, ⟨76, 81⟩, ⟨76, 77⟩, ⟨76, 77⟩, ⟨76, 77⟩, ⟨79, 80⟩, ⟨79, 80⟩, ⟨82, 83⟩,
    ⟨84, 102⟩, ⟨84, 85⟩, ⟨86, 87⟩, ⟨89, 90⟩, ⟨89, 90⟩, ⟨89, 90⟩, ⟨94, 100⟩, ⟨97, 98⟩, ⟨97, 98⟩, ⟨97, 98⟩, ⟨10, 41⟩,
    ⟨10, 14⟩, ⟨11, 14⟩, ⟨20, 21⟩, ⟨31, 32⟩, ⟨36, 39⟩, ⟨34, 35⟩, ⟨36, 39⟩]

theorem parsed_spans_sound_sign : ∃ unit, parse "sign" signSource = .ok unit ∧ unit.places.spans = signSpans ∧
    unit.places.Sound signSource.toList := by
  have known : (parse "sign" signSource).toOption.map (·.places.spans) = some signSpans := by decide +kernel
  obtain ⟨unit, read, known⟩ := Option.map_eq_some_iff.mp known
  have accepted := toOption_some_iff.mp read
  exact ⟨unit, accepted, known, parsed_spans_sound accepted⟩

end ViewLang
