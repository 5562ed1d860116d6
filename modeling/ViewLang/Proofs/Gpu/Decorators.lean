import ViewLang.Gpu.Binding
import ViewLang.Proofs.Success

namespace ViewLang.Gpu.BindingInfo

def space? (d : Decorator) : Option AddressSpace :=
  match d.name.value with
  | "uniform" => some .uniform
  | "storage" => (storageAccess d).toOption.map .storage
  | "workgroup" => some .workgroup
  | "private" => some .private_
  | _ => none

def group? (d : Decorator) : Option Nat := if d.name.value = "group" then (integerArg d).toOption else none

def slot? (d : Decorator) : Option Nat := if d.name.value = "binding" then (integerArg d).toOption else none

def Names (d : Decorator) : Prop := (space? d).isSome ∨ (group? d).isSome ∨ (slot? d).isSome

def said (d : Decorator) : Partial := ⟨space? d, group? d, slot? d⟩

def Partial.or (p q : Partial) : Partial := ⟨p.space.or q.space, p.group.or q.group, p.slot.or q.slot⟩

def lastNamed (ds : List Decorator) : Partial :=
  ⟨(ds.filterMap space?).getLast?, (ds.filterMap group?).getLast?, (ds.filterMap slot?).getLast?⟩

/-- What the last decorators name if the binding is resolved to `info`. -/
def named (info : BindingInfo) : Partial := ⟨some info.space, info.slot.map (·.1), info.slot.map (·.2)⟩

def AgreeOn {α : Type} (what? : Decorator → Option α) (ds : List Decorator) : Prop :=
  ∀ a ∈ ds.filterMap what?, ∀ a' ∈ ds.filterMap what?, a = a'

instance {α : Type} [DecidableEq α] (what? : Decorator → Option α) (ds : List Decorator) :
    Decidable (AgreeOn what? ds) :=
  inferInstanceAs (Decidable (∀ a ∈ ds.filterMap what?, ∀ a' ∈ ds.filterMap what?, a = a'))

structure Agreeing (ds : List Decorator) : Prop where
  space : AgreeOn space? ds
  group : AgreeOn group? ds
  slot : AgreeOn slot? ds

theorem Partial.or_assoc (p q r : Partial) : (p.or q).or r = p.or (q.or r) := by simp [Partial.or, Option.or_assoc]

theorem getLast?_filterMap_cons {α β : Type} {f : α → Option β} {x : α} {xs : List α} :
    ((x :: xs).filterMap f).getLast? = (xs.filterMap f).getLast?.or (f x) := by
  cases fx : f x with
  | none => simp [fx]
  | some b =>
    rw [List.filterMap_cons_some fx, List.getLast?_cons]
    cases (xs.filterMap f).getLast? <;> rfl

theorem lastNamed_cons (d : Decorator) (ds : List Decorator) : lastNamed (d :: ds) = (lastNamed ds).or (said d) := by
  simp only [lastNamed, Partial.or, said, getLast?_filterMap_cons]

/-- The last value is the same in any order exactly if there is one value only. -/
theorem getLast?_perm_iff {α β : Type} {f : α → Option β} {xs : List α} :
    (∀ ys : List α, ys.Perm xs → (ys.filterMap f).getLast? = (xs.filterMap f).getLast?) ↔
      ∀ b ∈ xs.filterMap f, ∀ b' ∈ xs.filterMap f, b = b' := by
  constructor
  · intro ordered
    -- each value can be moved to the end
    have last : ∀ b ∈ xs.filterMap f, (xs.filterMap f).getLast? = some b := by
      intro b inside
      obtain ⟨x, member, fx⟩ := List.mem_filterMap.mp inside
      obtain ⟨front, back, rfl⟩ := List.append_of_mem member
      have moved : (front ++ back ++ [x]).Perm (front ++ x :: back) := by
        rw [List.append_assoc]
        exact (List.perm_append_singleton x back).append_left front
      rw [← ordered _ moved, List.filterMap_append, List.filterMap_cons_some fx, List.filterMap_nil,
        List.getLast?_concat]
    intro b inside b' inside'
    exact Option.some.inj ((last b inside).symm.trans (last b' inside'))
  · intro same ys reordered
    have reordered := reordered.filterMap f
    cases values : xs.filterMap f with
    | nil =>
      rw [values] at reordered
      rw [reordered.eq_nil]
    | cons b bs =>
      have one : xs.filterMap f = List.replicate (xs.filterMap f).length b := by
        refine List.eq_replicate_of_mem fun b' inside => same b' inside b ?_
        exact values ▸ List.mem_cons_self
      rw [one] at reordered
      rw [← values, List.perm_replicate.mp reordered, ← one]

theorem lastNamed_perm_iff {ds : List Decorator} :
    (∀ ds' : List Decorator, ds'.Perm ds → lastNamed ds' = lastNamed ds) ↔ Agreeing ds := by
  constructor
  · intro ordered
    exact {
      space := getLast?_perm_iff.mp fun ds' reordered => congrArg Partial.space (ordered ds' reordered)
      group := getLast?_perm_iff.mp fun ds' reordered => congrArg Partial.group (ordered ds' reordered)
      slot := getLast?_perm_iff.mp fun ds' reordered => congrArg Partial.slot (ordered ds' reordered) }
  · intro agree ds' reordered
    rw [lastNamed, getLast?_perm_iff.mpr agree.space ds' reordered, getLast?_perm_iff.mpr agree.group ds' reordered,
      getLast?_perm_iff.mpr agree.slot ds' reordered, lastNamed]

/-- A decorator is taken into account by what it names, which replaces what was named before. -/
theorem addDecorator_ok_iff {p q : Partial} {d : Decorator} : addDecorator p d = .ok q ↔
    Names d ∧ q = (said d).or p := by
  have names_space {s : AddressSpace} (space : space? d = some s) (group : group? d = none) (slot : slot? d = none) :
      (.ok { p with space := some s } : Except ShaderError Partial) = .ok q ↔
        Names d ∧ q = (said d).or p := by
    simp [Names, said, Partial.or, space, group, slot, eq_comm]
  have no_group {name : String} (known : d.name.value = name) (other : name ≠ "group") : group? d = none :=
    if_neg (known ▸ other)
  have no_slot {name : String} (known : d.name.value = name) (other : name ≠ "binding") : slot? d = none :=
    if_neg (known ▸ other)
  unfold addDecorator
  split
  · rename_i known
    exact names_space (by rw [space?, known]; rfl) (no_group known (by decide)) (no_slot known (by decide))
  · rename_i known
    have space : space? d = (storageAccess d).toOption.map .storage := by rw [space?, known]; rfl
    cases access : storageAccess d with
    | error e =>
      rw [access] at space
      simp [Bind.bind, Except.bind, Names, space, no_group known, no_slot known, Except.toOption]
    | ok readWrite =>
      rw [access] at space
      exact names_space space (no_group known (by decide)) (no_slot known (by decide))
  · rename_i known
    exact names_space (by rw [space?, known]; rfl) (no_group known (by decide)) (no_slot known (by decide))
  · rename_i known
    exact names_space (by rw [space?, known]; rfl) (no_group known (by decide)) (no_slot known (by decide))
  · rename_i known
    have space : space? d = none := by rw [space?, known]; rfl
    have group : group? d = (integerArg d).toOption := if_pos known
    cases number : integerArg d <;> rw [number] at group <;>
      simp [Bind.bind, Except.bind, Names, space, group, no_slot known, said, Partial.or, Except.toOption, eq_comm]
  · rename_i known
    have space : space? d = none := by rw [space?, known]; rfl
    have slot : slot? d = (integerArg d).toOption := if_pos known
    cases number : integerArg d <;> rw [number] at slot <;>
      simp [Bind.bind, Except.bind, Names, space, slot, no_group known, said, Partial.or, Except.toOption, eq_comm]
  · rename_i notUniform notStorage notWorkgroup notPrivate notGroup notBinding
    have space : space? d = none := by
      unfold space?
      split <;> first | rfl | contradiction
    have group : group? d = none := if_neg notGroup
    have slot : slot? d = none := if_neg notBinding
    simp [Names, space, group, slot]

theorem addDecorators_ok_iff {p q : Partial} {ds : List Decorator} :
    addDecorators p ds = .ok q ↔ (∀ d ∈ ds, Names d) ∧ q = (lastNamed ds).or p := by
  induction ds generalizing p with
  | nil => simp [addDecorators, lastNamed, Partial.or, eq_comm]
  | cons d ds ih =>
    simp only [addDecorators, bind_ok_iff, addDecorator_ok_iff, ih, lastNamed_cons, Partial.or_assoc,
      List.forall_mem_cons]
    constructor
    · rintro ⟨_, ⟨first, rfl⟩, rest, rfl⟩
      exact ⟨⟨first, rest⟩, rfl⟩
    · rintro ⟨⟨first, rest⟩, rfl⟩
      exact ⟨_, ⟨first, rfl⟩, rest, rfl⟩

/-- A binding is resolved to what its decorators name last. -/
theorem resolve_ok_iff {b : GpuBinding} {info : BindingInfo} : resolve b = .ok info ↔
    (∀ d ∈ b.decorators, Names d) ∧ lastNamed b.decorators = named info ∧
      info.slot.isSome = info.space.isResource := by
  have read (q : Partial) :
      addDecorators ⟨none, none, none⟩ b.decorators = .ok q ↔
        (∀ d ∈ b.decorators, Names d) ∧ q = lastNamed b.decorators := by
    simp [addDecorators_ok_iff, Partial.or]
  simp only [resolve, bind_ok_iff, read]
  constructor
  · rintro ⟨q, ⟨names, rfl⟩, done⟩
    refine ⟨names, ?_⟩
    generalize lastNamed b.decorators = q at done
    obtain ⟨space, group, slot⟩ := q
    dsimp only at done
    split at done
    · cases done
    · rename_i space
      split at done
      · rename_i group slot resource
        cases done
        exact ⟨rfl, resource.symm⟩
      · cases done
      · rename_i resource
        cases done
        exact ⟨rfl, resource.symm⟩
      · split at done <;> cases done
  · rintro ⟨names, last, sized⟩
    refine ⟨_, ⟨names, rfl⟩, ?_⟩
    rw [last]
    obtain ⟨space, _ | ⟨group, slot⟩⟩ := info
    · simp [named, ← sized]
    · simp [named, ← sized]

/-- If a binding is resolved, it is resolved to the same with its decorators in another order exactly if they still name
the same last, and with its decorators in any order exactly if no two of them are in conflict. -/
theorem reordered_resolves_iff {b : GpuBinding} {info : BindingInfo} (resolved : resolve b = .ok info) :
    (∀ ds : List Decorator, ds.Perm b.decorators →
      (resolve { b with decorators := ds } = .ok info ↔ lastNamed ds = lastNamed b.decorators)) ∧
    ((∀ ds : List Decorator, ds.Perm b.decorators → resolve { b with decorators := ds } = .ok info) ↔
      Agreeing b.decorators) := by
  obtain ⟨names, last, sized⟩ := resolve_ok_iff.mp resolved
  have reordered (ds : List Decorator) (reordered : ds.Perm b.decorators) :
      resolve { b with decorators := ds } = .ok info ↔ lastNamed ds = lastNamed b.decorators := by
    rw [resolve_ok_iff, last]
    constructor
    · rintro ⟨-, last', -⟩
      exact last'
    · intro last'
      exact ⟨fun d member => names d (reordered.mem_iff.mp member), last', sized⟩
  refine ⟨reordered, ?_⟩
  rw [← lastNamed_perm_iff]
  exact forall₂_congr reordered

def bare (name : String) : Decorator := ⟨⟨name, .none⟩, [], .none⟩

def numbered (name digits : String) : Decorator := ⟨⟨name, .none⟩, [⟨.int ⟨digits, .none⟩, [], .none⟩], .none⟩

def decorated (ds : List Decorator) : GpuBinding := ⟨ds, ⟨"data", .none⟩, ⟨.named "f32", .none⟩, .none⟩

theorem uniform_in_any_order :
    resolve (decorated [bare "uniform", numbered "group" "1", numbered "binding" "20"]) =
      .ok ⟨.uniform, some (1, 20)⟩ ∧
    ∀ ds : List Decorator, ds.Perm [bare "uniform", numbered "group" "1", numbered "binding" "20"] →
      resolve (decorated ds) = .ok ⟨.uniform, some (1, 20)⟩ := by
  have resolved : resolve (decorated [bare "uniform", numbered "group" "1", numbered "binding" "20"]) =
      .ok ⟨.uniform, some (1, 20)⟩ := rfl
  exact ⟨resolved, (reordered_resolves_iff resolved).2.mpr ⟨by decide, by decide, by decide⟩⟩

/-- Two address spaces are in conflict, and the last one wins. -/
theorem last_space_wins : [bare "private", bare "workgroup"].Perm [bare "workgroup", bare "private"] ∧
    resolve (decorated [bare "workgroup", bare "private"]) = .ok ⟨.private_, none⟩ ∧
    resolve (decorated [bare "private", bare "workgroup"]) = .ok ⟨.workgroup, none⟩ :=
  ⟨.swap _ _ [], rfl, rfl⟩

end ViewLang.Gpu.BindingInfo
