import Mathlib.Data.List.Forall2
import ViewLang.Proofs.Gpu.Subset

namespace ViewLang.Gpu.Wgsl

variable {env : Env} {fields : List GpuField} {es : List Entry}

def fieldName (e : Entry) : Option String := e.key.map (·.value)

def source? (es : List Entry) (f : GpuField) : Option Nat := es.findIdx? fun e => fieldName e == some f.name.value

/-- The argument for a field: the value of the first element for it, or else the zero value of its type. -/
inductive Argument (env : Env) (es : List Entry) (f : GpuField) : String → Prop
  | taken {place : Nat} {e : Entry} {text : String} (first : source? es f = some place) (here : es[place]? = some e)
    (value : expr env e.value = .ok text) : Argument env es f text
  | zero {ty : String} (absent : source? es f = none) (typed : typeName env f.ty = .ok ty) :
    Argument env es f (ty ++ "()")

/-- The value of each element is the argument for a field that its key names, and for no other. -/
def EachOnce (fields : List GpuField) (es : List Entry) : Prop :=
  ∀ place e, es[place]? = some e → ∃ i f, fields[i]? = some f ∧ fieldName e = some f.name.value ∧
    ∀ (i' : Nat) (f' : GpuField), fields[i']? = some f' → (source? es f' = some place ↔ i' = i)

def NamesSingle (fields : List GpuField) (es : List Entry) : Prop :=
  ∀ e ∈ es, ∃! i : Nat, ∃ f, fields[i]? = some f ∧ fieldName e = some f.name.value

theorem fieldArg_ok {f : GpuField} {text : String} :
    fieldArg env (entries env es) f = .ok text ↔ Argument env es f text := by
  have found : (entries env es).find? (fun e => e.1.map (·.value) == some f.name.value) =
      ((source? es f).bind fun place => es[place]?).map fun e => (e.key, expr env e.value) := by
    rw [source?, ← List.find?_eq_bind_findIdx?_getElem?, entries_eq, List.find?_map]
    rfl
  rw [fieldArg, found]
  constructor
  · intro arg
    cases first : source? es f with
    | none =>
      rw [first] at arg
      obtain ⟨ty, typed, rest⟩ := bind_ok_iff.mp arg
      cases rest
      exact .zero first typed
    | some place =>
      have inside : place < es.length := (List.findIdx?_eq_some_iff_getElem.mp first).1
      rw [first, Option.bind_some, List.getElem?_eq_getElem inside] at arg
      exact .taken first (List.getElem?_eq_getElem inside) arg
  · intro arg
    cases arg with
    | taken first here value =>
      rw [first, Option.bind_some, here]
      exact value
    | zero absent typed =>
      rw [absent]
      exact bind_ok_iff.mpr ⟨_, typed, rfl⟩

/-- What a keyed literal is written as: the constructor of its type, on one argument for each field of the struct. -/
theorem composite_keyed {ty : Located TypeExpr} {span : Span} {text : String} (keyed : ¬ Keyless es)
    (accepted : composite env ty (entries env es) span = .ok text) :
    ∃ decl typeText args, env.structs.find? (fun s => some s.name.value == ty.value.baseName?) = some decl ∧
      typeName env ty = .ok typeText ∧ List.Forall₂ (Argument env es) decl.fields args ∧
      text = typeText ++ "(" ++ ", ".intercalate args ++ ")" := by
  have some_keyed : ((entries env es).filter (·.1.isSome)).length ≠ 0 := fun none => keyed (keyless_iff.mp none)
  have all : AllKeyed es := by
    apply all_keyed_iff.mp
    by_contra mixed
    rw [composite, if_pos ⟨some_keyed, mixed⟩] at accepted
    cases accepted
  rw [composite, if_neg fun mixed => mixed.2 (all_keyed_iff.mpr all)] at accepted
  split at accepted
  · rw [if_pos some_keyed] at accepted
    cases accepted
  · obtain ⟨typeText, typed, accepted⟩ := bind_ok_iff.mp accepted
    rw [if_neg some_keyed, keyedComposite] at accepted
    split at accepted
    · cases accepted
    · rename_i decl declared
      split at accepted
      · cases accepted
      · obtain ⟨args, listed, rest⟩ := bind_ok_iff.mp accepted
        cases rest
        have each : List.Forall₂ (Argument env es) decl.fields args :=
          (mapM_ok_forall₂.mp listed).imp fun f arg => fieldArg_ok.mp
        exact ⟨decl, typeText, args, declared, typed, each, rfl⟩

theorem source?_eq_some {f : GpuField} {place : Nat} (first : source? es f = some place) :
    ∃ e, es[place]? = some e ∧ fieldName e = some f.name.value ∧
      ∀ earlier e', earlier < place → es[earlier]? = some e' → fieldName e' ≠ some f.name.value := by
  obtain ⟨inside, named, others⟩ := List.findIdx?_eq_some_iff_getElem.mp first
  refine ⟨es[place], List.getElem?_eq_getElem inside, eq_of_beq named, ?_⟩
  intro earlier e' before here same
  obtain ⟨_, rfl⟩ := List.getElem?_eq_some_iff.mp here
  have other := others earlier before
  rw [same] at other
  exact other (BEq.refl _)

/-- Among distinct keys, the argument for a field is taken from the only element for it. -/
theorem source?_of_distinct (distinct : (es.map fieldName).Nodup) {f : GpuField} {place : Nat} {e : Entry}
    (here : es[place]? = some e) (named : fieldName e = some f.name.value) : source? es f = some place := by
  obtain ⟨inside, rfl⟩ := List.getElem?_eq_some_iff.mp here
  rw [List.nodup_iff_pairwise_ne, List.pairwise_map, List.pairwise_iff_getElem] at distinct
  refine List.findIdx?_eq_some_iff_getElem.mpr ⟨inside, by rw [named]; exact BEq.refl _, ?_⟩
  intro earlier before same
  rw [beq_iff_eq, ← named] at same
  exact distinct earlier place (Nat.lt_trans before inside) inside before same

theorem eachOnce_iff : EachOnce fields es ↔ (es.map fieldName).Nodup ∧ NamesSingle fields es := by
  constructor
  · intro once
    constructor
    · -- An element for a field of an earlier element would be taken for none.
      rw [List.nodup_iff_pairwise_ne, List.pairwise_map, List.pairwise_iff_getElem]
      intro earlier place _ bound before same
      obtain ⟨i, f, inside, named, only⟩ := once place _ (List.getElem?_eq_getElem bound)
      have first : source? es f = some place := (only i f inside).mpr rfl
      obtain ⟨-, -, -, others⟩ := source?_eq_some first
      exact others earlier _ before (List.getElem?_eq_getElem _) (same.trans named)
    · intro e member
      obtain ⟨place, bound, rfl⟩ := List.getElem_of_mem member
      obtain ⟨i, f, inside, named, only⟩ := once place _ (List.getElem?_eq_getElem bound)
      refine ⟨i, ⟨f, inside, named⟩, ?_⟩
      rintro i' ⟨f', inside', named'⟩
      have same : source? es f' = source? es f := by
        rw [source?, source?, ← named, ← named']
      have first : source? es f = some place := (only i f inside).mpr rfl
      exact (only i' f' inside').mp (same.trans first)
  · rintro ⟨distinct, single⟩ place e here
    obtain ⟨i, ⟨f, inside, named⟩, only⟩ := single e (List.mem_of_getElem? here)
    refine ⟨i, f, inside, named, ?_⟩
    intro i' f' inside'
    constructor
    · intro first
      obtain ⟨e', here', named', -⟩ := source?_eq_some first
      cases here.symm.trans here'
      exact only i' ⟨f', inside', named'⟩
    · rintro rfl
      cases inside.symm.trans inside'
      exact source?_of_distinct distinct here named

/-- A keyed literal that is written out is the constructor of its type, on one argument for each field of the struct in
the order of declaration: the value of the first element for it, or zero. Each element is the argument for its own field
and for no other exactly if no two have the same key and each names a single field. -/
theorem elements_kept_iff {ty : Located TypeExpr} {span : Span} {text : String} (keyed : ¬ Keyless es)
    (accepted : primary env (.composite ty es span) = .ok text) :
    ∃ decl typeText args, env.structs.find? (fun s => some s.name.value == ty.value.baseName?) = some decl ∧
      typeName env ty = .ok typeText ∧ text = typeText ++ "(" ++ ", ".intercalate args ++ ")" ∧
      args.length = decl.fields.length ∧ List.Forall₂ (Argument env es) decl.fields args ∧
      (EachOnce decl.fields es ↔ (es.map fieldName).Nodup ∧ NamesSingle decl.fields es) := by
  rw [primary] at accepted
  obtain ⟨decl, typeText, args, declared, typed, each, rfl⟩ := composite_keyed keyed accepted
  exact ⟨decl, typeText, args, declared, typed, rfl, each.length_eq.symm, each, eachOnce_iff⟩

def beamFields : List GpuField :=
  [⟨[], ⟨"place", .none⟩, ⟨.named "vec3", .none⟩⟩, ⟨[], ⟨"power", .none⟩, ⟨.named "f32", .none⟩⟩]

def beamType : Located TypeExpr := ⟨.named "Beam", .none⟩

def powerOf (text : String) : Entry := ⟨some ⟨"power", .none⟩, .single (.float ⟨text, .none⟩)⟩

def beamUnit (es : List Entry) : SourceUnit where
  package := ⟨"main", .none⟩
  imports := []
  types := []
  components := []
  gpuStructs := [⟨[⟨⟨"gpu", .none⟩, [], .none⟩], ⟨"Beam", .none⟩, beamFields, .none⟩]
  gpuBindings := []
  gpuFunctions := [⟨[], ⟨"lit", .none⟩, [], none,
    ⟨[.simple (.assign [.single (.select (.name ⟨"b", .none⟩) [] .none)] ⟨.define, .none⟩
      [.single (.composite beamType es .none)] .none)], .none⟩, .none⟩]

def beamTable : LayoutTable := [("Beam", ⟨[⟨"place", 0, 12, 16⟩, ⟨"power", 12, 4, 4⟩], 16, 16⟩)]

/-- In `Beam{power: 2.0}` the place is zero. -/
theorem elements_kept_iff_beam :
    let env := environment (beamUnit [powerOf "2.0"]) beamTable
    ¬ Keyless [powerOf "2.0"] ∧
      primary env (.composite beamType [powerOf "2.0"] .none) = .ok "Beam(vec3<f32>(), 2.0)" ∧
      EachOnce beamFields [powerOf "2.0"] := by
  intro env
  have keyed : ¬ Keyless [powerOf "2.0"] := by
    intro keyless
    cases keyless _ List.mem_cons_self
  have accepted : primary env (.composite beamType [powerOf "2.0"] .none) = .ok "Beam(vec3<f32>(), 2.0)" := rfl
  obtain ⟨decl, _, _, declared, -, -, -, -, once⟩ := elements_kept_iff keyed accepted
  cases declared
  refine ⟨keyed, accepted, once.mpr ⟨by decide, ?_⟩⟩
  intro e member
  cases List.mem_singleton.mp member
  refine ⟨1, ⟨_, rfl, rfl⟩, ?_⟩
  rintro (_ | _ | i) ⟨f, inside, named⟩
  · cases inside
    exact absurd named (by decide)
  · rfl
  · cases inside

/-- Of `Beam{power: 1.0, power: 2.0}` the shader has the first power only. -/
theorem repeated_key_drops_element :
    LayoutTable.build (beamUnit [powerOf "1.0", powerOf "2.0"]).gpuStructs = .ok beamTable ∧
      generate (beamUnit [powerOf "1.0", powerOf "2.0"]) beamTable =
        .ok ("struct Beam \x7b\n    place: vec3<f32>,\n    power: f32,\n\x7d\n\n" ++
          "fn lit() \x7b\n    var b = Beam(vec3<f32>(), 1.0);\n\x7d\n") ∧
      ¬ EachOnce beamFields [powerOf "1.0", powerOf "2.0"] := by
  refine ⟨rfl, rfl, ?_⟩
  intro once
  have distinct := (eachOnce_iff.mp once).1
  exact absurd distinct (by decide)

end ViewLang.Gpu.Wgsl
