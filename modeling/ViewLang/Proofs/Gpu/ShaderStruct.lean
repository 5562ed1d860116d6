import ViewLang.Gpu.Wgsl
import ViewLang.Proofs.Success

namespace ViewLang.Gpu.Wgsl

structure Attribute where
  name : String
  args : List String
deriving Repr, DecidableEq

structure Member where
  attributes : List Attribute
  name : String
  type : String
deriving Repr, DecidableEq

structure Declaration where
  name : String
  members : List Member
deriving Repr, DecidableEq

def Attribute.text (a : Attribute) : String :=
  if a.args.isEmpty then "@" ++ a.name ++ " " else "@" ++ a.name ++ "(" ++ ", ".intercalate a.args ++ ") "

def Member.text (m : Member) : String := String.join (m.attributes.map Attribute.text) ++ m.name ++ ": " ++ m.type

def Declaration.doc (d : Declaration) : Doc :=
  Doc.block ("struct " ++ d.name ++ " \x7b") (d.members.map fun m => .text 0 (m.text ++ ",")) "\x7d"

def attributeOf (env : Env) (d : Decorator) : Result Attribute := do
  let args ← exprs env d.args
  .ok ⟨d.name.value, args⟩

def memberOf (env : Env) (f : GpuField) : Result Member := do
  let attributes ← f.decorators.mapM (attributeOf env)
  let type ← typeName env f.ty
  .ok ⟨attributes, f.name.value, type⟩

def declarationOf (env : Env) (s : GpuStruct) : Result Declaration := do
  let members ← s.fields.mapM (memberOf env)
  .ok ⟨s.name.value, members⟩

theorem exprs_length {env : Env} {es : List Expr} {texts : List String} (result : exprs env es = .ok texts) :
    texts.length = es.length := by
  induction es generalizing texts with
  | nil =>
    rw [exprs] at result
    cases result
    rfl
  | cons e es ih =>
    simp only [exprs, bind_ok_iff] at result
    obtain ⟨text, _, rest, others, final⟩ := result
    cases final
    simp [ih others]

theorem attributeText_ok {env : Env} {target : Target} {d : Decorator} {text : String}
    (result : attributeText env target d = .ok text) :
    ∃ a, attributeOf env d = .ok a ∧ a.text = text := by
  simp only [attributeText, bind_ok_iff] at result
  obtain ⟨_, _, result⟩ := result
  split at result
  · rename_i bare
    rw [List.isEmpty_iff] at bare
    cases result
    refine ⟨⟨d.name.value, []⟩, ?_, rfl⟩
    simp only [attributeOf, bare, exprs]
    rfl
  · rename_i given
    rw [bind_ok_iff] at result
    obtain ⟨args, written, final⟩ := result
    cases final
    refine ⟨⟨d.name.value, args⟩, by rw [attributeOf, written]; rfl, ?_⟩
    have some : args.isEmpty = false := by
      have length := exprs_length written
      cases args with
      | nil =>
        have none := List.length_eq_zero_iff.mp length.symm
        simp [none] at given
      | cons _ _ => rfl
    simp [Attribute.text, some]

theorem attributes_ok {env : Env} {target : Target} {ds : List Decorator} {text : String}
    (result : attributes env target ds = .ok text) :
    ∃ as, ds.mapM (attributeOf env) = .ok as ∧ String.join (as.map Attribute.text) = text := by
  simp only [attributes, bind_ok_iff, mapM_ok_forall₂] at result
  obtain ⟨texts, written, final⟩ := result
  cases final
  obtain ⟨as, taken, rfl⟩ := forall₂_unmap written fun _ _ => attributeText_ok
  exact ⟨as, mapM_ok_forall₂.mpr taken, rfl⟩

theorem member_ok {env : Env} {target : Target} {f : GpuField} {text : String}
    (result : member env target f = .ok text) : ∃ m, memberOf env f = .ok m ∧ m.text = text := by
  simp only [member, bind_ok_iff] at result
  obtain ⟨attrs, written, type, typed, final⟩ := result
  cases final
  obtain ⟨as, taken, rfl⟩ := attributes_ok written
  refine ⟨⟨as, f.name.value, type⟩, ?_, rfl⟩
  rw [memberOf, taken, typed]
  rfl

theorem structDecl_ok {env : Env} {s : GpuStruct} {doc : Doc} (result : structDecl env s = .ok doc) :
    ∃ d, declarationOf env s = .ok d ∧ d.doc = doc := by
  simp only [structDecl, bind_ok_iff] at result
  obtain ⟨_, _, texts, written, final⟩ := result
  cases final
  rw [mapM_ok_forall₂] at written
  obtain ⟨ms, taken, rfl⟩ := forall₂_unmap written fun _ _ => member_ok
  refine ⟨⟨s.name.value, ms⟩, ?_, by rw [Declaration.doc, List.map_map]; rfl⟩
  rw [declarationOf, mapM_ok_forall₂.mpr taken]
  rfl

theorem attributeOf_name {env : Env} {d : Decorator} {a : Attribute} (result : attributeOf env d = .ok a) :
    a.name = d.name.value := by
  simp only [attributeOf, bind_ok_iff] at result
  obtain ⟨args, _, final⟩ := result
  cases final
  rfl

theorem memberOf_ok {env : Env} {f : GpuField} {m : Member} (result : memberOf env f = .ok m) :
    typeName env f.ty = .ok m.type ∧ ∀ a ∈ m.attributes, ∃ d ∈ f.decorators, a.name = d.name.value := by
  simp only [memberOf, bind_ok_iff, mapM_ok_forall₂] at result
  obtain ⟨as, taken, type, typed, final⟩ := result
  cases final
  refine ⟨typed, fun a member => ?_⟩
  obtain ⟨d, inside, result⟩ := forall₂_mem_right taken member
  exact ⟨d, inside, attributeOf_name result⟩

theorem declarationOf_ok {env : Env} {s : GpuStruct} {d : Declaration} (result : declarationOf env s = .ok d) :
    d.name = s.name.value ∧ List.Forall₂ (fun f m => memberOf env f = .ok m) s.fields d.members := by
  simp only [declarationOf, bind_ok_iff, mapM_ok_forall₂] at result
  obtain ⟨ms, taken, final⟩ := result
  cases final
  exact ⟨rfl, taken⟩

/-- A type that is a name is written as the value type of that name, or stays. -/
theorem typeName_named {env : Env} {ty : Located TypeExpr} {name text : String} (named : ty.value = .named name)
    (result : typeName env ty = .ok text) :
    (∃ t, ValueType.ofName? name = some t ∧ text = t.wgsl) ∨ ValueType.ofName? name = none ∧ text = name := by
  rw [typeName, named, plainType] at result
  split at result
  · cases result
    exact .inl ⟨_, ‹_›, rfl⟩
  · split at result
    · cases result
      exact .inr ⟨‹_›, rfl⟩
    · cases result

/-- The declarations of a unit's structs, in their order. -/
def Declares (u : SourceUnit) (layouts : LayoutTable) (ds : List Declaration) : Prop :=
  List.Forall₂ (fun s d => declarationOf (environment u layouts) s = .ok d) u.gpuStructs ds

/-- A generated shader starts with the declarations of all structs. -/
theorem generate_declares {u : SourceUnit} {layouts : LayoutTable} {text : String}
    (result : generate u layouts = .ok text) :
    ∃ ds, Declares u layouts ds ∧ ∃ rest,
      text = Doc.render "    " (ds.flatMap fun d => d.doc ++ Doc.blank) ++ rest := by
  simp only [generate, document, bind_ok_iff, mapM_ok_forall₂] at result
  obtain ⟨_, ⟨structs, written, bindings, _, functions, _, whole⟩, final⟩ := result
  cases whole
  cases final
  obtain ⟨ds, declared, rfl⟩ := forall₂_unmap written fun _ _ => structDecl_ok
  refine ⟨ds, declared, Doc.render "    " (bindings.flatten ++ (if bindings.isEmpty then [] else Doc.blank) ++
    Doc.blank.intercalate functions), ?_⟩
  simp only [Doc.render, List.map_append, String.join_append, List.flatMap_map, String.append_assoc]

end ViewLang.Gpu.Wgsl
