import ViewLang.Proofs.Grammar.FormedTrees
import ViewLang.Proofs.Grammar.Types

namespace ViewLang
namespace Grammar

open Reader

def Decl.IfComponent (each : Component → Prop) : Decl → Prop
  | .component c => each c
  | _ => True

section

variable {each : Component → Prop}

theorem gives_structDecl_other (decorators : List Decorator) (start : Span) :
    Gives (structDecl decorators start) (Decl.IfComponent each) := by
  refine (gives_expect _ _).bind fun _ _ => .within (gives_ident.bind fun _ _ => (gives_expect _ _).bind
    fun _ _ => (gives_structFields _).bind fun ⟨fields, close⟩ _ => ?_)
  dsimp only
  split
  · exact .pure trivial
  · exact .pure trivial

variable (gives : ∀ autoProps start, Gives (component autoProps start) each)

include gives

theorem gives_funcDecl_component (decorators : List Decorator) (start : Span) :
    Gives (funcDecl decorators start) (Decl.IfComponent each) := by
  have shader : Gives (.gpuFunction <$> gpuFunction decorators start) (Decl.IfComponent each) :=
    .map (gives_of_shrinks (readers_shrink.gpuFunction decorators start))
  unfold funcDecl
  split
  · exact .map (gives false start)
  · split
    · exact .map (gives true start)
    · exact shader
  · split
    · exact gives_fail _
    · exact shader

theorem gives_topLevelDecl_component : Gives topLevelDecl (Decl.IfComponent each) := by
  refine gives_next.bind ?_
  rintro (_ | first) -
  · exact gives_fail _
  · refine (gives_of_keeps readers_keep.decoratorList).bind fun decorators _ => gives_peek.bind fun next _ => ?_
    split
    · exact gives_structDecl_other _ _
    · exact gives_funcDecl_component gives _ _
    · exact .map (gives_of_shrinks (readers_shrink.gpuBinding _ _))
    · exact gives_fail _

theorem gives_decl_component : Gives decl? fun o => ∀ d ∈ o, d.IfComponent each := by
  refine gives_next.bind ?_
  rintro (_ | first) -
  · exact .pure nofun
  · refine (gives_topLevelDecl_component gives).bind fun d found => (gives_dropWhile _).bind fun _ _ => .pure ?_
    rintro _ ⟨⟩
    exact found

omit gives in
theorem assemble_components {package : Name} {imports : List Name} {decls : List Decl}
    (found : ∀ d ∈ decls, d.IfComponent each) : ∀ c ∈ (assemble package imports decls).components, each c := by
  intro c member
  obtain ⟨d, member, picked⟩ := List.mem_filterMap.mp member
  have kept := found d member
  cases d <;> cases picked
  exact kept

/-- What holds of every component that can be read holds of all components of a unit. -/
theorem gives_components : Gives sourceUnit fun u => ∀ c ∈ u.components, each c := by
  have imports : Keeps importGroup? := keeps_of_rounds fun _ => importGroup?_rounds
  exact (gives_dropWhile _).bind fun _ _ => (gives_expect _ _).bind fun _ _ => gives_ident.within.bind
    fun _ _ => (gives_dropWhile _).bind fun _ _ =>
    (Gives.whileSome ((gives_of_keeps imports).imp fun _ _ _ _ => trivial)).bind fun _ _ =>
    (Gives.whileSome (gives_decl_component gives)).bind fun _ found => .pure (assemble_components found)

end

theorem gives_plainParams_last : Gives plainParams VariadicLast := fun ts legible _ rest read =>
  ⟨plainParams_variadicLast ⟨ts, rest, read⟩, legible.suffix (readers_shrink.plainParams ts _ rest read).1⟩

theorem gives_component_last (autoProps : Bool) (start : Span) :
    Gives (component autoProps start) fun c => VariadicLast c.params :=
  (gives_expect _ _).bind fun _ _ => .within (gives_ident.bind fun _ _ => gives_plainParams_last.bind fun _ last =>
    gives_resultList.bind fun _ _ => gives_componentBody.bind fun _ _ => .pure last)

end Grammar

/-- In the unit that a source has, a variadic parameter of a component is its last one. -/
theorem parsed_variadicLast {file source : String} {u : SourceUnit} (accepted : parse file source = .ok u) :
    ∀ c ∈ u.components, Grammar.VariadicLast c.params :=
  parsed_gives (Grammar.gives_components Grammar.gives_component_last) accepted

end ViewLang
