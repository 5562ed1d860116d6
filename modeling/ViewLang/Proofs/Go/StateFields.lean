import ViewLang.Go.Component
import ViewLang.Proofs.Success

namespace ViewLang.Go

section

variable {c : Component} {x : String}

theorem field_of_param (member : x ∈ c.params.map (·.name.value)) : ((stateFields c).lookup x).isSome = true := by
  obtain ⟨p, inside, rfl⟩ := List.mem_map.mp member
  refine List.lookup_isSome_iff.mpr ⟨(p.name.value, paramAccess c p), ?_, BEq.refl _⟩
  rw [stateFields, List.mem_reverse]
  exact List.mem_append_left _ (List.mem_map_of_mem inside)

theorem field_of_hoisted (member : x ∈ (c.body.vars.flatMap (·.names)).map (·.value)) :
    ((stateFields c).lookup x).isSome = true := by
  obtain ⟨name, inside, rfl⟩ := List.mem_map.mp member
  obtain ⟨d, declared, named⟩ := List.mem_flatMap.mp inside
  refine List.lookup_isSome_iff.mpr ⟨(name.value, "c." ++ name.value), ?_, BEq.refl _⟩
  rw [stateFields, List.mem_reverse]
  exact List.mem_append_right _ (List.mem_flatMap.mpr ⟨d, declared, List.mem_map_of_mem named⟩)

theorem field_of_receiver {field : String} (found : (stateFields c).lookup x = some field) :
    ∃ path, field = "c." ++ path := by
  have member := mem_of_lookup found
  rw [stateFields, List.mem_reverse] at member
  rcases List.mem_append.mp member with param | hoisted
  · obtain ⟨p, _, same⟩ := List.mem_map.mp param
    cases same
    rw [paramAccess]
    split
    · refine ⟨"props." ++ exported p.name.value, ?_⟩
      rw [← String.append_assoc]
      rfl
    · exact ⟨p.name.value, rfl⟩
  · obtain ⟨d, _, named⟩ := List.mem_flatMap.mp hoisted
    obtain ⟨name, _, same⟩ := List.mem_map.mp named
    cases same
    exact ⟨name.value, rfl⟩

end

structure ThroughReceiver (env : Env) : Prop where
  field : ∀ {x text}, env.fields.lookup x = some text → ∃ path, text = "c." ++ path
  latest : ∀ {x text}, env.latest.lookup x = some text → ∃ path, text = "c." ++ path

theorem componentEnv_throughReceiver (runtime : String) (u : SourceUnit) (c : Component) :
    ThroughReceiver (componentEnv runtime u c) where
  field := field_of_receiver
  latest {x text} found := by
    have member := mem_of_lookup found
    rw [componentEnv, List.mem_reverse] at member
    obtain ⟨channel, _, same⟩ := List.mem_map.mp member
    cases same
    exact ⟨channel.field, rfl⟩

end ViewLang.Go
