import ViewLang.Proofs.Go.Embedding
import ViewLang.Proofs.Grammar.Signatures
import ViewLang.Proofs.Success

namespace ViewLang.Go

open Lexical (Locals)

/-- A call passes to each parameter what the arguments of an element give for it. -/
structure Places (params : List Param) (args : List Arg) (call : List Passed) : Prop where
  length : (∀ p ∈ params, p.variadic = false) → call.length = params.length
  /-- The first argument with the parameter's name, else the positional one that the parameters before it leave, else
  the zero value of its type. -/
  single : ∀ i p, params[i]? = some p → p.variadic = false →
    call[i]? = some (((args.find? (·.names p)).or (positionals args)[unnamed args (params.take i)]?).elim
      (.zero p.ty.value) .value)
  /-- A variadic parameter is the last. All elements of the first argument with its name, else the positional ones that
  the parameters before it leave. -/
  rest : ∀ i p, params[i]? = some p → p.variadic = true → i + 1 = params.length ∧
    call.drop i = match args.find? (·.names p) with
      | some a => [.spread a]
      | none => ((positionals args).drop (unnamed args (params.take i))).map .value

section

variable {args : List Arg} {params : List Param}

theorem constructorCall_length (rest : List Arg) (single : ∀ p ∈ params, p.variadic = false) :
    (constructorCall args rest params).length = params.length := by
  induction params generalizing rest with
  | nil => simp [constructorCall]
  | cons p ps ih =>
    rw [List.forall_mem_cons] at single
    rw [constructorCall_single rest ps single.1, List.length_cons, List.length_cons, ih _ single.2]

theorem constructorCall_places (variadicLast : Grammar.VariadicLast params) :
    Places params args (constructorCall args (positionals args) params) := by
  constructor
  · exact constructorCall_length _
  · intro i p known single
    obtain ⟨front, -⟩ := variadic_places variadicLast known
    exact constructorCall_getElem? known front single
  · intro i p known several
    obtain ⟨front, last⟩ := variadic_places variadicLast known
    have inside : i < params.length := (List.getElem?_eq_some_iff.mp known).1
    have behind : params.length ≤ i + 1 := List.drop_eq_nil_iff.mp (last several)
    exact ⟨by omega, constructorCall_drop_last known front (last several) several⟩

/-- An element with the tag of a component that takes its parameters in order. -/
theorem element_embeds {env : Env} {c : Component} {tag : Name}
    (known : env.components.find? (·.name.value == tag.value) = some c) (renderable : c.isRenderable = true)
    (ordered : c.autoProps = false) (own : Vocabulary.tag? tag.value = none) (entries : List Entry)
    (children : List Node) (span : Span) (locals : Locals) (level : Nat) :
    let call := constructorCall (placed entries) (positionals (placed entries)) c.params
    Runs (Lower.element env level ⟨tag, entries, children, span⟩) locals
      (env.runtime ++ ".Embed(New" ++ tag.value ++ "(" ++ ", ".intercalate (call.map (·.text env locals level)) ++ "))")
      [] false := by
  intro call
  have texts : Lexical.embedArgs env locals level tag.value entries = call.map (·.text env locals level) :=
    embedArgs_inOrder known renderable ordered entries
  have shown : Lexical.element env locals level ⟨tag, entries, children, span⟩ =
      env.runtime ++ ".Embed(New" ++ tag.value ++ "(" ++ ", ".intercalate (call.map (·.text env locals level)) ++
        "))" := by
    rw [Lexical.element, own, ← texts, Lexical.embed, Lexical.runtime]
    simp only [String.append_assoc]
    rfl
  rw [← shown]
  exact element_runs env locals level ⟨tag, entries, children, span⟩

end

/-- In a source, an element with the tag of a component that is declared in it without props and gives nodes: what is
generated is a call of the constructor, and each parameter finds in it what the element gives. -/
theorem arguments_reach_parameters {file source : String} {u : SourceUnit} (accepted : parse file source = .ok u)
    {tag : Name} {c : Component} (declared : u.component? tag.value = some c) (renderable : c.isRenderable = true)
    (ordered : c.autoProps = false) (own : Vocabulary.tag? tag.value = none) (entries : List Entry)
    (children : List Node) (span : Span) :
    let args := placed entries
    let call := constructorCall args (positionals args) c.params
    (∀ (env : Env) (locals : Locals) (level : Nat), env.components = u.components →
      Runs (Lower.element env level ⟨tag, entries, children, span⟩) locals
        (env.runtime ++ ".Embed(New" ++ tag.value ++ "(" ++ ", ".intercalate (call.map (·.text env locals level)) ++
          "))") [] false) ∧
    Places c.params args call := by
  intro args call
  constructor
  · intro env locals level unit
    have known : env.components.find? (·.name.value == tag.value) = some c := by
      rw [unit]
      exact declared
    exact element_embeds known renderable ordered own entries children span locals level
  · have member : c ∈ u.components := List.mem_of_find?_eq_some declared
    exact constructorCall_places (parsed_variadicLast accepted c member)

def tallySource : String := "package p func Tally(a, b int, rest ...int) Node \x7b \x60x\x60 \x7d"

/-- `Tally(b: 1, 2, 3, 4)`: the first positional argument is for `a`, the others are left for `rest`. -/
def tallyArgs : List Entry := [numberArg (some "b") "1", numberArg none "2", numberArg none "3", numberArg none "4"]

theorem arguments_reach_parameters_tally : ∃ u c, parse "tally" tallySource = .ok u ∧
    u.component? "Tally" = some c ∧ c.isRenderable = true ∧ c.autoProps = false ∧ Vocabulary.tag? "Tally" = none ∧
    Places c.params (placed tallyArgs) (constructorCall (placed tallyArgs) (positionals (placed tallyArgs)) c.params) ∧
    answer (Lower.element (plainEnv "rt" u) 1 ⟨⟨"Tally", .none⟩, tallyArgs, [], .none⟩) =
      "rt.Embed(NewTally(2, 1, 3, 4))" := by
  have known : (parse "tally" tallySource).toOption.map (fun u =>
      ((u.component? "Tally").map fun c => (c.isRenderable, c.autoProps),
        answer (Lower.element (plainEnv "rt" u) 1 ⟨⟨"Tally", .none⟩, tallyArgs, [], .none⟩))) =
      some (some (true, false), "rt.Embed(NewTally(2, 1, 3, 4))") := by decide +kernel
  obtain ⟨u, read, known⟩ := Option.map_eq_some_iff.mp known
  have accepted := toOption_some_iff.mp read
  obtain ⟨found, text⟩ := Prod.mk.inj known
  obtain ⟨c, declared, kind⟩ := Option.map_eq_some_iff.mp found
  obtain ⟨renderable, ordered⟩ := Prod.mk.inj kind
  have own : Vocabulary.tag? "Tally" = none := by decide
  have named : u.component? (⟨"Tally", .none⟩ : Name).value = some c := declared
  obtain ⟨-, places⟩ := arguments_reach_parameters accepted named renderable ordered own tallyArgs [] .none
  exact ⟨u, c, accepted, declared, renderable, ordered, own, places, text⟩

end ViewLang.Go
