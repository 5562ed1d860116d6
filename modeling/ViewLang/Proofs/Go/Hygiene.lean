import ViewLang.Proofs.Go.MarkedText
import ViewLang.Proofs.Go.NodeScopes

namespace ViewLang.Go

open Lexical (Locals)

/-- The lines of the method that renders a component. -/
theorem renderDoc_lines (env : Env) (c : Component) :
    ((Lower.renderDoc env c).run .start).1 =
      Doc.line ("// Render builds the node tree of " ++ c.name.value ++ ".") ++
        Doc.line ("func (c *" ++ c.name.value ++ ") Render() " ++ Lexical.runtime env "Node" ++ " \x7b") ++
        Lexical.stmts env [] 1 c.body.stmts ++
        [.text 1 ("return " ++
          Lexical.nodeList env (Locals.extend [] (Lexical.declared c.body.stmts)) 1 c.body.nodes)] ++
        Doc.line "\x7d" ++ Doc.blank := by
  have body := stmts_runs env [] 1 c.body.stmts
  have root := nodeList_runs env (Locals.extend [] (Lexical.declared c.body.stmts)) 1 c.body.nodes
  have runs : Runs (Lower.renderDoc env c) [] _ _ _ := (runtime_runs "Node").bind (body.bind (root.map _))
  obtain ⟨uses, ran⟩ := runs [] [] [] .none rfl
  exact congrArg Prod.fst ran

theorem methodEnd_marks (runtime : String) : Marks runtime Marked.methodEnd
    (Doc.render "\t" (Doc.line "\x7d") ++ Doc.render "\t" Doc.blank) :=
  (Marks.line (.lit _) 0).append (.lit "\n")

theorem methodHead_marks (env : Env) (c : Component) : Marks env.runtime (Marked.methodHead env c)
    (Doc.render "\t" (Doc.line ("// Render builds the node tree of " ++ c.name.value ++ ".")) ++
      Doc.render "\t"
        (Doc.line ("func (c *" ++ c.name.value ++ ") Render() " ++ Lexical.runtime env "Node" ++ " \x7b"))) := by
  have head := ((((Marks.lit "func (c *").append (.mention c.name.value)).append (.lit ") Render() ")).append
    (runtime_marks env "Node")).append (.lit " \x7b")
  exact (Marks.line (.lit _) 0).append (head.line 0)

section

variable {env : Env} (c : Component) (through : ThroughReceiver env)

include through

theorem methodBody_marks : Marks env.runtime (Marked.methodBody env c)
    ((Lexical.stmts env [] 1 c.body.stmts).render "\t" ++ Doc.render "\t" [.text 1 ("return " ++
      Lexical.nodeList env (Locals.extend [] (Lexical.declared c.body.stmts)) 1 c.body.nodes)]) := by
  have root := (Marks.lit "return ").append
    (nodeList_marks through (Locals.extend [] (Lexical.declared c.body.stmts)) 1 c.body.nodes)
  exact (stmts_marks through [] 1 c.body.stmts).append (root.line 1)

theorem renderMethod_shown :
    Marked.render (Marked.renderMethod env c) = ((Lower.renderDoc env c).run .start).1.render "\t" := by
  have body : Marked.render [.scope (.bind ⟨.generator, "c"⟩ :: Marked.methodBody env c)] = _ :=
    String.append_empty.trans (String.empty_append.trans (methodBody_marks c through).shown)
  rw [Marked.renderMethod, Marked.render_append, Marked.render_append, body, (methodHead_marks env c).shown,
    (methodEnd_marks env.runtime).shown, renderDoc_lines]
  simp only [Doc.render_append, String.append_assoc]

/-- The generator binds the receiver and the accumulators of loops. -/
theorem renderMethod_bound {m : Mark} (member : m ∈ Marked.binders (Marked.renderMethod env c))
    (generated : m.author = .generator) : m.name = "c" ∨ m.name = "nodes" := by
  rw [Marked.renderMethod, Marked.binders_append, Marked.binders_append] at member
  rcases List.mem_append.mp member with head | member
  · exact .inr ((methodHead_marks env c).bound m head generated)
  · rcases List.mem_append.mp member with inside | behind
    · simp only [Marked.binders, Piece.binders, List.append_nil] at inside
      rcases List.mem_cons.mp inside with receiver | inside
      · exact .inl (congrArg Mark.name receiver)
      · exact .inr ((methodBody_marks c through).bound m inside generated)
    · exact .inr ((methodEnd_marks env.runtime).bound m behind generated)

/-- What a name of the method sees: accumulators and binders of the user, and behind them the receiver, unless the name
stands in the head of the method. The generator refers only to reserved names. -/
theorem renderMethod_scope {o : Occurrence} (member : o ∈ Marked.occurrences [] (Marked.renderMethod env c)) :
    (o.mark.author = .generator → Reserved env.runtime o.mark.name) ∧
    ∃ inner outer, o.scope = inner ++ outer ∧ (∀ m ∈ inner, m.author = .generator → m.name = "nodes") ∧
      (outer = [] ∨ outer = [⟨.generator, "c"⟩]) := by
  have binderless : (Marked.methodHead env c).flatMap Piece.bound = [] := rfl
  have ended : ∀ scope, Marked.occurrences scope Marked.methodEnd = [] := fun _ => rfl
  rw [Marked.renderMethod, Marked.occurrences_append, Marked.occurrences_append, binderless, ended,
    List.append_nil] at member
  rcases List.mem_append.mp member with head | inside
  · obtain ⟨inner, split, known⟩ := Marked.scope_of_mem [] _ o head
    exact ⟨(methodHead_marks env c).used [] o head, inner, [], split,
      fun m seen => (methodHead_marks env c).bound m (known seen), .inl rfl⟩
  · have body : o ∈ Marked.occurrences [⟨.generator, "c"⟩] (Marked.methodBody env c) := by
      simpa [Marked.occurrences, Piece.occurrences, Piece.bound] using inside
    obtain ⟨inner, split, known⟩ := Marked.scope_of_mem _ _ o body
    exact ⟨(methodBody_marks c through).used _ o body, inner, _, split,
      fun m seen => (methodBody_marks c through).bound m (known seen), .inr rfl⟩

end

/-- The user captures a reference of the generator, other than one to an accumulator, by any binder of its name. -/
theorem Occurrence.kept_reference_iff {o : Occurrence} {inner outer : List Mark} (split : o.scope = inner ++ outer)
    (gathering : ∀ m ∈ inner, m.author = .generator → m.name = "nodes")
    (receiver : outer = [] ∨ outer = [⟨.generator, "c"⟩]) (generated : o.mark.author = .generator)
    (other : o.mark.name ≠ "nodes") : o.Kept ↔ ⟨.user, o.mark.name⟩ ∉ o.scope := by
  rw [Occurrence.kept_iff_not_other, generated, Author.other]
  constructor
  · intro free bound
    have inside : ⟨.user, o.mark.name⟩ ∈ inner := by
      rw [split] at bound
      rcases List.mem_append.mp bound with inside | outside
      · exact inside
      · rcases receiver with rfl | rfl
        · cases outside
        · cases List.mem_singleton.mp outside
    have some : (inner.find? (·.name == o.mark.name)).isSome := List.find?_isSome.mpr ⟨_, inside, BEq.refl _⟩
    obtain ⟨m, found⟩ := Option.isSome_iff_exists.mp some
    have named : m.name = o.mark.name := by simpa using List.find?_some found
    have users : m.author = .user := by
      refine Author.ne_other_iff.mp fun generator => other ?_
      rw [← named]
      exact gathering m (List.mem_of_find?_eq_some found) generator
    refine free ?_
    rw [Occurrence.binder?, split, List.find?_append, found, Option.some_or, ← users, ← named]
  · intro absent found
    exact absent (Occurrence.mem_of_binder? found)

structure NamesApart (code : Marked) : Prop where
  mentions : ∀ o ∈ Marked.occurrences [] code, o.mark = ⟨.user, "c"⟩ ∨ o.mark = ⟨.user, "nodes"⟩ →
    o.binder? o.scope ≠ some ⟨.generator, o.mark.name⟩
  references : ∀ o ∈ Marked.occurrences [] code, o.mark.author = .generator → o.mark.name ≠ "nodes" →
    ⟨.user, o.mark.name⟩ ∉ o.scope
  gathering : ∀ o ∈ Marked.occurrences [] code, o.mark = ⟨.generator, "nodes"⟩ →
    o.binder? o.scope ≠ some ⟨.user, "nodes"⟩

theorem hygienic_iff_namesApart {env : Env} (through : ThroughReceiver env) (c : Component) :
    Hygienic (Marked.renderMethod env c) ↔ NamesApart (Marked.renderMethod env c) := by
  constructor
  · intro hygienic
    refine ⟨fun o member mentioned => ?_, fun o member generated other => ?_, fun o member gathers => ?_⟩
    · have kept := Occurrence.kept_iff_not_other.mp (hygienic o member)
      rcases mentioned with mine | mine <;> rw [mine] at kept ⊢ <;> exact kept
    · obtain ⟨_, inner, outer, split, gathering, receiver⟩ := renderMethod_scope c through member
      exact (Occurrence.kept_reference_iff split gathering receiver generated other).mp (hygienic o member)
    · have kept := Occurrence.kept_iff_not_other.mp (hygienic o member)
      rw [gathers] at kept
      exact kept
  · intro apart o member
    obtain ⟨_, inner, outer, split, gathering, receiver⟩ := renderMethod_scope c through member
    obtain ⟨⟨author, name⟩, scope⟩ := o
    cases author with
    | user =>
      refine Occurrence.kept_iff_not_other.mpr fun captured => ?_
      -- Only the receiver and the accumulators can capture a name of the user.
      have bound := Marked.mem_binders member (Occurrence.mem_of_binder? captured)
      rcases renderMethod_bound c through bound rfl with rfl | rfl
      · exact apart.mentions _ member (.inl rfl) captured
      · exact apart.mentions _ member (.inr rfl) captured
    | generator =>
      by_cases gathers : name = "nodes"
      · subst gathers
        exact Occurrence.kept_iff_not_other.mpr (apart.gathering _ member rfl)
      · exact (Occurrence.kept_reference_iff split gathering receiver rfl gathers).mpr
          (apart.references _ member rfl gathers)

/-- The method that renders a component shows the marked code. In it the generator binds only the receiver and the
accumulators of loops, and refers only to reserved names. The code is hygienic exactly when the names of the user and of
the generator keep apart; they do when the user mentions neither `c` nor `nodes` and binds no reserved name. -/
theorem render_hygienic_iff (runtime : String) (u : SourceUnit) (c : Component) :
    let env := componentEnv runtime u c
    let code := Marked.renderMethod env c
    let names := Marked.occurrences [] code
    Marked.render code = ((Lower.renderDoc env c).run .start).1.render "\t" ∧
    (∀ m ∈ Marked.binders code, m.author = .generator → m.name = "c" ∨ m.name = "nodes") ∧
    (∀ o ∈ names, o.mark.author = .generator → Reserved runtime o.mark.name) ∧
    (Hygienic code ↔ NamesApart code) ∧
    ((∀ o ∈ names, o.mark ≠ ⟨.user, "c"⟩ ∧ o.mark ≠ ⟨.user, "nodes"⟩) →
      (∀ m ∈ Marked.binders code, m.author = .user → ¬ Reserved runtime m.name) → Hygienic code) := by
  intro env code names
  have through : ThroughReceiver env := componentEnv_throughReceiver runtime u c
  have used : ∀ o ∈ names, o.mark.author = .generator → Reserved runtime o.mark.name :=
    fun o member => (renderMethod_scope c through member).1
  have exactly := hygienic_iff_namesApart through c
  refine ⟨renderMethod_shown c through, fun m => renderMethod_bound c through, used, exactly,
    fun unmentioned unbound => exactly.mpr ⟨?_, ?_, ?_⟩⟩
  · intro o member mentioned
    exact (mentioned.elim (unmentioned o member).1 (unmentioned o member).2).elim
  · intro o member generated _ bound
    exact unbound _ (Marked.mem_binders member bound) rfl (used o member generated)
  · intro o member gathers captured
    have bound := Marked.mem_binders member (Occurrence.mem_of_binder? captured)
    exact unbound _ bound rfl (.inl (by decide))

/-- A list that fetches its items into a local and shows the child for each of them. -/
def fetchedList (params : List Param) (items item child : String) : Component where
  name := ⟨"List", .none⟩
  params := params
  results := [⟨.named "Node", .none⟩]
  body := {
    vars := []
    stmts := [.simple (.assign [.single (.ident ⟨items, .none⟩)] ⟨.define, .none⟩
      [.single (.call (.name ⟨"fetch", .none⟩) [] [] .none)] .none)]
    nodes := [.element ⟨⟨"Ul", .none⟩, [], [.loop ⟨none, some ⟨item, .none⟩,
      .single (.ident ⟨items, .none⟩), [.element ⟨⟨"Li", .none⟩,
        [⟨none, .single (.ident ⟨child, .none⟩)⟩], [], .none⟩], .none⟩], .none⟩] }
  autoProps := false
  span := .none

def fetchedCode (c : Component) : Marked :=
  Marked.renderMethod (componentEnv "rt" ⟨⟨"main", .none⟩, [], [], [c], [], [], []⟩ c) c

def titleParam : Param := ⟨⟨"title", .none⟩, ⟨.named "string", .none⟩, false⟩

/-- A list with harmless names is hygienic. When its local is `nodes`, the loop ranges over its own accumulator, and not
over the local. When its item is `c`, a field of the state is read from the item, and not from the receiver. -/
theorem loop_captures_names :
    Hygienic (fetchedCode (fetchedList [titleParam] "items" "item" "title")) ∧
    (⟨⟨.user, "nodes"⟩, [⟨.generator, "nodes"⟩, ⟨.user, "nodes"⟩, ⟨.generator, "c"⟩]⟩ : Occurrence) ∈
      Marked.occurrences [] (fetchedCode (fetchedList [] "nodes" "n" "n")) ∧
    ¬ Hygienic (fetchedCode (fetchedList [] "nodes" "n" "n")) ∧
    (⟨⟨.generator, "c"⟩, [⟨.user, "c"⟩, ⟨.generator, "nodes"⟩, ⟨.user, "items"⟩, ⟨.generator, "c"⟩]⟩ : Occurrence) ∈
      Marked.occurrences [] (fetchedCode (fetchedList [titleParam] "items" "c" "title")) ∧
    ¬ Hygienic (fetchedCode (fetchedList [titleParam] "items" "c" "title")) := by
  refine ⟨?_, ?_, ?_, ?_, ?_⟩ <;> decide +kernel

end ViewLang.Go
