import ViewLang.Proofs.Go.ScopeDiscipline

namespace ViewLang.Go

open Lexical (Locals)

section

variable {env : Env} {locals : Locals} {level : Nat}

theorem textChild_runs (e : Expr) (value : String) :
    Runs (Lower.textChild env e value) locals (Lexical.textChild env e value) [] false := by
  rw [Lower.textChild, Lexical.textChild]
  refine (runtime_runs "Text").bind ?_
  cases e.primary? with
  | none => exact useFmt_runs.map _
  | some p =>
    cases p with
    | string _ => exact .pure _
    | template _ => exact .pure _
    | _ => exact useFmt_runs.map _

theorem elementArgs_runs (args : List Entry) :
    Runs (Lower.elementArgs env level args) locals (Lexical.elementArgs env locals level args) [] false := by
  induction args with
  | nil => exact .pure _
  | cons arg args ih =>
    obtain ⟨key, value⟩ := arg
    cases key with
    | some key => exact (expr_runs env locals level value).bind (ih.map _)
    | none => exact (expr_runs env locals level value).bind ((textChild_runs value _).bind (ih.map _))

theorem propChildren_runs (ns : List Node) :
    Runs (Lower.propChildren env level ns) locals (ns.filterMap (Lexical.propChild env locals level)) [] false := by
  induction ns with
  | nil => exact .pure _
  | cons n ns ih =>
    rw [List.filterMap_cons]
    cases n with
    | element e =>
      obtain ⟨tag, args, children, span⟩ := e
      rw [Lower.propChildren.eq_def, Lexical.propChild]
      dsimp only
      cases Vocabulary.prop? tag.value with
      | none => exact ih
      | some key =>
        cases args with
        | nil => exact ih
        | cons arg args =>
          obtain ⟨_, value⟩ := arg
          exact (expr_runs env locals level value).bind (ih.map _)
    | text t => exact ih
    | template t => exact ih
    | cond c => exact ih
    | loop l => exact ih

theorem optionArgs_runs (tag : String) (params positional : List Param) (args : List Entry) :
    Runs (Lower.optionArgs env level tag params positional args) locals
      (Lexical.optionArgs env locals level tag params positional args) [] false := by
  induction args generalizing positional with
  | nil =>
    rw [Lower.optionArgs, Lexical.optionArgs]
    exact .pure []
  | cons arg args ih =>
    obtain ⟨key, value⟩ := arg
    cases key with
    | some name =>
      rw [Lower.optionArgs, Lexical.optionArgs]
      cases params.find? (·.name.value == name.value) with
      | none => exact ih positional
      | some p => exact (expr_runs env locals level value).bind ((ih positional).map _)
    | none =>
      cases positional with
      | nil =>
        rw [Lower.optionArgs, Lexical.optionArgs]
        exact ih []
      | cons p positional =>
        rw [Lower.optionArgs, Lexical.optionArgs]
        exact (expr_runs env locals level value).bind ((ih positional).map _)

theorem paramArgs_runs (args positional : List Entry) (ps : List Param) :
    Runs (Lower.paramArgs env level args positional ps) locals
      (Lexical.paramArgs env locals level args positional ps) [] false := by
  induction ps generalizing positional with
  | nil => exact .pure []
  | cons p ps ih =>
    rw [Lower.paramArgs.eq_def, Lexical.paramArgs.eq_def]
    dsimp only
    cases Lower.namedArg? args p with
    | some a =>
      cases p.variadic with
      | true => exact (expr_runs env locals level a.value).bind ((ih positional).map _)
      | false => exact (expr_runs env locals level a.value).bind ((ih positional).map _)
    | none =>
      cases p.variadic with
      | true => exact (exprs_runs env locals level _).bind ((ih []).map _)
      | false =>
        cases positional with
        | nil => exact (type_runs p.ty.value).bind ((ih []).map _)
        | cons a positional => exact (expr_runs env locals level a.value).bind ((ih positional).map _)

theorem embedArgs_runs (tag : String) (args : List Entry) :
    Runs (Lower.embedArgs env level tag args) locals (Lexical.embedArgs env locals level tag args) [] false := by
  rw [Lower.embedArgs, Lexical.embedArgs]
  cases env.components.find? (·.name.value == tag) with
  | none => exact exprs_runs env locals level _
  | some c =>
    dsimp only
    cases c.isRenderable with
    | false => exact exprs_runs env locals level _
    | true =>
      cases c.autoProps with
      | true => exact optionArgs_runs tag c.params c.params args
      | false => exact paramArgs_runs args _ c.params

theorem embed_runs (tag : String) (args : List Entry) :
    Runs (Lower.embed env level tag args) locals (Lexical.embed env locals level tag args) [] false :=
  (embedArgs_runs tag args).bind ((runtime_runs "Embed").map _)

theorem listText_runs (texts : List String) :
    Runs (Lower.listText env level texts) locals (Lexical.listText env level texts) [] false := by
  match texts with
  | [] => exact .pure _
  | [_] => exact .pure _
  | _ :: _ :: _ => exact (runtime_runs "Fragment").map _

end

theorem nodeFor_inScope (env : Env) (level : Nat) (key value : Option Name) (iterable : Expr) (children : List Node)
    (span : Span) :
    Lower.nodeFor env level ⟨key, value, iterable, children, span⟩ = (do
      let type ← Lower.runtime env "Node"
      let fragment ← Lower.runtime env "Fragment"
      let iterable ← Lower.expr env (level + 1) iterable
      let texts ← Lower.inScope (do
        Lower.declareAll (key.toList ++ value.toList)
        Lower.nodes env (Lower.listLevel (level + 2) children) children)
      pure ("func() " ++ type ++ " \x7b\n" ++
        Lower.pad (level + 1) ++ "var nodes []" ++ type ++ "\n" ++
        Lower.pad (level + 1) ++ "for " ++ Lower.rangeVars key value ++ "range " ++ iterable ++ " \x7b\n" ++
        Lower.appendText (level + 2) texts ++
        Lower.pad (level + 1) ++ "\x7d\n" ++
        Lower.pad (level + 1) ++ "return " ++ fragment ++ "(nodes...)\n" ++
        Lower.pad level ++ "\x7d()")) := by
  rw [Lower.nodeFor]
  rfl

mutual

theorem node_runs (env : Env) (locals : Locals) (level : Nat) :
    (n : Node) → Runs (Lower.node env level n) locals (Lexical.node env locals level n) [] false
  | .element e => by
    rw [Lower.node, Lexical.node]
    exact element_runs env locals level e
  | .text t => by
    rw [Lower.node, Lexical.node]
    exact (runtime_runs "Text").map _
  | .template t => by
    rw [Lower.node, Lexical.node]
    exact (template_runs env locals level t).bind ((runtime_runs "Text").map _)
  | .cond c => by
    rw [Lower.node, Lexical.node]
    exact nodeIf_runs env locals level c
  | .loop l => by
    rw [Lower.node, Lexical.node]
    exact nodeFor_runs env locals level l

theorem nodes_runs (env : Env) (locals : Locals) (level : Nat) :
    (ns : List Node) → Runs (Lower.nodes env level ns) locals (Lexical.nodes env locals level ns) [] false
  | [] => by
    rw [Lower.nodes, Lexical.nodes]
    exact .pure []
  | n :: ns => by
    rw [Lower.nodes, Lexical.nodes]
    cases (Lower.propKey? n).isSome with
    | true => exact nodes_runs env locals level ns
    | false => exact (node_runs env locals level n).bind ((nodes_runs env locals level ns).map _)

theorem element_runs (env : Env) (locals : Locals) (level : Nat) :
    (e : Element) → Runs (Lower.element env level e) locals (Lexical.element env locals level e) [] false
  | ⟨tag, args, children, _⟩ => by
    rw [Lower.element, Lexical.element]
    cases Vocabulary.tag? tag.value with
    | none => exact embed_runs tag.value args
    | some html =>
      have entries : Runs (Lower.elementArgs env level args) locals _ [] false := elementArgs_runs args
      have given : Runs (Lower.propChildren env level children) locals _ [] false := propChildren_runs children
      generalize Lexical.elementArgs env locals level args = parts at entries ⊢
      generalize children.filterMap (Lexical.propChild env locals level) = more at given ⊢
      obtain ⟨props, texts⟩ := parts
      refine entries.bind (given.bind ((nodes_runs env locals (level + 1) children).bind ?_))
      dsimp only [Lexical.props]
      have call : Runs (Lower.runtime env "Element") locals (Lexical.runtime env "Element") [] false := runtime_runs _
      cases (props ++ more).isEmpty with
      | true => exact Runs.bind (.pure "nil") (call.map _)
      | false => exact (runtime_runs "Props").bind (Runs.bind (.pure _) (call.map _))

theorem nodeIf_runs (env : Env) (locals : Locals) (level : Nat) :
    (c : NodeIf) → Runs (Lower.nodeIf env level c) locals (Lexical.nodeIf env locals level c) [] false
  | ⟨cond, body, otherwise, _⟩ => by
    rw [Lower.nodeIf, Lexical.nodeIf]
    exact (runtime_runs "Node").bind ((expr_runs env locals (level + 1) cond).bind
      ((nodes_runs env locals _ body).bind ((listText_runs _).bind
        ((nodes_runs env locals _ otherwise).bind ((listText_runs _).map _)))))

theorem nodeFor_runs (env : Env) (locals : Locals) (level : Nat) :
    (l : NodeFor) → Runs (Lower.nodeFor env level l) locals (Lexical.nodeFor env locals level l) [] false
  | ⟨key, value, iterable, children, _⟩ => by
    rw [nodeFor_inScope, Lexical.nodeFor]
    have inside := nodes_runs env (locals.extend ((key.toList ++ value.toList).map (·.value)))
      (Lower.listLevel (level + 2) children) children
    refine (runtime_runs "Node").bind ((runtime_runs "Fragment").bind
      ((expr_runs env locals (level + 1) iterable).bind ?_))
    exact Runs.map _ (Runs.inScope ((declareAll_runs _).bind inside))

end

theorem nodeList_runs (env : Env) (locals : Locals) (level : Nat) (ns : List Node) :
    Runs (Lower.nodeList env level ns) locals (Lexical.nodeList env locals level ns) [] false :=
  (nodes_runs env locals _ ns).bind (listText_runs _)

/-- From any stack of scopes: statements, nodes and expressions are lowered to the lexical text for the names in the
stack. Nodes and expressions leave both stacks as they were. Statements add what they declare to the innermost scope,
and set the flag of the function literal around them, if there is one, when they assign state. -/
theorem lowering_is_lexical (env : Env) (level : Nat) (scope : List String) (outer : List (List String))
    (writes : List Bool) (uses : Uses) :
    (∀ ss, ∃ uses', (Lower.stmts env level ss).run ⟨scope :: outer, writes, uses⟩ =
      (Lexical.stmts env (scope ++ outer.flatten) level ss,
        ⟨Locals.extend scope (Lexical.declared ss) :: outer,
          noted writes (Lexical.stmtsAssign env (scope ++ outer.flatten) ss), uses'⟩)) ∧
    (∀ ns, ∃ uses', (Lower.nodeList env level ns).run ⟨scope :: outer, writes, uses⟩ =
      (Lexical.nodeList env (scope ++ outer.flatten) level ns, ⟨scope :: outer, writes, uses'⟩)) ∧
    ∀ e, ∃ uses', (Lower.expr env level e).run ⟨scope :: outer, writes, uses⟩ =
      (Lexical.expr env (scope ++ outer.flatten) level e, ⟨scope :: outer, writes, uses'⟩) := by
  refine ⟨fun ss => ?_, fun ns => ?_, fun e => ?_⟩
  · exact stmts_runs env _ level ss scope outer writes uses rfl
  · have nodes := nodeList_runs env _ level ns scope outer writes uses rfl
    rw [noted_false] at nodes
    exact nodes
  · have text := expr_runs env _ level e scope outer writes uses rfl
    rw [noted_false] at text
    exact text

end ViewLang.Go
