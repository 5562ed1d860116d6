import ViewLang.Proofs.Analysis.Lexical
import ViewLang.Proofs.Go.ScopeDiscipline

namespace ViewLang.Analysis

open Go (extend_nil extend_append extend_outer)
open Go.Lexical (Locals declared declaredBySimple declaredByStmt declaredByClause declaredByHeader)
open Lexical (Place)

theorem mem_extend {visible : Locals} {names : List String} {x : String} :
    x ∈ visible.extend names ↔ (x ∈ names ∧ x ≠ "_") ∨ x ∈ visible := by
  simp [Locals.extend]

def Checks (check : Check Unit) (visible : Locals) (names : List String) (places : List Place) : Prop :=
  ∀ scope outer found, (∀ x, x ∈ scope ++ outer.flatten ↔ x ∈ visible) →
    check.run ⟨scope :: outer, found⟩ =
      ((), ⟨Locals.extend scope names :: outer, found ++ places.filterMap Place.finding?⟩)

section

variable {visible : Locals}

theorem Checks.pure : Checks (pure ()) visible [] [] := by
  intro scope outer found _
  rw [extend_nil, List.filterMap_nil, List.append_nil]
  rfl

/-- What is checked second sees the names that the first has declared. -/
theorem Checks.bind {check : Check Unit} {next : Unit → Check Unit} {names more : List String}
    {places later : List Place} (first : Checks check visible names places)
    (second : Checks (next ()) (visible.extend names) more later) :
    Checks (check >>= next) visible (names ++ more) (places ++ later) := by
  intro scope outer found same
  have grown : ∀ x, x ∈ Locals.extend scope names ++ outer.flatten ↔ x ∈ visible.extend names := by
    intro x
    rw [extend_outer, mem_extend, mem_extend, same]
  rw [StateT.run_bind, first scope outer found same, extend_append, List.filterMap_append, ← List.append_assoc]
  exact second _ outer _ grown

theorem Checks.declaring {check : Check Unit} {next : Unit → Check Unit} {names : List String} {places : List Place}
    (first : Checks check visible [] places) (second : Checks (next ()) visible names []) :
    Checks (check >>= next) visible names places := by
  have both := first.bind second
  rw [List.append_nil] at both
  exact both

/-- Names that are visible already may be declared again. -/
theorem Checks.again {check : Check Unit} {next : Unit → Check Unit} {names more : List String}
    {places later : List Place} (first : Checks check visible names places)
    (known : ∀ x ∈ names, x ≠ "_" → x ∈ visible) (second : Checks (next ()) visible more later) :
    Checks (check >>= next) visible (names ++ more) (places ++ later) := by
  intro scope outer found same
  have kept : ∀ x, x ∈ Locals.extend scope names ++ outer.flatten ↔ x ∈ visible := by
    intro x
    rw [extend_outer, mem_extend, same]
    constructor
    · rintro (⟨declared, named⟩ | member)
      · exact known x declared named
      · exact member
    · exact Or.inr
  rw [StateT.run_bind, first scope outer found same, extend_append, List.filterMap_append, ← List.append_assoc]
  exact second _ outer _ kept

/-- Names declared in a scope of its own are gone behind it. -/
theorem Checks.inScope {check : Check Unit} {names : List String} {places : List Place}
    (inner : Checks check visible names places) : Checks (Analysis.inScope check) visible [] places := by
  intro scope outer found same
  change (do
    check
    modify fun s => { s with scopes := s.scopes.tail } : Check Unit).run ⟨[] :: scope :: outer, found⟩ = _
  rw [StateT.run_bind, inner [] (scope :: outer) found same, extend_nil]
  rfl

theorem Checks.reporting {check : Check Unit} {place : Place}
    (recorded : ∀ scopes found, (∀ x, x ∈ scopes.flatten ↔ x ∈ visible) →
      check.run ⟨scopes, found⟩ = ((), ⟨scopes, found ++ place.finding?.toList⟩)) :
    Checks check visible [] [place] := by
  intro scope outer found same
  rw [recorded (scope :: outer) found same, extend_nil]
  cases broken : place.finding? with
  | none => rw [List.filterMap_cons_none broken, Option.toList_none, List.filterMap_nil]
  | some d => rw [List.filterMap_cons_some broken, Option.toList_some, List.filterMap_nil]

theorem forM_checks {α : Type} {check : α → Check Unit} {places : α → List Place} (as : List α)
    (each : ∀ a, Checks (check a) visible [] (places a)) : Checks (as.forM check) visible [] (as.flatMap places) := by
  induction as with
  | nil => exact .pure
  | cons a as ih => exact (each a).bind ih

theorem isVisible_iff {scopes : List (List String)} (same : ∀ x, x ∈ scopes.flatten ↔ x ∈ visible) (name : String) :
    isVisible scopes name = true ↔ name = "_" ∨ name ∈ visible := by
  simp only [isVisible, Bool.or_eq_true, beq_iff_eq, List.any_eq_true, List.contains_iff_mem, ← same,
    List.mem_flatten]

theorem Checks.requiring {check : Check Unit} {place : Place} {name : Name} {d : Diagnostic}
    (body : ∀ s, check.run s = (if !isVisible s.scopes name.value then report d else Pure.pure ()).run s)
    (rule : place.finding? = if name.value = "_" ∨ name.value ∈ visible then none else some d) :
    Checks check visible [] [place] := by
  refine .reporting fun scopes found same => ?_
  have seen := isVisible_iff same name.value
  rw [body, rule]
  by_cases declared : name.value = "_" ∨ name.value ∈ visible
  · rw [if_pos declared, seen.mpr declared, Option.toList_none, List.append_nil]
    rfl
  · rw [if_neg declared, Bool.eq_false_iff.mpr (mt seen.mp declared)]
    rfl

theorem checkTarget_checks (name : Name) : Checks (checkTarget name) visible [] [.target visible name] :=
  .requiring (fun _ => rfl) rfl

theorem checkChannel_checks (name : Name) : Checks (checkChannel name) visible [] [.channel visible name] :=
  .requiring (fun _ => rfl) rfl

theorem checkCounts_checks (names values : Nat) (span : Span) :
    Checks (checkCounts names values span) visible [] [.declaration names values span] := by
  refine .reporting fun scopes found _ => ?_
  rw [checkCounts, Place.finding?]
  by_cases mismatch : 2 ≤ values ∧ names ≠ values
  · rw [if_pos mismatch, if_pos mismatch]
    rfl
  · rw [if_neg mismatch, if_neg mismatch, Option.toList_none, List.append_nil]
    rfl

theorem declare_checks (name : Name) : Checks (declare name) visible [name.value] [] := by
  intro scope outer found _
  rw [List.filterMap_nil, List.append_nil, declare, Locals.extend]
  change ((), _) = _
  dsimp only
  by_cases blank : name.value = "_"
  · rw [if_pos blank, blank]
    rfl
  · rw [if_neg blank, List.filter_cons_of_pos (by simpa using blank)]
    rfl

theorem declareAll_checks (names : List Name) : Checks (declareAll names) visible (names.map (·.value)) [] := by
  induction names generalizing visible with
  | nil => exact .pure
  | cons name names ih => exact (declare_checks name).bind ih

end

def optionally {α : Type} (check : α → Check Unit) : Option α → Check Unit
  | none => pure ()
  | some a => check a

theorem primary_slice (target : Primary) (low high : Option Expr) (span : Span) :
    primary (.slice target low high span) = (do
      primary target
      optionally expr low
      optionally expr high) := by
  cases low <;> cases high <;> rw [primary] <;> rfl

theorem definedTargets_name {e : Expr} {name : Name} (found : e.ident? = some name) (es : List Expr) :
    definedTargets (e :: es) = (do
      declare name
      definedTargets es) := by
  rw [definedTargets, found]

theorem definedTargets_expr {e : Expr} (found : e.ident? = none) (es : List Expr) :
    definedTargets (e :: es) = (do
      expr e
      definedTargets es) := by
  rw [definedTargets, found]

theorem assignedTargets_name {e : Expr} {name : Name} (found : e.ident? = some name) (es : List Expr) :
    assignedTargets (e :: es) = (do
      checkTarget name
      assignedTargets es) := by
  rw [assignedTargets, found]

theorem assignedTargets_expr {e : Expr} (found : e.ident? = none) (es : List Expr) :
    assignedTargets (e :: es) = (do
      expr e
      assignedTargets es) := by
  rw [assignedTargets, found]

theorem ifStmt_inScope (init : Option SimpleStmt) (cond : Expr) (body : Block) (otherwise : Else) (span : Span) :
    ifStmt ⟨init, cond, body, otherwise, span⟩ = inScope (do
      optionally simple init
      expr cond
      block body
      elseBranch otherwise) := by
  rw [ifStmt]
  cases init <;> rfl

theorem loopHeader_classic (init : Option SimpleStmt) (cond : Option Expr) (post : Option SimpleStmt) :
    loopHeader (.classic init cond post) = (do
      optionally simple init
      optionally expr cond
      optionally simple post) := by
  cases init <;> cases cond <;> cases post <;> rw [loopHeader] <;> rfl

mutual

theorem expr_checks (visible : Locals) : (e : Expr) → Checks (expr e) visible [] (Lexical.expr visible e)
  | ⟨head, tail, _⟩ => by
    rw [expr, Lexical.expr]
    exact (primary_checks visible head).bind (links_checks visible tail)

theorem links_checks (visible : Locals) : (ls : List Link) → Checks (links ls) visible [] (Lexical.links visible ls)
  | [] => by
    rw [links, Lexical.links]
    exact .pure
  | ⟨_, operand⟩ :: ls => by
    rw [links, Lexical.links]
    exact (primary_checks visible operand).bind (links_checks visible ls)

theorem exprs_checks (visible : Locals) : (es : List Expr) → Checks (exprs es) visible [] (Lexical.exprs visible es)
  | [] => by
    rw [exprs, Lexical.exprs]
    exact .pure
  | e :: es => by
    rw [exprs, Lexical.exprs]
    exact (expr_checks visible e).bind (exprs_checks visible es)

theorem optional_checks (visible : Locals) :
    (e : Option Expr) → Checks (optionally expr e) visible [] (Lexical.optional visible e)
  | none => by
    rw [Lexical.optional]
    exact .pure
  | some e => by
    rw [Lexical.optional]
    exact expr_checks visible e

theorem entries_checks (visible : Locals) :
    (es : List Entry) → Checks (entries es) visible [] (Lexical.entries visible es)
  | [] => by
    rw [entries, Lexical.entries]
    exact .pure
  | ⟨_, value⟩ :: es => by
    rw [entries, Lexical.entries]
    exact (expr_checks visible value).bind (entries_checks visible es)

theorem primary_checks (visible : Locals) :
    (p : Primary) → Checks (primary p) visible [] (Lexical.primary visible p)
  | .int _ => by
    rw [primary, Lexical.primary]
    exact .pure
  | .float _ => by
    rw [primary, Lexical.primary]
    exact .pure
  | .string _ => by
    rw [primary, Lexical.primary]
    exact .pure
  | .template t => by
    rw [primary, Lexical.primary]
    exact template_checks visible t
  | .composite _ es _ => by
    rw [primary, Lexical.primary]
    exact entries_checks visible es
  | .make _ args _ => by
    rw [primary, Lexical.primary]
    exact exprs_checks visible args
  | .index target index _ => by
    rw [primary, Lexical.primary]
    exact (primary_checks visible target).bind (expr_checks visible index)
  | .slice target low high span => by
    rw [primary_slice, Lexical.primary]
    exact (primary_checks visible target).bind ((optional_checks visible low).bind (optional_checks visible high))
  | .select b _ _ => by
    rw [primary, Lexical.primary]
    exact base_checks visible b
  | .call b _ args _ => by
    rw [primary, Lexical.primary]
    exact (base_checks visible b).bind (exprs_checks visible args)
  | .func params _ body _ => by
    rw [primary, Lexical.primary]
    have names : params.map (·.name.value) = (params.map (·.name)).map (·.value) := List.map_map.symm
    have inner := block_checks (visible.extend (params.map (·.name.value))) body
    rw [names] at inner ⊢
    exact ((declareAll_checks _).bind inner).inScope
  | .receive channel _ => by
    rw [primary, Lexical.primary]
    exact checkChannel_checks channel
  | .unary _ operand _ => by
    rw [primary, Lexical.primary]
    exact primary_checks visible operand
  | .paren inner => by
    rw [primary, Lexical.primary]
    exact expr_checks visible inner

theorem base_checks (visible : Locals) : (b : Base) → Checks (base b) visible [] (Lexical.base visible b)
  | .name _ => by
    rw [base, Lexical.base]
    exact .pure
  | .operand p => by
    rw [base, Lexical.base]
    exact primary_checks visible p

theorem template_checks (visible : Locals) :
    (t : Template) → Checks (template t) visible [] (Lexical.template visible t)
  | ⟨fs, _⟩ => by
    rw [template, Lexical.template]
    exact fragments_checks visible fs

theorem fragments_checks (visible : Locals) :
    (fs : List Fragment) → Checks (fragments fs) visible [] (Lexical.fragments visible fs)
  | [] => by
    rw [fragments, Lexical.fragments]
    exact .pure
  | .text _ :: fs => by
    rw [fragments, Lexical.fragments]
    exact fragments_checks visible fs
  | .interp e :: fs => by
    rw [fragments, Lexical.fragments]
    exact (expr_checks visible e).bind (fragments_checks visible fs)

theorem block_checks (visible : Locals) : (b : Block) → Checks (block b) visible [] (Lexical.block visible b)
  | ⟨ss, _⟩ => by
    rw [block, Lexical.block]
    exact (stmts_checks visible ss).inScope

theorem stmts_checks (visible : Locals) :
    (ss : List Stmt) → Checks (stmts ss) visible (declared ss) (Lexical.stmts visible ss)
  | [] => by
    rw [stmts, Lexical.stmts]
    exact .pure
  | s :: ss => by
    rw [stmts, Lexical.stmts, declared, List.flatMap_cons]
    exact (stmt_checks visible s).bind (stmts_checks (visible.extend (declaredByStmt s)) ss)

theorem stmt_checks (visible : Locals) :
    (s : Stmt) → Checks (stmt s) visible (declaredByStmt s) (Lexical.stmt visible s)
  | .var d => by
    rw [stmt, Lexical.stmt, declaredByStmt]
    exact varDecl_checks visible d
  | .simple s => by
    rw [stmt, Lexical.stmt, declaredByStmt]
    exact simple_checks visible s
  | .ret values _ => by
    rw [stmt, Lexical.stmt]
    exact exprs_checks visible values
  | .cond s => by
    rw [stmt, Lexical.stmt]
    exact ifStmt_checks visible s
  | .loop header body _ => by
    rw [stmt, Lexical.stmt]
    exact ((loopHeader_checks visible header).bind
      (block_checks (visible.extend (declaredByHeader header)) body)).inScope
  | .branch _ _ => by
    rw [stmt, Lexical.stmt]
    exact .pure

theorem definedTargets_checks (visible : Locals) : (es : List Expr) →
    Checks (definedTargets es) visible (es.filterMap fun e => e.ident?.map (·.value))
      (Lexical.definedTargets visible es)
  | [] => by
    rw [definedTargets, Lexical.definedTargets]
    exact .pure
  | e :: es => by
    rw [Lexical.definedTargets, List.filterMap_cons]
    cases found : e.ident? with
    | some name =>
      rw [definedTargets_name found]
      exact (declare_checks name).bind (definedTargets_checks (visible.extend [name.value]) es)
    | none =>
      rw [definedTargets_expr found]
      exact (expr_checks visible e).bind (definedTargets_checks visible es)

theorem assignedTargets_checks (visible : Locals) :
    (es : List Expr) → Checks (assignedTargets es) visible [] (Lexical.assignedTargets visible es)
  | [] => by
    rw [assignedTargets, Lexical.assignedTargets]
    exact .pure
  | e :: es => by
    rw [Lexical.assignedTargets]
    cases found : e.ident? with
    | some name =>
      rw [assignedTargets_name found]
      exact (checkTarget_checks name).bind (assignedTargets_checks visible es)
    | none =>
      rw [assignedTargets_expr found]
      exact (expr_checks visible e).bind (assignedTargets_checks visible es)

theorem simple_checks (visible : Locals) :
    (s : SimpleStmt) → Checks (simple s) visible (declaredBySimple s) (Lexical.simple visible s)
  | .exprs targets _ => by
    rw [simple, Lexical.simple]
    exact exprs_checks visible targets
  | .assign targets op values span => by
    rw [simple, Lexical.simple, declaredBySimple]
    refine (exprs_checks visible values).bind ?_
    cases op.value.isDeclaring with
    | true => exact (checkCounts_checks _ _ span).bind (definedTargets_checks visible targets)
    | false => exact assignedTargets_checks visible targets
  | .send channel value _ => by
    rw [simple, Lexical.simple]
    cases channel.ident? with
    | some name => exact (checkChannel_checks name).bind (expr_checks visible value)
    | none => exact (expr_checks visible channel).bind (expr_checks visible value)

theorem varDecl_checks (visible : Locals) :
    (d : VarDecl) → Checks (varDecl d) visible (d.names.map (·.value)) (Lexical.varDecl visible d)
  | ⟨names, _, values, span⟩ => by
    rw [varDecl, Lexical.varDecl]
    exact (exprs_checks visible values).bind ((checkCounts_checks _ _ span).bind (declareAll_checks names))

theorem clause_checks (visible : Locals) : (s : Option SimpleStmt) →
    Checks (optionally simple s) visible (declaredByClause s) (Lexical.clause visible s)
  | none => by
    rw [Lexical.clause]
    exact .pure
  | some s => by
    rw [Lexical.clause]
    exact simple_checks visible s

theorem ifStmt_checks (visible : Locals) : (s : IfStmt) → Checks (ifStmt s) visible [] (Lexical.ifStmt visible s)
  | ⟨init, cond, body, otherwise, span⟩ => by
    rw [ifStmt_inScope, Lexical.ifStmt]
    have test := expr_checks (visible.extend (declaredByClause init)) cond
    have taken := block_checks (visible.extend (declaredByClause init)) body
    have other := elseBranch_checks (visible.extend (declaredByClause init)) otherwise
    exact ((clause_checks visible init).bind (test.bind (taken.bind other))).inScope

theorem elseBranch_checks (visible : Locals) :
    (s : Else) → Checks (elseBranch s) visible [] (Lexical.elseBranch visible s)
  | .none => by
    rw [elseBranch, Lexical.elseBranch]
    exact .pure
  | .block b => by
    rw [elseBranch, Lexical.elseBranch]
    exact block_checks visible b
  | .chain s => by
    rw [elseBranch, Lexical.elseBranch]
    exact ifStmt_checks visible s

theorem loopHeader_checks (visible : Locals) : (header : LoopHeader) →
    Checks (loopHeader header) visible (declaredByHeader header) (Lexical.loopHeader visible header)
  | .infinite => by
    rw [loopHeader, Lexical.loopHeader]
    exact .pure
  | .cond e => by
    rw [loopHeader, Lexical.loopHeader]
    exact expr_checks visible e
  | .classic init cond post => by
    rw [loopHeader_classic, Lexical.loopHeader, declaredByHeader]
    exact (clause_checks visible init).bind ((optional_checks _ cond).bind (clause_checks _ post))
  | .range key value iterable => by
    rw [loopHeader, Lexical.loopHeader]
    exact (expr_checks visible iterable).declaring (declareAll_checks _)

end

mutual

theorem node_checks (visible : Locals) : (n : Node) → Checks (node n) visible [] (Lexical.node visible n)
  | .element e => by
    rw [node, Lexical.node]
    exact element_checks visible e
  | .text _ => by
    rw [node, Lexical.node]
    exact .pure
  | .template t => by
    rw [node, Lexical.node]
    exact template_checks visible t
  | .cond c => by
    rw [node, Lexical.node]
    exact nodeIf_checks visible c
  | .loop l => by
    rw [node, Lexical.node]
    exact nodeFor_checks visible l

theorem nodes_checks (visible : Locals) : (ns : List Node) → Checks (nodes ns) visible [] (Lexical.nodes visible ns)
  | [] => by
    rw [nodes, Lexical.nodes]
    exact .pure
  | n :: ns => by
    rw [nodes, Lexical.nodes]
    exact (node_checks visible n).bind (nodes_checks visible ns)

theorem element_checks (visible : Locals) :
    (e : Element) → Checks (element e) visible [] (Lexical.element visible e)
  | ⟨_, args, children, _⟩ => by
    rw [element, Lexical.element]
    exact (entries_checks visible args).bind (nodes_checks visible children)

theorem nodeIf_checks (visible : Locals) : (c : NodeIf) → Checks (nodeIf c) visible [] (Lexical.nodeIf visible c)
  | ⟨cond, body, otherwise, _⟩ => by
    rw [nodeIf, Lexical.nodeIf]
    exact (expr_checks visible cond).bind ((nodes_checks visible body).bind (nodes_checks visible otherwise))

theorem nodeFor_checks (visible : Locals) : (l : NodeFor) → Checks (nodeFor l) visible [] (Lexical.nodeFor visible l)
  | ⟨key, value, iterable, children, _⟩ => by
    rw [nodeFor, Lexical.nodeFor]
    have inside := nodes_checks (visible.extend ((key.toList ++ value.toList).map (·.value))) children
    exact (expr_checks visible iterable).bind ((declareAll_checks _).bind inside).inScope

end

section

variable {visible : Locals}

def checkShadow (params : List String) (name : Name) : Check Unit :=
  if name.value ≠ "_" ∧ name.value ∈ params then report (shadowedParam name) else pure ()

theorem hoist_eq (params : List String) (name : Name) :
    hoist params name = (do
      checkShadow params name
      declare name) := by
  rw [hoist, checkShadow]
  split <;> rfl

theorem checkShadow_checks (params : List String) (name : Name) :
    Checks (checkShadow params name) visible [] [.hoisted params name] := by
  refine .reporting fun scopes found _ => ?_
  rw [checkShadow, Place.finding?]
  by_cases shadows : name.value ≠ "_" ∧ name.value ∈ params
  · rw [if_pos shadows, if_pos shadows]
    rfl
  · rw [if_neg shadows, if_neg shadows, Option.toList_none, List.append_nil]
    rfl

theorem hoist_checks (params : List String) (name : Name) :
    Checks (hoist params name) visible [name.value] [.hoisted params name] := by
  rw [hoist_eq]
  exact (checkShadow_checks params name).declaring (declare_checks name)

theorem hoistAll_checks (params : List String) (names : List Name) :
    Checks (names.forM (hoist params)) visible (names.map (·.value)) (names.map (.hoisted params)) := by
  induction names generalizing visible with
  | nil => exact .pure
  | cons name names ih => exact (hoist_checks params name).bind ih

theorem hoistVars_checks (params : List String) (ds : List VarDecl) :
    Checks (ds.forM fun d => d.names.forM (hoist params)) visible ((ds.flatMap (·.names)).map (·.value))
      ((ds.flatMap (·.names)).map (.hoisted params)) := by
  induction ds generalizing visible with
  | nil => exact .pure
  | cons d ds ih =>
    rw [List.flatMap_cons, List.map_append, List.map_append]
    exact (hoistAll_checks params d.names).bind ih

/-- The variables of a body are declared a second time where they stand. -/
theorem varDecls_checks (ds : List VarDecl)
    (known : ∀ name ∈ ds.flatMap (·.names), name.value ≠ "_" → name.value ∈ visible) :
    Checks (ds.forM varDecl) visible ((ds.flatMap (·.names)).map (·.value)) (ds.flatMap (Lexical.varDecl visible)) := by
  induction ds with
  | nil => exact .pure
  | cons d ds ih =>
    rw [List.flatMap_cons, List.map_append]
    refine (varDecl_checks visible d).again ?_ (ih fun name member => known name ?_)
    · intro x member named
      obtain ⟨name, declared, rfl⟩ := List.mem_map.mp member
      exact known name (by simp [declared]) named
    · rw [List.flatMap_cons]
      exact List.mem_append_right _ member

theorem body_checks (params : List String) (b : Body) :
    Checks (body params b) visible [] (Lexical.body visible params b) := by
  have known : ∀ name ∈ b.vars.flatMap (·.names), name.value ≠ "_" →
      name.value ∈ visible.extend ((Lexical.hoistedNames b).map (·.value)) := by
    intro name member named
    exact mem_extend.mpr (.inl ⟨List.mem_map_of_mem member, named⟩)
  have again : ∀ x ∈ (b.vars.flatMap (·.names)).map (·.value), x ≠ "_" →
      x ∈ visible.extend ((Lexical.hoistedNames b).map (·.value)) := by
    intro x member named
    obtain ⟨name, declared, rfl⟩ := List.mem_map.mp member
    exact known name declared named
  exact Checks.inScope ((hoistVars_checks params b.vars).bind
    ((varDecls_checks b.vars known).again again ((stmts_checks _ b.stmts).bind (nodes_checks _ b.nodes))))

def checkView (c : Component) : Check Unit :=
  match c.isRenderable, c.body.nodes with
  | false, first :: _ => report (ignoredNodes c.name first.span)
  | _, _ => pure ()

theorem component_eq (c : Component) :
    component c = (do
      checkView c
      inScope do
        declareAll (c.params.map (·.name))
        body (c.params.map (·.name.value)) c.body) := by
  rw [component, checkView]
  cases c.isRenderable <;> cases c.body.nodes <;> rfl

theorem checkView_checks (c : Component) : Checks (checkView c) visible [] (Lexical.view c) := by
  rw [checkView, Lexical.view]
  cases c.body.nodes with
  | nil =>
    cases c.isRenderable <;> exact .pure
  | cons first rest =>
    refine .reporting fun scopes found _ => ?_
    rw [Place.finding?]
    cases c.isRenderable with
    | true =>
      rw [if_pos rfl, Option.toList_none, List.append_nil]
      rfl
    | false => rfl

theorem component_checks (c : Component) : Checks (component c) visible [] (Lexical.component visible c) := by
  rw [component_eq, Lexical.component]
  have names : c.params.map (·.name.value) = (c.params.map (·.name)).map (·.value) := List.map_map.symm
  have inside : Checks (body (c.params.map (·.name.value)) c.body)
      (visible.extend (c.params.map (·.name.value))) [] _ := body_checks _ c.body
  rw [names] at inside ⊢
  exact (checkView_checks c).bind ((declareAll_checks _).bind inside).inScope

theorem decorators_checks (ds : List Decorator) :
    Checks (decorators ds) visible [] (Lexical.decorators visible ds) :=
  forM_checks ds fun d => exprs_checks visible d.args

theorem gpuStruct_checks (s : GpuStruct) : Checks (gpuStruct s) visible [] (Lexical.gpuStruct visible s) :=
  (decorators_checks s.decorators).bind (forM_checks s.fields fun f => decorators_checks f.decorators)

theorem gpuFunction_eq (f : GpuFunction) :
    gpuFunction f = inScope (do
      declareAll (f.params.map (·.name))
      decorators f.decorators
      f.params.forM fun p => decorators p.decorators
      decorators (Lexical.resultDecorators f.result)
      block f.body) := by
  rw [gpuFunction]
  cases f.result <;> rfl

theorem gpuFunction_checks (f : GpuFunction) : Checks (gpuFunction f) visible [] (Lexical.gpuFunction visible f) := by
  rw [gpuFunction_eq, Lexical.gpuFunction]
  have names : f.params.map (·.name.value) = (f.params.map (·.name)).map (·.value) := List.map_map.symm
  rw [names]
  exact Checks.inScope ((declareAll_checks _).bind ((decorators_checks f.decorators).bind
    ((forM_checks f.params fun p => decorators_checks p.decorators).bind
      ((decorators_checks _).bind (block_checks _ f.body)))))

end

def unitBody (u : SourceUnit) : Check Unit := do
  u.components.forM component
  u.gpuStructs.forM gpuStruct
  u.gpuBindings.forM fun b => decorators b.decorators
  u.gpuFunctions.forM gpuFunction

theorem unitBody_checks (u : SourceUnit) : Checks (unitBody u) (Lexical.bindings u) [] (Lexical.places u) :=
  (forM_checks u.components component_checks).bind ((forM_checks u.gpuStructs gpuStruct_checks).bind
    ((forM_checks u.gpuBindings fun b => decorators_checks b.decorators).bind
      (forM_checks u.gpuFunctions gpuFunction_checks)))

theorem sourceUnit_run (u : SourceUnit) :
    (sourceUnit u).run ⟨[], []⟩ = ((), ⟨[], (Lexical.places u).filterMap Place.finding?⟩) := by
  have names : u.gpuBindings.map (·.name.value) = (u.gpuBindings.map (·.name)).map (·.value) := List.map_map.symm
  have inside := unitBody_checks u
  rw [Lexical.bindings, names] at inside
  have both : Checks (declareAll (u.gpuBindings.map (·.name)) >>= fun _ => unitBody u) [] _ _ :=
    (declareAll_checks _).bind inside
  change (do
    declareAll (u.gpuBindings.map (·.name))
    unitBody u
    modify fun s => { s with scopes := s.scopes.tail } : Check Unit).run ⟨[[]], []⟩ = _
  rw [← bind_assoc, StateT.run_bind, both [] [] [] fun _ => Iff.rfl]
  rfl

def componentFindings (u : SourceUnit) (c : Component) : List Diagnostic :=
  ((do
    declareAll (u.gpuBindings.map (·.name))
    component c : Check Unit).run ⟨[[]], []⟩).2.found

theorem componentFindings_eq (u : SourceUnit) (c : Component) :
    componentFindings u c = (Lexical.component (Lexical.bindings u) c).filterMap Place.finding? := by
  have names : u.gpuBindings.map (·.name.value) = (u.gpuBindings.map (·.name)).map (·.value) := List.map_map.symm
  have inside : Checks (component c) (Lexical.bindings u) [] _ := component_checks c
  rw [Lexical.bindings, names] at inside
  have both : Checks (declareAll (u.gpuBindings.map (·.name)) >>= fun _ => component c) [] _ _ :=
    (declareAll_checks _).bind inside
  rw [componentFindings, both [] [] [] fun _ => Iff.rfl, Lexical.bindings, names]
  rfl

theorem componentFindings_subset {u : SourceUnit} {c : Component} (member : c ∈ u.components) :
    componentFindings u c ⊆ analyze u := by
  intro d found
  rw [componentFindings_eq] at found
  obtain ⟨place, inside, broken⟩ := List.mem_filterMap.mp found
  rw [analyze, sourceUnit_run]
  refine List.mem_filterMap.mpr ⟨place, ?_, broken⟩
  exact List.mem_append_left _ (List.mem_flatMap.mpr ⟨c, member, inside⟩)

/-- The check finds exactly what the places of the unit break, in their order. -/
theorem analyze_is_lexical (u : SourceUnit) : analyze u = (Lexical.places u).filterMap Place.finding? := by
  rw [analyze, sourceUnit_run]

end ViewLang.Analysis
