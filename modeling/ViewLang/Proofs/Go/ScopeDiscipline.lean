import ViewLang.Proofs.Go.Lexical

namespace ViewLang.Go

open Lexical (Locals)

/-- The flags of open function literals after code that assigns state or not. -/
def noted : List Bool → Bool → List Bool
  | [], _ => []
  | flag :: outer, assigned => (flag || assigned) :: outer

@[simp] theorem noted_false (writes : List Bool) : noted writes false = writes := by
  cases writes with
  | nil => rfl
  | cons flag outer => rw [noted, Bool.or_false]

theorem noted_noted (writes : List Bool) (first second : Bool) :
    noted (noted writes first) second = noted writes (first || second) := by
  cases writes with
  | nil => rfl
  | cons flag outer => rw [noted, noted, noted, Bool.or_assoc]

@[simp] theorem extend_nil (locals : Locals) : locals.extend [] = locals := rfl

theorem extend_append (locals : Locals) (first second : List String) :
    locals.extend (first ++ second) = (locals.extend first).extend second := by
  simp only [Locals.extend, List.filter_append, List.reverse_append, List.append_assoc]

theorem extend_outer (scope : Locals) (names outer : List String) :
    scope.extend names ++ outer = Locals.extend (scope ++ outer) names := by
  simp only [Locals.extend, List.append_assoc]

def Runs {α : Type} (act : Lower α) (locals : Locals) (a : α) (names : List String) (assigned : Bool) : Prop :=
  ∀ scope outer writes uses, scope ++ outer.flatten = locals → ∃ uses',
    act.run ⟨scope :: outer, writes, uses⟩ = (a, ⟨Locals.extend scope names :: outer, noted writes assigned, uses'⟩)

section

variable {α β : Type} {locals : Locals} {env : Env}

theorem Runs.pure (a : α) : Runs (pure a) locals a [] false := by
  intro scope outer writes uses _
  exact ⟨uses, by rw [extend_nil, noted_false]; rfl⟩

/-- What runs second sees the names that the first has declared. -/
theorem Runs.bind {act : Lower α} {next : α → Lower β} {a : α} {b : β} {names more : List String}
    {assigned later : Bool} (first : Runs act locals a names assigned)
    (second : Runs (next a) (locals.extend names) b more later) :
    Runs (act >>= next) locals b (names ++ more) (assigned || later) := by
  intro scope outer writes uses same
  obtain ⟨between, ran⟩ := first scope outer writes uses same
  have grown : scope.extend names ++ outer.flatten = locals.extend names := by rw [extend_outer, same]
  obtain ⟨after, finished⟩ := second _ outer (noted writes assigned) between grown
  refine ⟨after, ?_⟩
  rw [StateT.run_bind, ran, extend_append, ← noted_noted]
  exact finished

theorem Runs.followed {act : Lower α} {next : α → Lower β} {a : α} {b : β} {names : List String} {assigned : Bool}
    (first : Runs act locals a names assigned) (second : Runs (next a) (locals.extend names) b [] false) :
    Runs (act >>= next) locals b names assigned := by
  have both := first.bind second
  rw [List.append_nil, Bool.or_false] at both
  exact both

theorem Runs.map {act : Lower α} {a : α} {names : List String} {assigned : Bool} (f : α → β)
    (first : Runs act locals a names assigned) : Runs (act >>= fun x => Pure.pure (f x)) locals (f a) names assigned :=
  first.followed (.pure (f a))

theorem Runs.keeping {change : LowerState → LowerState}
    (kept : ∀ scopes writes uses, ∃ uses', change ⟨scopes, writes, uses⟩ = ⟨scopes, writes, uses'⟩) :
    Runs (modify change) locals () [] false := by
  intro scope outer writes uses _
  obtain ⟨uses', changed⟩ := kept (scope :: outer) writes uses
  refine ⟨uses', ?_⟩
  rw [extend_nil, noted_false, ← changed]
  rfl

theorem Runs.reading {next : LowerState → Lower β} {b : β} {names : List String} {assigned : Bool}
    (seen : ∀ s, s.scopes.flatten = locals → Runs (next s) locals b names assigned) :
    Runs (get >>= next) locals b names assigned := by
  intro scope outer writes uses same
  exact seen ⟨scope :: outer, writes, uses⟩ same scope outer writes uses same

/-- Names declared in a scope of its own are gone behind it. -/
theorem Runs.inScope {act : Lower α} {a : α} {names : List String} {assigned : Bool}
    (inner : Runs act locals a names assigned) : Runs (Lower.inScope act) locals a [] assigned := by
  intro scope outer writes uses same
  obtain ⟨uses', ran⟩ := inner [] (scope :: outer) writes uses same
  refine ⟨uses', ?_⟩
  change (do
    let a ← act
    modify .popScope
    Pure.pure a : Lower α).run ⟨[] :: scope :: outer, writes, uses⟩ = _
  rw [StateT.run_bind, ran]
  rfl

theorem isLocal_iff {s : LowerState} (same : s.scopes.flatten = locals) (name : String) :
    s.isLocal name = true ↔ name ∈ locals := by
  simp only [LowerState.isLocal, List.any_eq_true, List.contains_iff_mem, ← same, List.mem_flatten]

theorem field?_eq {s : LowerState} (same : s.scopes.flatten = locals) (name : String) :
    s.field? env name = Lexical.field? env locals name := by
  simp only [LowerState.field?, Lexical.field?, isLocal_iff same]

theorem latest?_eq {s : LowerState} (same : s.scopes.flatten = locals) (name : String) :
    s.latest? env name = Lexical.latest? env locals name := by
  simp only [LowerState.latest?, Lexical.latest?, isLocal_iff same]

theorem resolve_runs (name : String) :
    Runs (Lower.resolve env name) locals (Lexical.name env locals name) [] false := by
  refine .reading fun s same => ?_
  rw [field?_eq same]
  exact .pure _

theorem receive_runs (level : Nat) (channel : Name) (span : Span) :
    Runs (Lower.primary env level (.receive channel span)) locals (Lexical.receive env locals channel.value) []
      false := by
  rw [Lower.primary, Lexical.receive]
  refine .reading fun s same => ?_
  rw [latest?_eq same]
  cases Lexical.latest? env locals channel.value with
  | some field => exact .pure field
  | none => exact (resolve_runs channel.value).map _

theorem declare_runs (name : String) : Runs (Lower.declare name) locals () [name] false := by
  intro scope outer writes uses _
  refine ⟨uses, ?_⟩
  rw [noted_false]
  change ((), LowerState.declare ⟨scope :: outer, writes, uses⟩ name) = _
  rw [LowerState.declare, Locals.extend]
  by_cases blank : name = "_"
  · rw [if_pos blank, blank]
    rfl
  · rw [if_neg blank, List.filter_cons_of_pos (by simpa using blank)]
    rfl

theorem declareAll_runs (names : List Name) :
    Runs (Lower.declareAll names) locals () (names.map (·.value)) false := by
  induction names generalizing locals with
  | nil => exact .pure ()
  | cons name names ih => exact (declare_runs name.value).bind ih

theorem useFmt_runs : Runs (modify .useFmt) locals () [] false := .keeping fun _ _ _ => ⟨_, rfl⟩

theorem useRuntime_runs : Runs (modify .useRuntime) locals () [] false := .keeping fun _ _ _ => ⟨_, rfl⟩

theorem runtime_runs (name : String) : Runs (Lower.runtime env name) locals (Lexical.runtime env name) [] false :=
  useRuntime_runs.map _

theorem type_runs (ty : TypeExpr) : Runs (Lower.type env ty) locals (Lexical.type env ty) [] false := by
  rw [Lower.type, Lexical.type]
  obtain ⟨text, uses⟩ := Go.type env.runtime ty
  cases uses with
  | false => exact .pure text
  | true => exact useRuntime_runs.bind (.pure text)

theorem params_runs (ps : List Param) : Runs (Lower.params env ps) locals (Lexical.params env ps) [] false := by
  induction ps with
  | nil => exact .pure []
  | cons p ps ih => exact (type_runs _).bind (ih.map _)

theorem typeList_runs (ts : List (Located TypeExpr)) :
    Runs (Lower.typeList env ts) locals (ts.map fun t => Lexical.type env t.value) [] false := by
  induction ts with
  | nil => exact .pure []
  | cons t ts ih => exact (type_runs _).bind (ih.map _)

theorem noteTarget_runs (target : Expr) :
    Runs (Lower.noteTarget env target) locals () [] (Lexical.isField env locals target) := by
  rw [Lower.noteTarget, Lexical.isField]
  split
  · rename_i none
    rw [none]
    exact .pure ()
  · rename_i base found
    rw [found, Option.any_some]
    refine .reading fun s same => ?_
    rw [field?_eq same]
    intro scope outer writes uses _
    refine ⟨uses, ?_⟩
    cases (Lexical.field? env locals base.value).isSome with
    | false =>
      rw [noted_false]
      rfl
    | true =>
      cases writes with
      | nil => rfl
      | cons flag writes =>
        rw [noted, Bool.or_true]
        rfl

theorem noteTargets_runs (targets : List Expr) :
    Runs (targets.forM (Lower.noteTarget env)) locals () [] (targets.any (Lexical.isField env locals)) := by
  induction targets with
  | nil => exact .pure ()
  | cons target targets ih => exact (noteTarget_runs target).bind ih

/-- A function literal has a scope for its parameters and a flag of its own. -/
theorem literal_runs {act : Lower Doc} {doc : Doc} {names : List Name} {assigned : Bool} (text : Doc → Bool → String)
    (body : Runs act (locals.extend (names.map (·.value))) doc [] assigned) :
    Runs (do
      modify fun s => { s.pushScope with writes := false :: s.writes }
      Lower.declareAll names
      let body ← act
      let writesState := (← get).writes.head?.getD false
      modify fun s => { s.popScope with writes := s.writes.tail }
      pure (text body writesState)) locals (text doc assigned) [] false := by
  intro scope outer writes uses same
  -- Parameters and body run on a fresh scope and a fresh flag, both of which are dropped behind them.
  have inner : Runs (Lower.declareAll names >>= fun _ => act) locals doc _ _ := (declareAll_runs names).bind body
  obtain ⟨uses', ran⟩ := inner [] (scope :: outer) (false :: writes) uses same
  refine ⟨uses', ?_⟩
  change ((Lower.declareAll names >>= fun _ => act) >>= fun body => do
    let writesState := (← get).writes.head?.getD false
    modify fun s => { s.popScope with writes := s.writes.tail }
    pure (text body writesState) : Lower String).run ⟨[] :: scope :: outer, false :: writes, uses⟩ = _
  rw [StateT.run_bind, ran, noted_false]
  rfl

end

section

variable (env : Env) (level : Nat)

def optionally {α : Type} (act : α → Lower String) : Option α → Lower String
  | none => pure ""
  | some a => act a

theorem primary_slice (target : Primary) (low high : Option Expr) (span : Span) :
    Lower.primary env level (.slice target low high span) = (do
      let target ← Lower.primary env level target
      let low ← optionally (Lower.expr env level) low
      let high ← optionally (Lower.expr env level) high
      pure (target ++ "[" ++ low ++ ":" ++ high ++ "]")) := by
  rw [Lower.primary]
  cases low <;> cases high <;> rfl

theorem block_inScope (ss : List Stmt) (span : Span) :
    Lower.block env level ⟨ss, span⟩ = Lower.inScope (Lower.stmts env level ss) := by
  rw [Lower.block]
  rfl

theorem stmt_loop (header : LoopHeader) (body : Block) (span : Span) :
    Lower.stmt env level (.loop header body span) = Lower.inScope (do
      let head ← Lower.loopHead env level header
      let body ← Lower.block env (level + 1) body
      pure (.text level head :: body ++ [.text level "\x7d"])) := by
  rw [Lower.stmt]
  rfl

theorem ifStmt_inScope (opening : String) (init : Option SimpleStmt) (cond : Expr) (body : Block) (otherwise : Else)
    (span : Span) :
    Lower.ifStmt env level opening ⟨init, cond, body, otherwise, span⟩ = Lower.inScope (do
      let init ← optionally (fun s => do
        let text ← Lower.simple env level s
        pure (text ++ "; ")) init
      let cond ← Lower.expr env level cond
      let body ← Lower.block env (level + 1) body
      let otherwise ← Lower.elseBranch env level otherwise
      pure (.text level (opening ++ init ++ cond ++ " \x7b") :: body ++ otherwise)) := by
  rw [Lower.ifStmt]
  cases init <;> rfl

theorem loopHead_classic (init : Option SimpleStmt) (cond : Option Expr) (post : Option SimpleStmt) :
    Lower.loopHead env level (.classic init cond post) = (do
      let init ← optionally (Lower.simple env level) init
      let cond ← optionally (Lower.expr env level) cond
      let post ← optionally (Lower.simple env level) post
      pure ("for " ++ init ++ "; " ++ cond ++ "; " ++ post ++ " \x7b")) := by
  cases init <;> cases cond <;> cases post <;> rw [Lower.loopHead] <;> rfl

theorem varDecl_eq (names : List Name) (ty : Option (Located TypeExpr)) (values : List Expr) (span : Span) :
    Lower.varDecl env level ⟨names, ty, values, span⟩ = (do
      let ty ← optionally (fun t => do
        let text ← Lower.type env t.value
        pure (" " ++ text)) ty
      let values ← Lower.exprs env level values
      Lower.declareAll names
      pure ("var " ++ ", ".intercalate (names.map (·.value)) ++ ty ++
        (if values.isEmpty then "" else " = " ++ ", ".intercalate values))) := by
  cases ty <;> rw [Lower.varDecl] <;> rfl

theorem typeSuffix_runs {env : Env} {locals : Locals} (ty : Option (Located TypeExpr)) :
    Runs (optionally (fun t => do
      let text ← Lower.type env t.value
      pure (" " ++ text)) ty) locals (Lexical.typeSuffix env ty) [] false := by
  cases ty with
  | none => exact .pure ""
  | some t => exact (type_runs t.value).map _

theorem definedTargets_name {e : Expr} {name : Name} (found : e.ident? = some name) (es : List Expr) :
    Lower.definedTargets env level (e :: es) = (do
      Lower.declare name.value
      let rest ← Lower.definedTargets env level es
      pure (name.value :: rest)) := by
  rw [Lower.definedTargets, found]
  rfl

theorem definedTargets_expr {e : Expr} (found : e.ident? = none) (es : List Expr) :
    Lower.definedTargets env level (e :: es) = (do
      let text ← Lower.expr env level e
      let rest ← Lower.definedTargets env level es
      pure (text :: rest)) := by
  rw [Lower.definedTargets, found]

end

mutual

theorem expr_runs (env : Env) (locals : Locals) (level : Nat) :
    (e : Expr) → Runs (Lower.expr env level e) locals (Lexical.expr env locals level e) [] false
  | ⟨head, tail, _⟩ => by
    rw [Lower.expr, Lexical.expr]
    exact (primary_runs env locals level head).bind ((links_runs env locals level tail).map _)

theorem links_runs (env : Env) (locals : Locals) (level : Nat) :
    (ls : List Link) → Runs (Lower.links env level ls) locals (Lexical.links env locals level ls) [] false
  | [] => by
    rw [Lower.links, Lexical.links]
    exact .pure _
  | ⟨op, operand⟩ :: ls => by
    rw [Lower.links, Lexical.links]
    exact (primary_runs env locals level operand).bind ((links_runs env locals level ls).map _)

theorem exprs_runs (env : Env) (locals : Locals) (level : Nat) :
    (es : List Expr) → Runs (Lower.exprs env level es) locals (Lexical.exprs env locals level es) [] false
  | [] => by
    rw [Lower.exprs, Lexical.exprs]
    exact .pure _
  | e :: es => by
    rw [Lower.exprs, Lexical.exprs]
    exact (expr_runs env locals level e).bind ((exprs_runs env locals level es).map _)

theorem entries_runs (env : Env) (locals : Locals) (level : Nat) :
    (es : List Entry) → Runs (Lower.entries env level es) locals (Lexical.entries env locals level es) [] false
  | [] => by
    rw [Lower.entries, Lexical.entries]
    exact .pure _
  | ⟨some key, value⟩ :: es => by
    rw [Lower.entries, Lexical.entries]
    exact (expr_runs env locals level value).bind ((entries_runs env locals level es).map _)
  | ⟨none, value⟩ :: es => by
    rw [Lower.entries, Lexical.entries]
    exact (expr_runs env locals level value).bind ((entries_runs env locals level es).map _)

theorem optional_runs (env : Env) (locals : Locals) (level : Nat) : (e : Option Expr) →
    Runs (optionally (Lower.expr env level) e) locals (Lexical.optional env locals level e) [] false
  | none => by
    rw [Lexical.optional]
    exact .pure _
  | some e => by
    rw [Lexical.optional]
    exact expr_runs env locals level e

theorem primary_runs (env : Env) (locals : Locals) (level : Nat) :
    (p : Primary) → Runs (Lower.primary env level p) locals (Lexical.primary env locals level p) [] false
  | .int text => by
    rw [Lower.primary, Lexical.primary]
    exact .pure _
  | .float text => by
    rw [Lower.primary, Lexical.primary]
    exact .pure _
  | .string text => by
    rw [Lower.primary, Lexical.primary]
    exact .pure _
  | .template t => by
    rw [Lower.primary, Lexical.primary]
    exact template_runs env locals level t
  | .composite ty es _ => by
    rw [Lower.primary, Lexical.primary]
    exact (type_runs ty.value).bind ((entries_runs env locals level es).map _)
  | .make ty args _ => by
    rw [Lower.primary, Lexical.primary]
    exact (type_runs ty.value).bind ((exprs_runs env locals level args).map _)
  | .index target index _ => by
    rw [Lower.primary, Lexical.primary]
    exact (primary_runs env locals level target).bind ((expr_runs env locals level index).map _)
  | .slice target low high _ => by
    rw [primary_slice, Lexical.primary]
    exact (primary_runs env locals level target).bind
      ((optional_runs env locals level low).bind ((optional_runs env locals level high).map _))
  | .select b segments _ => by
    rw [Lower.primary, Lexical.primary]
    exact (base_runs env locals level b).map _
  | .call b segments args _ => by
    rw [Lower.primary, Lexical.primary]
    exact (base_runs env locals level b).bind ((exprs_runs env locals level args).map _)
  | .func ps results body _ => by
    rw [Lower.primary, Lexical.primary]
    have names : ps.map (·.name.value) = (ps.map (·.name)).map (·.value) := List.map_map.symm
    have inner := block_runs env (locals.extend (ps.map (·.name.value))) (level + 1) body
    rw [names] at inner ⊢
    exact (params_runs ps).bind ((typeList_runs results).bind (literal_runs (Lower.funcText level _) inner))
  | .receive channel span => by
    rw [Lexical.primary]
    exact receive_runs level channel span
  | .unary op operand _ => by
    rw [Lower.primary, Lexical.primary]
    exact (primary_runs env locals level operand).map _
  | .paren inner => by
    rw [Lower.primary, Lexical.primary]
    exact (expr_runs env locals level inner).map _

theorem base_runs (env : Env) (locals : Locals) (level : Nat) :
    (b : Base) → Runs (Lower.base env level b) locals (Lexical.base env locals level b) [] false
  | .name n => by
    rw [Lower.base, Lexical.base]
    exact resolve_runs n.value
  | .operand p => by
    rw [Lower.base, Lexical.base]
    exact primary_runs env locals level p

theorem template_runs (env : Env) (locals : Locals) (level : Nat) :
    (t : Template) → Runs (Lower.template env level t) locals (Lexical.template env locals level t) [] false
  | ⟨fs, _⟩ => by
    rw [Lower.template, Lexical.template]
    refine (fragments_runs env locals level fs).bind ?_
    dsimp only
    by_cases plain : (Lexical.interpolated env locals level fs).isEmpty = true
    · rw [if_pos plain, if_pos plain]
      exact .pure _
    · rw [if_neg plain, if_neg plain]
      exact useFmt_runs.map _

theorem fragments_runs (env : Env) (locals : Locals) (level : Nat) :
    (fs : List Fragment) → Runs (Lower.fragments env level fs) locals
      (Lexical.format fs, Lexical.interpolated env locals level fs) [] false
  | [] => by
    rw [Lower.fragments, Lexical.format, Lexical.interpolated]
    exact .pure _
  | .text s :: fs => by
    rw [Lower.fragments, Lexical.format, Lexical.interpolated]
    exact (fragments_runs env locals level fs).map _
  | .interp e :: fs => by
    rw [Lower.fragments, Lexical.format, Lexical.interpolated]
    exact (expr_runs env locals level e).bind ((fragments_runs env locals level fs).map _)

theorem block_runs (env : Env) (locals : Locals) (level : Nat) :
    (b : Block) → Runs (Lower.block env level b) locals (Lexical.block env locals level b) []
      (Lexical.blockAssigns env locals b)
  | ⟨ss, _⟩ => by
    rw [block_inScope, Lexical.block, Lexical.blockAssigns]
    exact (stmts_runs env locals level ss).inScope

theorem stmts_runs (env : Env) (locals : Locals) (level : Nat) :
    (ss : List Stmt) → Runs (Lower.stmts env level ss) locals (Lexical.stmts env locals level ss)
      (Lexical.declared ss) (Lexical.stmtsAssign env locals ss)
  | [] => by
    rw [Lower.stmts, Lexical.stmts, Lexical.stmtsAssign]
    exact .pure []
  | s :: ss => by
    rw [Lower.stmts, Lexical.stmts, Lexical.stmtsAssign, Lexical.declared, List.flatMap_cons]
    exact (stmt_runs env locals level s).bind
      ((stmts_runs env (locals.extend (Lexical.declaredByStmt s)) level ss).map _)

theorem stmt_runs (env : Env) (locals : Locals) (level : Nat) :
    (s : Stmt) → Runs (Lower.stmt env level s) locals (Lexical.stmt env locals level s)
      (Lexical.declaredByStmt s) (Lexical.stmtAssigns env locals s)
  | .var d => by
    rw [Lower.stmt, Lexical.stmt, Lexical.stmtAssigns, Lexical.declaredByStmt]
    exact (varDecl_runs env locals level d).map _
  | .simple s => by
    rw [Lower.stmt, Lexical.stmt, Lexical.stmtAssigns, Lexical.declaredByStmt]
    exact (simple_runs env locals level s).map _
  | .ret values _ => by
    rw [Lower.stmt, Lexical.stmt, Lexical.stmtAssigns]
    exact (exprs_runs env locals level values).map _
  | .cond s => by
    rw [Lower.stmt, Lexical.stmt, Lexical.stmtAssigns]
    exact (ifStmt_runs env locals level "if " s).map _
  | .loop header body span => by
    rw [stmt_loop, Lexical.stmt, Lexical.stmtAssigns]
    exact ((loopHead_runs env locals level header).bind
      ((block_runs env (locals.extend (Lexical.declaredByHeader header)) (level + 1) body).map _)).inScope
  | .branch kind _ => by
    rw [Lower.stmt, Lexical.stmt, Lexical.stmtAssigns]
    exact .pure _

theorem definedTargets_runs (env : Env) (locals : Locals) (level : Nat) :
    (es : List Expr) → Runs (Lower.definedTargets env level es) locals (Lexical.definedTargets env locals level es)
      (es.filterMap fun e => e.ident?.map (·.value)) false
  | [] => by
    rw [Lower.definedTargets, Lexical.definedTargets]
    exact .pure []
  | e :: es => by
    rw [Lexical.definedTargets, List.filterMap_cons]
    cases found : e.ident? with
    | some name =>
      rw [definedTargets_name env level found]
      exact (declare_runs name.value).bind ((definedTargets_runs env (locals.extend [name.value]) level es).map _)
    | none =>
      rw [definedTargets_expr env level found]
      exact (expr_runs env locals level e).bind ((definedTargets_runs env locals level es).map _)

theorem simple_runs (env : Env) (locals : Locals) (level : Nat) :
    (s : SimpleStmt) → Runs (Lower.simple env level s) locals (Lexical.simple env locals level s)
      (Lexical.declaredBySimple s) (Lexical.simpleAssigns env locals s)
  | .exprs targets _ => by
    rw [Lower.simple, Lexical.simple]
    exact (exprs_runs env locals level targets).map _
  | .assign targets op values _ => by
    rw [Lower.simple, Lexical.simple, Lexical.simpleAssigns, Lexical.declaredBySimple]
    cases op.value.isDeclaring with
    | true =>
      exact (exprs_runs env locals level values).bind ((definedTargets_runs env locals level targets).map _)
    | false =>
      refine (noteTargets_runs targets).followed ((exprs_runs env locals level targets).bind ?_)
      cases op.value.isPostfix with
      | true => exact .pure _
      | false => exact (exprs_runs env locals level values).map _
  | .send channel value _ => by
    rw [Lower.simple, Lexical.simple]
    exact (expr_runs env locals level channel).bind ((expr_runs env locals level value).map _)

theorem varDecl_runs (env : Env) (locals : Locals) (level : Nat) :
    (d : VarDecl) → Runs (Lower.varDecl env level d) locals (Lexical.varDecl env locals level d)
      (d.names.map (·.value)) false
  | ⟨names, ty, values, _⟩ => by
    rw [varDecl_eq, Lexical.varDecl]
    exact (typeSuffix_runs ty).bind ((exprs_runs env locals level values).bind ((declareAll_runs names).map _))

theorem clause_runs (env : Env) (locals : Locals) (level : Nat) :
    (s : Option SimpleStmt) → Runs (optionally (Lower.simple env level) s) locals (Lexical.clause env locals level s)
      (Lexical.declaredByClause s) (Lexical.clauseAssigns env locals s)
  | none => by
    rw [Lexical.clause]
    exact .pure ""
  | some s => by
    rw [Lexical.clause]
    exact simple_runs env locals level s

theorem leading_runs (env : Env) (locals : Locals) (level : Nat) :
    (s : Option SimpleStmt) → Runs (optionally (fun s => do
        let text ← Lower.simple env level s
        pure (text ++ "; ")) s) locals (Lexical.leading env locals level s)
      (Lexical.declaredByClause s) (Lexical.clauseAssigns env locals s)
  | none => by
    rw [Lexical.leading]
    exact .pure ""
  | some s => by
    rw [Lexical.leading]
    exact (simple_runs env locals level s).map _

theorem ifStmt_runs (env : Env) (locals : Locals) (level : Nat) (opening : String) :
    (s : IfStmt) → Runs (Lower.ifStmt env level opening s) locals (Lexical.ifStmt env locals level opening s) []
      (Lexical.ifAssigns env locals s)
  | ⟨init, cond, body, otherwise, _⟩ => by
    rw [ifStmt_inScope, Lexical.ifStmt, Lexical.ifAssigns]
    have test := expr_runs env (locals.extend (Lexical.declaredByClause init)) level cond
    have taken := block_runs env (locals.extend (Lexical.declaredByClause init)) (level + 1) body
    have other := elseBranch_runs env (locals.extend (Lexical.declaredByClause init)) level otherwise
    exact Runs.inScope ((leading_runs env locals level init).bind (test.bind (taken.bind (other.map _))))

theorem elseBranch_runs (env : Env) (locals : Locals) (level : Nat) :
    (s : Else) → Runs (Lower.elseBranch env level s) locals (Lexical.elseBranch env locals level s) []
      (Lexical.elseAssigns env locals s)
  | .none => by
    rw [Lower.elseBranch, Lexical.elseBranch, Lexical.elseAssigns]
    exact .pure []
  | .block b => by
    rw [Lower.elseBranch, Lexical.elseBranch, Lexical.elseAssigns]
    exact (block_runs env locals (level + 1) b).map _
  | .chain s => by
    rw [Lower.elseBranch, Lexical.elseBranch, Lexical.elseAssigns]
    exact ifStmt_runs env locals level _ s

theorem loopHead_runs (env : Env) (locals : Locals) (level : Nat) :
    (header : LoopHeader) → Runs (Lower.loopHead env level header) locals (Lexical.loopHead env locals level header)
      (Lexical.declaredByHeader header) (Lexical.headerAssigns env locals header)
  | .infinite => by
    rw [Lower.loopHead, Lexical.loopHead]
    exact .pure _
  | .cond e => by
    rw [Lower.loopHead, Lexical.loopHead]
    exact (expr_runs env locals level e).map _
  | .classic init cond post => by
    rw [loopHead_classic, Lexical.loopHead, Lexical.declaredByHeader, Lexical.headerAssigns]
    exact (clause_runs env locals level init).bind ((optional_runs env _ level cond).bind
      ((clause_runs env _ level post).map _))
  | .range key value iterable => by
    rw [Lower.loopHead, Lexical.loopHead]
    exact (expr_runs env locals level iterable).bind ((declareAll_runs _).map _)

end

end ViewLang.Go
