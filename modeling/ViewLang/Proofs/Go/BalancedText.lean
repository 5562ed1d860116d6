import ViewLang.Proofs.Go.Delimiters
import ViewLang.Proofs.Go.KnownTargets

namespace ViewLang.Go

open Lexical (Locals)

structure EnvSpelled (env : Env) : Prop where
  runtime : IsWord env.runtime
  fields : ∀ x ∈ env.fields, IsWord x.2
  latest : ∀ x ∈ env.latest, IsWord x.2
  params : ∀ c ∈ env.components, ∀ p ∈ c.params, (Construct.param p).AllSpelled

theorem resultSuffix_balanced {results : List String} (each : ∀ t ∈ results, Balanced t) :
    Balanced (TypeExpr.resultSuffix results) := by
  match results with
  | [] => exact .empty
  | [result] => exact Carries.text (by decide : Balanced " ") (List.forall_mem_singleton.mp each)
  | first :: second :: more =>
    exact ((by decide : Carries " (" [] [.round]).text (balanced_commas each)).to [] (by decide)

mutual

theorem typeExpr_balanced {runtime : String} (word : IsWord runtime) : (ty : TypeExpr) → ty.Spelled →
    Balanced (type runtime ty).1
  | .named name, spelled => by
    rw [type]
    split
    · exact Carries.text word.balanced (by decide)
    · exact (TypeExpr.spelled_named.mp spelled).balanced
  | .generic name arg, spelled => by
    rw [type]
    obtain ⟨named, inner⟩ := TypeExpr.spelled_generic.mp spelled
    exact ((named.balanced.to [.square] (by decide)).text (typeExpr_balanced word arg inner)).to [] (by decide)
  | .chan recvOnly elem, spelled => by
    rw [type]
    have inner := typeExpr_balanced word elem (TypeExpr.spelled_chan.mp spelled)
    cases recvOnly with
    | true => exact Carries.text (by decide : Balanced "<-chan ") inner
    | false => exact Carries.text (by decide : Balanced "chan ") inner
  | .slice elem, spelled => by
    rw [type]
    exact Carries.text (by decide : Balanced "[]") (typeExpr_balanced word elem (TypeExpr.spelled_slice.mp spelled))
  | .pointer elem, spelled => by
    rw [type]
    exact Carries.text (by decide : Balanced "*") (typeExpr_balanced word elem (TypeExpr.spelled_pointer.mp spelled))
  | .func params results, spelled => by
    rw [type]
    obtain ⟨first, second⟩ := TypeExpr.spelled_func.mp spelled
    have listed := balanced_commas (typeExprs_balanced word params first)
    have suffix := resultSuffix_balanced (typeExprs_balanced word results second)
    exact (((by decide : Carries "func(" [] [.round]).text listed).to [] (by decide)).text suffix

theorem typeExprs_balanced {runtime : String} (word : IsWord runtime) : (ts : List TypeExpr) →
    (∀ t ∈ ts, t.Spelled) → ∀ t ∈ (types runtime ts).1, Balanced t
  | [], _ => by
    rw [types]
    exact nofun
  | t :: ts, spelled => by
    rw [types]
    obtain ⟨first, others⟩ := List.forall_mem_cons.mp spelled
    exact List.forall_mem_cons.mpr ⟨typeExpr_balanced word t first, typeExprs_balanced word ts others⟩

end

section

variable {env : Env} (words : EnvSpelled env)

include words

theorem runtime_balanced {name : String} (word : IsWord name) : Balanced (Lexical.runtime env name) :=
  ((words.runtime.append (by decide)).append word).balanced

theorem type_balanced {ty : TypeExpr} (spelled : ty.Spelled) : Balanced (Lexical.type env ty) :=
  typeExpr_balanced words.runtime ty spelled

theorem types_balanced {ts : List (Located TypeExpr)} (spelled : ∀ t ∈ ts, t.value.Spelled) :
    ∀ t ∈ ts.map fun t => Lexical.type env t.value, Balanced t :=
  List.forall_mem_map.mpr fun t member => type_balanced words (spelled t member)

theorem typeSuffix_balanced {ty : Option (Located TypeExpr)} (spelled : ∀ t ∈ ty, t.value.Spelled) :
    Balanced (Lexical.typeSuffix env ty) := by
  cases ty with
  | none => exact .empty
  | some t => exact Carries.text (by decide : Balanced " ") (type_balanced words (spelled t rfl))

theorem params_balanced {ps : List Param} (spelled : ∀ p ∈ ps, (Construct.param p).AllSpelled) :
    ∀ t ∈ Lexical.params env ps, Balanced t := by
  refine List.forall_mem_map.mpr fun p member => ?_
  obtain ⟨named, typed⟩ := Construct.allSpelled_param.mp (spelled p member)
  have mark : Balanced (if p.variadic then "..." else "") := by
    split <;> decide
  exact ((Carries.text named.balanced (by decide : Balanced " ")).text mark).text (type_balanced words typed)

theorem name_word (locals : Locals) {name : String} (word : IsWord name) : IsWord (Lexical.name env locals name) := by
  rw [Lexical.name, Lexical.field?]
  split
  · exact word
  · cases found : env.fields.lookup name with
    | none => exact word
    | some field => exact words.fields (name, field) (mem_of_lookup found)

theorem receive_balanced (locals : Locals) {channel : String} (word : IsWord channel) :
    Balanced (Lexical.receive env locals channel) := by
  rw [Lexical.receive]
  split
  · rename_i field found
    rw [Lexical.latest?] at found
    split at found
    · cases found
    · exact (words.latest (channel, field) (mem_of_lookup found)).balanced
  · exact Carries.text (by decide : Balanced "<-") (name_word words locals word).balanced

end

theorem path_balanced {base : String} (start : Balanced base) {segments : List Name} (words : AllWords segments) :
    Balanced (Lexical.path base segments) := by
  induction segments generalizing base with
  | nil => exact start
  | cons segment segments ih =>
    obtain ⟨named, others⟩ := List.forall_mem_cons.mp words
    exact ih ((Carries.text start (by decide : Balanced ".")).text named.balanced) others

theorem rangeVars_balanced {key value : Option Name} (words : AllWords (key.toList ++ value.toList)) :
    Balanced (Lower.rangeVars key value) := by
  have named (n : Name) (member : n ∈ key.toList ++ value.toList) : Balanced n.value := (words n member).balanced
  cases key with
  | none =>
    cases value with
    | none => exact .empty
    | some v => exact (Carries.text (by decide : Balanced "_, ") (named v (by simp))).text (by decide)
  | some k =>
    have first : Balanced k.value := named k (by simp)
    cases value with
    | none => exact Carries.text first (by decide)
    | some v => exact ((Carries.text first (by decide : Balanced ", ")).text (named v (by simp))).text (by decide)

/-- The update behind a function literal that assigns state. -/
theorem deferred_balanced (level : Nat) (writes : Bool) :
    Balanced (if writes then Lower.pad level ++ "defer c.Update()\n" else "") := by
  split
  · exact Carries.text (pad_balanced _) (by decide)
  · exact .empty

theorem funcText_balanced {level : Nat} {head : String} {body : Doc} (writes : Bool) (headed : Balanced head)
    (lays : Lays body (level + 1) [] []) : Balanced (Lower.funcText level head body writes) := by
  rw [Lower.funcText]
  split
  · exact Carries.text headed (by decide)
  · have deferred := deferred_balanced (level + 1) writes
    exact ((((headed.to [.curly] (by decide)).text deferred).text lays.carries).text (pad_balanced _)).to [] (by decide)

theorem ident?_word {e : Expr} {name : Name} (found : e.ident? = some name) (spelled : (Construct.expr e).AllSpelled) :
    IsWord name.value := by
  obtain ⟨inner, outer, rfl⟩ := eq_of_ident found
  have head := Construct.allSpelled_primary.mp (Construct.allSpelled_expr.mp spelled).1
  exact Construct.allSpelled_base.mp (Construct.allSpelled_select.mp head).1

theorem binaryOp_balanced (op : BinaryOp) : Balanced (" " ++ op.text ++ " ") := by
  cases op <;> decide

theorem unaryOp_balanced (op : UnaryOp) : Balanced op.text := by
  cases op <;> decide

theorem assignOp_balanced (op : AssignOp) : Balanced op.text := by
  cases op <;> decide

theorem branch_balanced (kind : BranchKind) : Balanced kind.text := by
  cases kind <;> decide

mutual

theorem expr_balanced {env : Env} (words : EnvSpelled env) (locals : Locals) (level : Nat) : (e : Expr) →
    (Construct.expr e).AllSpelled → Balanced (Lexical.expr env locals level e)
  | ⟨head, tail, _⟩, spelled => by
    rw [Lexical.expr]
    obtain ⟨first, others⟩ := Construct.allSpelled_expr.mp spelled
    exact (primary_balanced words locals level head first).text (links_balanced words locals level tail others)

theorem links_balanced {env : Env} (words : EnvSpelled env) (locals : Locals) (level : Nat) : (ls : List Link) →
    (∀ l ∈ ls, (Construct.primary l.operand).AllSpelled) → Balanced (Lexical.links env locals level ls)
  | [], _ => by
    rw [Lexical.links]
    exact .empty
  | ⟨op, operand⟩ :: ls, spelled => by
    rw [Lexical.links]
    obtain ⟨first, others⟩ := List.forall_mem_cons.mp spelled
    exact ((binaryOp_balanced op.value).text (primary_balanced words locals level operand first)).text
      (links_balanced words locals level ls others)

theorem exprs_balanced {env : Env} (words : EnvSpelled env) (locals : Locals) (level : Nat) : (es : List Expr) →
    (∀ e ∈ es, (Construct.expr e).AllSpelled) → ∀ t ∈ Lexical.exprs env locals level es, Balanced t
  | [], _ => by
    rw [Lexical.exprs]
    exact nofun
  | e :: es, spelled => by
    rw [Lexical.exprs]
    obtain ⟨first, others⟩ := List.forall_mem_cons.mp spelled
    exact List.forall_mem_cons.mpr
      ⟨expr_balanced words locals level e first, exprs_balanced words locals level es others⟩

theorem optional_balanced {env : Env} (words : EnvSpelled env) (locals : Locals) (level : Nat) : (e : Option Expr) →
    (∀ x ∈ e, (Construct.expr x).AllSpelled) → Balanced (Lexical.optional env locals level e)
  | none, _ => by
    rw [Lexical.optional]
    exact .empty
  | some e, spelled => by
    rw [Lexical.optional]
    exact expr_balanced words locals level e (spelled e rfl)

theorem entries_balanced {env : Env} (words : EnvSpelled env) (locals : Locals) (level : Nat) : (es : List Entry) →
    (∀ e ∈ es, AllWords e.key.toList ∧ (Construct.expr e.value).AllSpelled) →
      ∀ t ∈ Lexical.entries env locals level es, Balanced t
  | [], _ => by
    rw [Lexical.entries]
    exact nofun
  | ⟨some key, value⟩ :: es, spelled => by
    rw [Lexical.entries]
    obtain ⟨⟨keyed, first⟩, others⟩ := List.forall_mem_cons.mp spelled
    have named := (List.forall_mem_singleton.mp keyed).balanced
    refine List.forall_mem_cons.mpr ⟨?_, entries_balanced words locals level es others⟩
    exact (Carries.text named (by decide : Balanced ": ")).text (expr_balanced words locals level value first)
  | ⟨none, value⟩ :: es, spelled => by
    rw [Lexical.entries]
    obtain ⟨⟨-, first⟩, others⟩ := List.forall_mem_cons.mp spelled
    exact List.forall_mem_cons.mpr
      ⟨expr_balanced words locals level value first, entries_balanced words locals level es others⟩

theorem primary_balanced {env : Env} (words : EnvSpelled env) (locals : Locals) (level : Nat) : (p : Primary) →
    (Construct.primary p).AllSpelled → Balanced (Lexical.primary env locals level p)
  | .int text, spelled => by
    rw [Lexical.primary]
    exact IsWord.balanced ((Construct.allSpelled_leaf rfl).mp (Construct.allSpelled_primary.mp spelled))
  | .float text, spelled => by
    rw [Lexical.primary]
    exact IsWord.balanced ((Construct.allSpelled_leaf rfl).mp (Construct.allSpelled_primary.mp spelled))
  | .string text, _ => by
    rw [Lexical.primary]
    exact quote_balanced text.value
  | .template t, spelled => by
    rw [Lexical.primary]
    exact template_balanced words locals level t
      (Construct.allSpelled_templateLiteral.mp (Construct.allSpelled_primary.mp spelled))
  | .composite ty es _, spelled => by
    rw [Lexical.primary]
    obtain ⟨typed, each⟩ := Construct.allSpelled_composite.mp (Construct.allSpelled_primary.mp spelled)
    have inside := balanced_commas (entries_balanced words locals level es each)
    exact (((type_balanced words typed).to [.curly] (by decide)).text inside).to [] (by decide)
  | .make ty args _, spelled => by
    rw [Lexical.primary]
    obtain ⟨typed, each⟩ := Construct.allSpelled_make.mp (Construct.allSpelled_primary.mp spelled)
    have inside := balanced_commas (List.forall_mem_cons.mpr
      ⟨type_balanced words typed, exprs_balanced words locals level args each⟩)
    exact ((by decide : Carries "make(" [] [.round]).text inside).to [] (by decide)
  | .index target index _, spelled => by
    rw [Lexical.primary]
    obtain ⟨before, inside⟩ := Construct.allSpelled_index.mp (Construct.allSpelled_primary.mp spelled)
    exact (((primary_balanced words locals level target before).to [.square] (by decide)).text
      (expr_balanced words locals level index inside)).to [] (by decide)
  | .slice target low high _, spelled => by
    rw [Lexical.primary]
    obtain ⟨before, lows, highs⟩ := Construct.allSpelled_slice.mp (Construct.allSpelled_primary.mp spelled)
    have opened := (primary_balanced words locals level target before).to [.square] (by decide : Carries "[" _ _)
    have bounds := ((opened.text (optional_balanced words locals level low lows)).text (by decide : Balanced ":")).text
      (optional_balanced words locals level high highs)
    exact bounds.to [] (by decide)
  | .select b segments _, spelled => by
    rw [Lexical.primary]
    obtain ⟨based, named⟩ := Construct.allSpelled_select.mp (Construct.allSpelled_primary.mp spelled)
    exact path_balanced (base_balanced words locals level b based) named
  | .call b segments args _, spelled => by
    rw [Lexical.primary]
    obtain ⟨based, named, each⟩ := Construct.allSpelled_call.mp (Construct.allSpelled_primary.mp spelled)
    have path := path_balanced (base_balanced words locals level b based) named
    have inside := balanced_commas (exprs_balanced words locals level args each)
    exact ((path.to [.round] (by decide)).text inside).to [] (by decide)
  | .func ps results body _, spelled => by
    rw [Lexical.primary]
    obtain ⟨params, typed, inside⟩ := Construct.allSpelled_func.mp (Construct.allSpelled_primary.mp spelled)
    have listed := balanced_commas (params_balanced words params)
    have suffix := resultSuffix_balanced (types_balanced words typed)
    have head := (((by decide : Carries "func(" [] [.round]).text listed).to [] (by decide : Carries ")" _ _)).text
      suffix
    exact funcText_balanced _ head (block_lays words _ (level + 1) body inside)
  | .receive channel _, spelled => by
    rw [Lexical.primary]
    exact receive_balanced words locals ((Construct.allSpelled_leaf rfl).mp (Construct.allSpelled_primary.mp spelled))
  | .unary op operand _, spelled => by
    rw [Lexical.primary]
    have inside := Construct.allSpelled_unary.mp (Construct.allSpelled_primary.mp spelled)
    exact (unaryOp_balanced op).text (primary_balanced words locals level operand inside)
  | .paren inner, spelled => by
    rw [Lexical.primary]
    have inside := expr_balanced words locals level inner (Construct.allSpelled_primary.mp spelled)
    exact ((by decide : Carries "(" [] [.round]).text inside).to [] (by decide)

theorem base_balanced {env : Env} (words : EnvSpelled env) (locals : Locals) (level : Nat) : (b : Base) →
    (b.Spelled ∧ ∀ c ∈ b.constructs, c.AllSpelled) → Balanced (Lexical.base env locals level b)
  | .name n, spelled => by
    rw [Lexical.base]
    exact (name_word words locals (Construct.allSpelled_base.mp spelled)).balanced
  | .operand p, spelled => by
    rw [Lexical.base]
    exact primary_balanced words locals level p (Construct.allSpelled_base.mp spelled)

theorem template_balanced {env : Env} (words : EnvSpelled env) (locals : Locals) (level : Nat) : (t : Template) →
    (Construct.template t).AllSpelled → Balanced (Lexical.template env locals level t)
  | ⟨fs, _⟩, spelled => by
    rw [Lexical.template]
    split
    · exact quote_balanced _
    · have args := balanced_commas
        (interpolated_balanced words locals level fs (Construct.allSpelled_template.mp spelled))
      have opened := (by decide : Carries "fmt.Sprintf(" [] [.round]).text (quote_balanced (Lexical.format fs))
      exact ((opened.text (by decide : Balanced ", ")).text args).to [] (by decide)

theorem interpolated_balanced {env : Env} (words : EnvSpelled env) (locals : Locals) (level : Nat) :
    (fs : List Fragment) → (∀ f ∈ fs, ∀ c ∈ f.constructs, c.AllSpelled) →
      ∀ t ∈ Lexical.interpolated env locals level fs, Balanced t
  | [], _ => by
    rw [Lexical.interpolated]
    exact nofun
  | .text _ :: fs, spelled => by
    rw [Lexical.interpolated]
    exact interpolated_balanced words locals level fs (List.forall_mem_cons.mp spelled).2
  | .interp e :: fs, spelled => by
    rw [Lexical.interpolated]
    obtain ⟨first, others⟩ := List.forall_mem_cons.mp spelled
    exact List.forall_mem_cons.mpr ⟨expr_balanced words locals level e (List.forall_mem_singleton.mp first),
      interpolated_balanced words locals level fs others⟩

theorem block_lays {env : Env} (words : EnvSpelled env) (locals : Locals) (level : Nat) : (b : Block) →
    (Construct.block b).AllSpelled → Lays (Lexical.block env locals level b) level [] []
  | ⟨ss, _⟩, spelled => by
    rw [Lexical.block]
    exact stmts_lay words locals level ss (Construct.allSpelled_block.mp spelled)

theorem stmts_lay {env : Env} (words : EnvSpelled env) (locals : Locals) (level : Nat) : (ss : List Stmt) →
    (∀ s ∈ ss, (Construct.stmt s).AllSpelled) → Lays (Lexical.stmts env locals level ss) level [] []
  | [], _ => by
    rw [Lexical.stmts]
    exact .nil
  | s :: ss, spelled => by
    rw [Lexical.stmts]
    obtain ⟨first, others⟩ := List.forall_mem_cons.mp spelled
    exact (stmt_lays words locals level s first).append (stmts_lay words _ level ss others)

theorem stmt_lays {env : Env} (words : EnvSpelled env) (locals : Locals) (level : Nat) : (s : Stmt) →
    (Construct.stmt s).AllSpelled → Lays (Lexical.stmt env locals level s) level [] []
  | .var d, spelled => by
    rw [Lexical.stmt]
    exact .line (varDecl_balanced words locals level d (Construct.allSpelled_stmt.mp spelled))
  | .simple s, spelled => by
    rw [Lexical.stmt]
    exact .line (simple_balanced words locals level s spelled)
  | .ret values _, spelled => by
    rw [Lexical.stmt]
    have each := exprs_balanced words locals level values
      (Construct.allSpelled_ret.mp (Construct.allSpelled_stmt.mp spelled))
    refine .line ?_
    split
    · decide
    · exact Carries.text (by decide : Balanced "return ") (balanced_commas each)
  | .cond s, spelled => by
    rw [Lexical.stmt]
    have inside := ifStmt_lays words locals level s (Construct.allSpelled_stmt.mp spelled)
      (by decide : Carries "if " [] [])
    exact inside.append (.line (by decide))
  | .loop header body _, spelled => by
    rw [Lexical.stmt]
    obtain ⟨headed, inside⟩ := Construct.allSpelled_loop.mp (Construct.allSpelled_stmt.mp spelled)
    have opened := loopHead_carries words locals level header headed
    have lines (inner : Locals) := (block_lays words inner (level + 1) body inside).nested [.curly]
    exact (Lays.cons opened (lines _)).append (.line (by decide))
  | .branch kind _, _ => by
    rw [Lexical.stmt]
    exact .line (branch_balanced kind)

theorem definedTargets_balanced {env : Env} (words : EnvSpelled env) (locals : Locals) (level : Nat) :
    (es : List Expr) → (∀ e ∈ es, (Construct.expr e).AllSpelled) →
      ∀ t ∈ Lexical.definedTargets env locals level es, Balanced t
  | [], _ => by
    rw [Lexical.definedTargets]
    exact nofun
  | e :: es, spelled => by
    rw [Lexical.definedTargets]
    obtain ⟨first, others⟩ := List.forall_mem_cons.mp spelled
    split
    · rename_i name found
      exact List.forall_mem_cons.mpr
        ⟨(ident?_word found first).balanced, definedTargets_balanced words _ level es others⟩
    · exact List.forall_mem_cons.mpr
        ⟨expr_balanced words locals level e first, definedTargets_balanced words locals level es others⟩

theorem simple_balanced {env : Env} (words : EnvSpelled env) (locals : Locals) (level : Nat) : (s : SimpleStmt) →
    (Construct.stmt (.simple s)).AllSpelled → Balanced (Lexical.simple env locals level s)
  | .exprs targets _, spelled => by
    rw [Lexical.simple]
    exact balanced_commas (exprs_balanced words locals level targets
      (Construct.allSpelled_exprs.mp (Construct.allSpelled_stmt.mp spelled)))
  | .assign targets op values _, spelled => by
    rw [Lexical.simple]
    obtain ⟨first, second⟩ := Construct.allSpelled_assign.mp (Construct.allSpelled_stmt.mp spelled)
    have right := balanced_commas (exprs_balanced words locals level values second)
    have left := balanced_commas (exprs_balanced words locals level targets first)
    split
    · have named := balanced_commas (definedTargets_balanced words locals level targets first)
      exact (Carries.text named (by decide : Balanced " := ")).text right
    · split
      · exact left.text (assignOp_balanced op.value)
      · exact (((left.text (by decide : Balanced " ")).text (assignOp_balanced op.value)).text
          (by decide : Balanced " ")).text right
  | .send channel value _, spelled => by
    rw [Lexical.simple]
    obtain ⟨first, second⟩ := Construct.allSpelled_send.mp (Construct.allSpelled_stmt.mp spelled)
    exact (Carries.text (expr_balanced words locals level channel first) (by decide : Balanced " <- ")).text
      (expr_balanced words locals level value second)

theorem varDecl_balanced {env : Env} (words : EnvSpelled env) (locals : Locals) (level : Nat) : (d : VarDecl) →
    (Construct.varDecl d).AllSpelled → Balanced (Lexical.varDecl env locals level d)
  | ⟨names, ty, values, _⟩, spelled => by
    rw [Lexical.varDecl]
    obtain ⟨named, typed, each⟩ := Construct.allSpelled_varDecl.mp spelled
    have listed : ∀ t ∈ names.map (·.value), Balanced t :=
      List.forall_mem_map.mpr fun n member => (named n member).balanced
    have head := ((by decide : Balanced "var ").text (balanced_commas listed)).text (typeSuffix_balanced words typed)
    refine head.text ?_
    split
    · exact .empty
    · exact Carries.text (by decide : Balanced " = ") (balanced_commas (exprs_balanced words locals level values each))

theorem clause_balanced {env : Env} (words : EnvSpelled env) (locals : Locals) (level : Nat) :
    (s : Option SimpleStmt) → (∀ x ∈ s, (Construct.stmt (.simple x)).AllSpelled) →
      Balanced (Lexical.clause env locals level s)
  | none, _ => by
    rw [Lexical.clause]
    exact .empty
  | some s, spelled => by
    rw [Lexical.clause]
    exact simple_balanced words locals level s (spelled s rfl)

theorem leading_balanced {env : Env} (words : EnvSpelled env) (locals : Locals) (level : Nat) :
    (s : Option SimpleStmt) → (∀ x ∈ s, (Construct.stmt (.simple x)).AllSpelled) →
      Balanced (Lexical.leading env locals level s)
  | none, _ => by
    rw [Lexical.leading]
    exact .empty
  | some s, spelled => by
    rw [Lexical.leading]
    exact Carries.text (simple_balanced words locals level s (spelled s rfl)) (by decide)

/-- The brace that a conditional opens last is left open. -/
theorem ifStmt_lays {env : Env} (words : EnvSpelled env) (locals : Locals) (level : Nat) {opening : String}
    {stack : List Bracket} : (s : IfStmt) → (Construct.cond s).AllSpelled → Carries opening stack [] →
      Lays (Lexical.ifStmt env locals level opening s) level stack [.curly]
  | ⟨init, cond, body, otherwise, _⟩, spelled, opens => by
    rw [Lexical.ifStmt]
    obtain ⟨inits, test, inside, other⟩ := Construct.allSpelled_cond.mp spelled
    have first := opens.text (leading_balanced words locals level init inits)
    have head (inner : Locals) := (first.text (expr_balanced words inner level cond test)).to [.curly]
      (by decide : Carries " \x7b" _ _)
    have lines (inner : Locals) := (block_lays words inner (level + 1) body inside).nested [.curly]
    exact (Lays.cons (head _) (lines _)).append (elseBranch_lays words _ level otherwise other)

theorem elseBranch_lays {env : Env} (words : EnvSpelled env) (locals : Locals) (level : Nat) : (o : Else) →
    (∀ c ∈ o.constructs, c.AllSpelled) → Lays (Lexical.elseBranch env locals level o) level [.curly] [.curly]
  | .none, _ => by
    rw [Lexical.elseBranch]
    exact .nil
  | .block b, spelled => by
    rw [Lexical.elseBranch]
    have lines := block_lays words locals (level + 1) b (List.forall_mem_singleton.mp spelled)
    exact .cons (by decide) (lines.nested [.curly])
  | .chain s, spelled => by
    rw [Lexical.elseBranch]
    exact ifStmt_lays words locals level s (List.forall_mem_singleton.mp spelled) (by decide)

theorem loopHead_carries {env : Env} (words : EnvSpelled env) (locals : Locals) (level : Nat) : (h : LoopHeader) →
    Construct.HeaderSpelled h → Carries (Lexical.loopHead env locals level h) [] [.curly]
  | .infinite, _ => by
    rw [Lexical.loopHead]
    decide
  | .cond e, spelled => by
    rw [Lexical.loopHead]
    have test := expr_balanced words locals level e (Construct.headerSpelled_cond.mp spelled)
    exact ((by decide : Balanced "for ").text test).to [.curly] (by decide)
  | .classic init cond post, spelled => by
    rw [Lexical.loopHead]
    obtain ⟨inits, test, posts⟩ := Construct.headerSpelled_classic.mp spelled
    have first := ((by decide : Balanced "for ").text (clause_balanced words locals level init inits)).text
      (by decide : Balanced "; ")
    have second (inner : Locals) := (first.text (optional_balanced words inner level cond test)).text
      (by decide : Balanced "; ")
    exact ((second _).text (clause_balanced words _ level post posts)).to [.curly] (by decide)
  | .range key value iterable, spelled => by
    rw [Lexical.loopHead]
    obtain ⟨named, ranges⟩ := Construct.headerSpelled_range.mp spelled
    have head := ((by decide : Balanced "for ").text (rangeVars_balanced named)).text (by decide : Balanced "range ")
    exact (head.text (expr_balanced words locals level iterable ranges)).to [.curly] (by decide)

end

theorem callText_balanced {level : Nat} {head separator : String} {children : List String}
    (opens : Carries head [] [.round]) (apart : Balanced separator) (each : ∀ t ∈ children, Balanced t) :
    Balanced (Lower.callText level head separator children) := by
  have lines : Balanced (String.join (children.map fun c => Lower.pad (level + 1) ++ c ++ ",\n")) := by
    refine balanced_join (List.forall_mem_map.mpr fun c member => ?_)
    exact ((pad_balanced _).text (each c member)).text (by decide)
  rw [Lower.callText]
  split
  · exact opens.to [] (by decide)
  · exact ((((opens.text apart).text (by decide : Balanced "\n")).text lines).text (pad_balanced _)).to [] (by decide)

theorem appendText_balanced (level : Nat) {texts : List String} (each : ∀ t ∈ texts, Balanced t) :
    Balanced (Lower.appendText level texts) := by
  match texts with
  | [] => exact .empty
  | [text] =>
    have opened := (pad_balanced level).to [.round] (by decide : Carries "nodes = append(nodes, " _ _)
    exact (opened.text (List.forall_mem_singleton.mp each)).to [] (by decide)
  | first :: second :: more =>
    have gathered : Balanced (Lower.callText level "append(nodes" "," (first :: second :: more)) :=
      callText_balanced (by decide) (by decide) each
    exact (((pad_balanced level).text (by decide : Balanced "nodes = ")).text gathered).text (by decide)

theorem option_balanced {tag : String} (tagged : IsWord tag) {p : Param} (spelled : (Construct.param p).AllSpelled)
    {value : String} (balanced : Balanced value) :
    Balanced (tag ++ "With" ++ exported p.name.value ++ "(" ++ value ++ ")") := by
  have named := (tagged.append (by decide : IsWord "With")).append (Construct.allSpelled_param.mp spelled).1.exported
  exact ((named.balanced.to [.round] (by decide)).text balanced).to [] (by decide)

section

variable {env : Env} (words : EnvSpelled env)

include words

theorem textChild_balanced (e : Expr) {value : String} (balanced : Balanced value) :
    Balanced (Lexical.textChild env e value) := by
  have text : Balanced (Lexical.runtime env "Text") := runtime_balanced words (by decide)
  have plain : Balanced (Lexical.runtime env "Text" ++ "(" ++ value ++ ")") :=
    ((text.to [.round] (by decide)).text balanced).to [] (by decide)
  rw [Lexical.textChild]
  split
  · exact plain
  · exact plain
  · exact ((text.to [.round, .round] (by decide)).text balanced).to [] (by decide)

theorem listText_balanced {level : Nat} {texts : List String} (each : ∀ t ∈ texts, Balanced t) :
    Balanced (Lexical.listText env level texts) := by
  match texts with
  | [] => exact (by decide : Balanced "nil")
  | [text] => exact List.forall_mem_singleton.mp each
  | first :: second :: more =>
    have head : Carries (Lexical.runtime env "Fragment" ++ "(") [] [.round] :=
      (runtime_balanced words (by decide)).to [.round] (by decide)
    exact callText_balanced head .empty each

theorem props_balanced {entries : List String} (each : ∀ t ∈ entries, Balanced t) :
    Balanced (Lexical.props env entries) := by
  rw [Lexical.props]
  split
  · decide
  · have opened := (runtime_balanced words (by decide : IsWord "Props")).to [.curly] (by decide : Carries "\x7b" _ _)
    exact (opened.text (balanced_commas each)).to [] (by decide)

theorem condText_balanced {level : Nat} {test taken other : String} (first : Balanced test) (second : Balanced taken)
    (third : Balanced other) : Balanced (Lexical.condText env level test taken other) := by
  have type : Balanced (Lexical.runtime env "Node") := runtime_balanced words (by decide)
  have opened := ((by decide : Balanced "func() ").text type).to [.curly] (by decide : Carries " \x7b\n" _ _)
  have head := (((opened.text (pad_balanced (level + 1))).text (by decide : Balanced "if ")).text first).to
    [.curly, .curly] (by decide : Carries " \x7b\n" _ _)
  have inside := (((head.text (pad_balanced (level + 2))).text (by decide : Balanced "return ")).text second).text
    (by decide : Balanced "\n")
  have closed := (inside.text (pad_balanced (level + 1))).to [.curly] (by decide : Carries "\x7d\n" _ _)
  have behind := (((closed.text (pad_balanced (level + 1))).text (by decide : Balanced "return ")).text third).text
    (by decide : Balanced "\n")
  exact (behind.text (pad_balanced level)).to [] (by decide)

theorem loopText_balanced {level : Nat} {key value : Option Name} {iterable : String} {children : List String}
    (named : AllWords (key.toList ++ value.toList)) (ranges : Balanced iterable) (each : ∀ t ∈ children, Balanced t) :
    Balanced (Lexical.loopText env level key value iterable children) := by
  have type : Balanced (Lexical.runtime env "Node") := runtime_balanced words (by decide)
  have fragment : Balanced (Lexical.runtime env "Fragment") := runtime_balanced words (by decide)
  have opened := ((by decide : Balanced "func() ").text type).to [.curly] (by decide : Carries " \x7b\n" _ _)
  have before := (opened.text (pad_balanced (level + 1))).text (by decide : Balanced "var nodes []")
  have declared := (before.text type).text (by decide : Balanced "\n")
  have ranged := ((declared.text (pad_balanced (level + 1))).text (by decide : Balanced "for ")).text
    (rangeVars_balanced named)
  have head := ((ranged.text (by decide : Balanced "range ")).text ranges).to [.curly, .curly]
    (by decide : Carries " \x7b\n" _ _)
  have closed := ((head.text (appendText_balanced (level + 2) each)).text (pad_balanced (level + 1))).to [.curly]
    (by decide : Carries "\x7d\n" _ _)
  have behind := (((closed.text (pad_balanced (level + 1))).text (by decide : Balanced "return ")).text fragment).text
    (by decide : Balanced "(nodes...)\n")
  exact (behind.text (pad_balanced level)).to [] (by decide)

variable (locals : Locals) (level : Nat)

theorem elementArgs_balanced {args : List Entry} (spelled : ∀ a ∈ args, (Construct.expr a.value).AllSpelled) :
    (∀ t ∈ (Lexical.elementArgs env locals level args).1, Balanced t) ∧
      ∀ t ∈ (Lexical.elementArgs env locals level args).2, Balanced t := by
  induction args with
  | nil => exact ⟨nofun, nofun⟩
  | cons arg args ih =>
    obtain ⟨key, value⟩ := arg
    obtain ⟨first, others⟩ := List.forall_mem_cons.mp spelled
    obtain ⟨props, children⟩ := ih others
    have given := expr_balanced words locals level value first
    cases key with
    | some k =>
      have entry : Balanced (quote k.value ++ ": " ++ Lexical.expr env locals level value) :=
        ((quote_balanced k.value).text (by decide : Balanced ": ")).text given
      exact ⟨List.forall_mem_cons.mpr ⟨entry, props⟩, children⟩
    | none => exact ⟨props, List.forall_mem_cons.mpr ⟨textChild_balanced words value given, children⟩⟩

theorem propChildren_balanced {ns : List Node} (spelled : ∀ n ∈ ns, (Construct.node n).AllSpelled) :
    ∀ t ∈ ns.filterMap (Lexical.propChild env locals level), Balanced t := by
  intro t member
  obtain ⟨n, member, made⟩ := List.mem_filterMap.mp member
  cases n with
  | element e =>
    obtain ⟨-, args, -⟩ := Construct.allSpelled_element.mp (Construct.allSpelled_node.mp (spelled _ member))
    rw [Lexical.propChild] at made
    split at made
    · rename_i key a more _ given
      cases made
      have value := expr_balanced words locals level a.value (args a (given ▸ List.mem_cons_self))
      exact ((quote_balanced key).text (by decide : Balanced ": ")).text value
    · cases made
  | _ => cases made

theorem optionArgs_balanced {tag : String} (tagged : IsWord tag) {params positional : List Param} {args : List Entry}
    (named : ∀ p ∈ params, (Construct.param p).AllSpelled) (ordered : ∀ p ∈ positional, (Construct.param p).AllSpelled)
    (spelled : ∀ a ∈ args, (Construct.expr a.value).AllSpelled) :
    ∀ t ∈ Lexical.optionArgs env locals level tag params positional args, Balanced t := by
  induction args generalizing positional with
  | nil =>
    rw [Lexical.optionArgs]
    exact nofun
  | cons arg args ih =>
    obtain ⟨key, value⟩ := arg
    obtain ⟨first, others⟩ := List.forall_mem_cons.mp spelled
    have given := expr_balanced words locals level value first
    cases key with
    | some name =>
      rw [Lexical.optionArgs]
      split
      · exact ih ordered others
      · rename_i p found
        exact List.forall_mem_cons.mpr
          ⟨option_balanced tagged (named p (List.mem_of_find?_eq_some found)) given, ih ordered others⟩
    | none =>
      cases positional with
      | nil =>
        rw [Lexical.optionArgs]
        exact ih ordered others
      | cons p positional =>
        rw [Lexical.optionArgs]
        obtain ⟨here, later⟩ := List.forall_mem_cons.mp ordered
        exact List.forall_mem_cons.mpr ⟨option_balanced tagged here given, ih later others⟩

theorem paramArgs_balanced {args positional : List Entry} {ps : List Param}
    (spelled : ∀ a ∈ args, (Construct.expr a.value).AllSpelled)
    (ordered : ∀ a ∈ positional, (Construct.expr a.value).AllSpelled)
    (named : ∀ p ∈ ps, (Construct.param p).AllSpelled) :
    ∀ t ∈ Lexical.paramArgs env locals level args positional ps, Balanced t := by
  induction ps generalizing positional with
  | nil => exact nofun
  | cons p ps ih =>
    obtain ⟨here, later⟩ := List.forall_mem_cons.mp named
    rw [Lexical.paramArgs.eq_def]
    dsimp only
    cases found : Lower.namedArg? args p with
    | some a =>
      have given := expr_balanced words locals level a.value (spelled a (List.mem_of_find?_eq_some found))
      cases p.variadic with
      | true => exact List.forall_mem_cons.mpr ⟨given.text (by decide), ih ordered later⟩
      | false => exact List.forall_mem_cons.mpr ⟨given, ih ordered later⟩
    | none =>
      cases p.variadic with
      | true =>
        have rest := exprs_balanced words locals level (positional.map (·.value)) (List.forall_mem_map.mpr ordered)
        exact List.forall_mem_append.mpr ⟨rest, ih (List.forall_mem_nil _) later⟩
      | false =>
        cases positional with
        | nil =>
          have zero := ((by decide : Carries "*new(" [] [.round]).text
            (type_balanced words (Construct.allSpelled_param.mp here).2)).to [] (by decide : Carries ")" _ _)
          exact List.forall_mem_cons.mpr ⟨zero, ih (List.forall_mem_nil _) later⟩
        | cons a positional =>
          obtain ⟨first, others⟩ := List.forall_mem_cons.mp ordered
          exact List.forall_mem_cons.mpr ⟨expr_balanced words locals level a.value first, ih others later⟩

theorem embedArgs_balanced {tag : String} (tagged : IsWord tag) {args : List Entry}
    (spelled : ∀ a ∈ args, (Construct.expr a.value).AllSpelled) :
    ∀ t ∈ Lexical.embedArgs env locals level tag args, Balanced t := by
  have ordered := exprs_balanced words locals level (args.map (·.value)) (List.forall_mem_map.mpr spelled)
  rw [Lexical.embedArgs]
  split
  · rename_i c found
    have named := words.params c (List.mem_of_find?_eq_some found)
    split
    · exact ordered
    · split
      · exact optionArgs_balanced words locals level tagged named named spelled
      · exact paramArgs_balanced words locals level spelled
          (fun a member => spelled a (List.mem_of_mem_filter member)) named
  · exact ordered

theorem embed_balanced {tag : String} (tagged : IsWord tag) {args : List Entry}
    (spelled : ∀ a ∈ args, (Construct.expr a.value).AllSpelled) :
    Balanced (Lexical.embed env locals level tag args) := by
  have inside := balanced_commas (embedArgs_balanced words locals level tagged spelled)
  have opened := (runtime_balanced words (by decide : IsWord "Embed")).to [.round] (by decide : Carries "(New" _ _)
  have made := (opened.text tagged.balanced).to [.round, .round] (by decide : Carries "(" _ _)
  exact (made.text inside).to [] (by decide)

end

mutual

theorem node_balanced {env : Env} (words : EnvSpelled env) (locals : Locals) (level : Nat) : (n : Node) →
    (Construct.node n).AllSpelled → Balanced (Lexical.node env locals level n)
  | .element e, spelled => by
    rw [Lexical.node]
    exact element_balanced words locals level e (Construct.allSpelled_node.mp spelled)
  | .text t, _ => by
    rw [Lexical.node]
    have text := (runtime_balanced words (by decide : IsWord "Text")).to [.round] (by decide : Carries "(" _ _)
    exact (text.text (quote_balanced t.value)).to [] (by decide)
  | .template t, spelled => by
    rw [Lexical.node]
    have text := (runtime_balanced words (by decide : IsWord "Text")).to [.round] (by decide : Carries "(" _ _)
    exact (text.text (template_balanced words locals level t (Construct.allSpelled_node.mp spelled))).to [] (by decide)
  | .cond c, spelled => by
    rw [Lexical.node]
    exact nodeIf_balanced words locals level c (Construct.allSpelled_node.mp spelled)
  | .loop l, spelled => by
    rw [Lexical.node]
    exact nodeFor_balanced words locals level l (Construct.allSpelled_node.mp spelled)

theorem nodes_balanced {env : Env} (words : EnvSpelled env) (locals : Locals) (level : Nat) : (ns : List Node) →
    (∀ n ∈ ns, (Construct.node n).AllSpelled) → ∀ t ∈ Lexical.nodes env locals level ns, Balanced t
  | [], _ => by
    rw [Lexical.nodes]
    exact nofun
  | n :: ns, spelled => by
    rw [Lexical.nodes]
    obtain ⟨first, others⟩ := List.forall_mem_cons.mp spelled
    split
    · exact nodes_balanced words locals level ns others
    · exact List.forall_mem_cons.mpr
        ⟨node_balanced words locals level n first, nodes_balanced words locals level ns others⟩

theorem element_balanced {env : Env} (words : EnvSpelled env) (locals : Locals) (level : Nat) : (e : Element) →
    (Construct.element e).AllSpelled → Balanced (Lexical.element env locals level e)
  | ⟨tag, args, children, _⟩, spelled => by
    rw [Lexical.element]
    obtain ⟨tagged, given, inside⟩ := Construct.allSpelled_element.mp spelled
    split
    · exact embed_balanced words locals level tagged given
    · rename_i html _
      obtain ⟨entries, texts⟩ := elementArgs_balanced words locals level given
      have props := props_balanced words
        (List.forall_mem_append.mpr ⟨entries, propChildren_balanced words locals level inside⟩)
      have opened := (runtime_balanced words (by decide : IsWord "Element")).to [.round] (by decide : Carries "(" _ _)
      have head := ((opened.text (quote_balanced html)).text (by decide : Balanced ", ")).text props
      exact callText_balanced head (by decide)
        (List.forall_mem_append.mpr ⟨texts, nodes_balanced words locals (level + 1) children inside⟩)

theorem nodeIf_balanced {env : Env} (words : EnvSpelled env) (locals : Locals) (level : Nat) : (c : NodeIf) →
    (Construct.nodeIf c).AllSpelled → Balanced (Lexical.nodeIf env locals level c)
  | ⟨cond, body, otherwise, _⟩, spelled => by
    rw [Lexical.nodeIf]
    obtain ⟨test, inside, other⟩ := Construct.allSpelled_nodeIf.mp spelled
    exact condText_balanced words (expr_balanced words locals (level + 1) cond test)
      (listText_balanced words (nodes_balanced words locals _ body inside))
      (listText_balanced words (nodes_balanced words locals _ otherwise other))

theorem nodeFor_balanced {env : Env} (words : EnvSpelled env) (locals : Locals) (level : Nat) : (l : NodeFor) →
    (Construct.nodeFor l).AllSpelled → Balanced (Lexical.nodeFor env locals level l)
  | ⟨key, value, iterable, children, _⟩, spelled => by
    rw [Lexical.nodeFor]
    obtain ⟨named, ranges, inside⟩ := Construct.allSpelled_nodeFor.mp spelled
    exact loopText_balanced words named (expr_balanced words locals (level + 1) iterable ranges)
      (nodes_balanced words _ _ children inside)

end

theorem nodeList_balanced {env : Env} (words : EnvSpelled env) (locals : Locals) (level : Nat) {ns : List Node}
    (spelled : ∀ n ∈ ns, (Construct.node n).AllSpelled) : Balanced (Lexical.nodeList env locals level ns) :=
  listText_balanced words (nodes_balanced words locals _ ns spelled)

end ViewLang.Go
