import ViewLang.Proofs.Analysis.Findings
import ViewLang.Proofs.Go.Moments
import ViewLang.Proofs.Go.NodeScopes
import ViewLang.Proofs.Go.StateFields
import ViewLang.Proofs.Syntax.Words

namespace ViewLang.Go

open Lexical (Locals declaredByStmt declaredByClause declaredByHeader)
open Analysis (mem_extend componentFindings)
open Analysis.Lexical (Place)

def Moment.Known (env : Env) (bindings : List String) (m : Moment) : Prop :=
  m.name.value = "_" ∨ m.state.isLocal m.name.value = true ∨ (m.state.field? env m.name.value).isSome = true ∨
    m.name.value ∈ bindings

def AllKnown (env : Env) (bindings : List String) (ms : List Moment) : Prop := ∀ m ∈ ms, m.Known env bindings

def NoStray (places : List Place) : Prop :=
  ∀ visible name, Place.target visible name ∈ places → name.value = "_" ∨ name.value ∈ visible

structure Follows (env : Env) (bindings : List String) (visible : Locals) (s : LowerState) : Prop where
  nested : s.scopes ≠ []
  known : ∀ x ∈ visible, x ∈ s.scopes.flatten ∨ (env.fields.lookup x).isSome = true ∨ x ∈ bindings

section

variable {env : Env} {bindings : List String}

theorem AllKnown.nil : AllKnown env bindings [] := fun _ member => nomatch member

theorem AllKnown.append {first second : List Moment} (left : AllKnown env bindings first)
    (right : AllKnown env bindings second) : AllKnown env bindings (first ++ second) := by
  intro m member
  rcases List.mem_append.mp member with member | member
  · exact left m member
  · exact right m member

theorem NoStray.left {first second : List Place} (clean : NoStray (first ++ second)) : NoStray first :=
  fun visible name member => clean visible name (List.mem_append_left _ member)

theorem NoStray.right {first second : List Place} (clean : NoStray (first ++ second)) : NoStray second :=
  fun visible name member => clean visible name (List.mem_append_right _ member)

theorem NoStray.tail {first : Place} {rest : List Place} (clean : NoStray (first :: rest)) : NoStray rest :=
  fun visible name member => clean visible name (List.mem_cons_of_mem _ member)

section

variable {visible : Locals} {s : LowerState}

theorem Follows.push (follows : Follows env bindings visible s) : Follows env bindings visible s.pushScope :=
  ⟨List.cons_ne_nil _ _, follows.known⟩

theorem Follows.after {α : Type} {act : Lower α} {a : α} {names : List String} {assigned : Bool}
    (follows : Follows env bindings visible s) (ran : Runs act s.scopes.flatten a names assigned) :
    Follows env bindings (visible.extend names) (after act s) := by
  obtain ⟨scopes, writes, uses⟩ := s
  obtain ⟨scope, outer, rfl⟩ := List.exists_cons_of_ne_nil follows.nested
  obtain ⟨uses', finished⟩ := ran scope outer writes uses rfl
  have reached : Go.after act ⟨scope :: outer, writes, uses⟩ =
      ⟨Locals.extend scope names :: outer, noted writes assigned, uses'⟩ := congrArg Prod.snd finished
  rw [reached]
  refine ⟨List.cons_ne_nil _ _, fun x member => ?_⟩
  rw [List.flatten_cons, extend_outer, mem_extend]
  rcases mem_extend.mp member with declared | member
  · exact .inl (.inl declared)
  · exact (follows.known x member).imp_left .inr

theorem Follows.openLiteral (follows : Follows env bindings visible s) (ps : List Param)
    (results : List (Located TypeExpr)) : Follows env bindings (visible.extend (ps.map (·.name.value)))
      (Go.after (Moments.openLiteral env ps results) s) := by
  have names : ps.map (·.name.value) = (ps.map (·.name)).map (·.value) := List.map_map.symm
  rw [names]
  have head : Runs (do
      let _ ← Lower.params env ps
      Lower.typeList env results) s.scopes.flatten _ [] false := (params_runs ps).bind (typeList_runs results)
  have headed := follows.after head
  -- The literal's own scope is the innermost one when its parameters are declared.
  have opened : Follows env bindings visible (Go.after (do
      let _ ← Lower.params env ps
      let _ ← Lower.typeList env results
      modify fun s => { s.pushScope with writes := false :: s.writes }) s) := ⟨List.cons_ne_nil _ _, headed.known⟩
  have declared : Follows env bindings _ (Go.after (Lower.declareAll (ps.map (·.name))) _) :=
    opened.after (declareAll_runs _)
  exact declared

/-- A bare name that is visible is known at the moment it is emitted. -/
theorem Follows.target (follows : Follows env bindings visible s) {name : Name}
    (seen : name.value = "_" ∨ name.value ∈ visible) : (Moment.mk s name).Known env bindings := by
  rcases seen with blank | member
  · exact .inl blank
  · by_cases isLocal : s.isLocal name.value = true
    · exact .inr (.inl isLocal)
    · rcases follows.known _ member with inside | field | bound
      · exact absurd ((isLocal_iff rfl _).mpr inside) isLocal
      · refine .inr (.inr (.inl ?_))
        rw [LowerState.field?, if_neg isLocal]
        exact field
      · exact .inr (.inr (.inr bound))

end

theorem moments_of_name (level : Nat) (s : LowerState) {e : Expr} {name : Name} (found : e.ident? = some name) :
    Moments.expr env level e s = [] := by
  obtain ⟨inner, outer, rfl⟩ := eq_of_ident found
  rw [Moments.expr, Moments.primary, Moments.base, Moments.links]
  rfl

mutual

theorem expr_known {visible : Locals} {s : LowerState} (level : Nat) (follows : Follows env bindings visible s) :
    (e : Expr) → NoStray (Analysis.Lexical.expr visible e) → AllKnown env bindings (Moments.expr env level e s)
  | ⟨head, tail, _⟩, clean => by
    rw [Analysis.Lexical.expr] at clean
    rw [Moments.expr]
    exact (primary_known level follows head clean.left).append
      (links_known level (follows.after (primary_runs env _ level head)) tail clean.right)

theorem links_known {visible : Locals} {s : LowerState} (level : Nat) (follows : Follows env bindings visible s) :
    (ls : List Link) → NoStray (Analysis.Lexical.links visible ls) →
      AllKnown env bindings (Moments.links env level ls s)
  | [], _ => by
    rw [Moments.links]
    exact .nil
  | ⟨_, operand⟩ :: ls, clean => by
    rw [Analysis.Lexical.links] at clean
    rw [Moments.links]
    exact (primary_known level follows operand clean.left).append
      (links_known level (follows.after (primary_runs env _ level operand)) ls clean.right)

theorem exprs_known {visible : Locals} {s : LowerState} (level : Nat) (follows : Follows env bindings visible s) :
    (es : List Expr) → NoStray (Analysis.Lexical.exprs visible es) →
      AllKnown env bindings (Moments.exprs env level es s)
  | [], _ => by
    rw [Moments.exprs]
    exact .nil
  | e :: es, clean => by
    rw [Analysis.Lexical.exprs] at clean
    rw [Moments.exprs]
    exact (expr_known level follows e clean.left).append
      (exprs_known level (follows.after (expr_runs env _ level e)) es clean.right)

theorem optional_known {visible : Locals} {s : LowerState} (level : Nat) (follows : Follows env bindings visible s) :
    (e : Option Expr) → NoStray (Analysis.Lexical.optional visible e) →
      AllKnown env bindings (Moments.optional env level e s)
  | none, _ => by
    rw [Moments.optional]
    exact .nil
  | some e, clean => by
    rw [Analysis.Lexical.optional] at clean
    rw [Moments.optional]
    exact expr_known level follows e clean

theorem entries_known {visible : Locals} {s : LowerState} (level : Nat) (follows : Follows env bindings visible s) :
    (es : List Entry) → NoStray (Analysis.Lexical.entries visible es) →
      AllKnown env bindings (Moments.entries env level es s)
  | [], _ => by
    rw [Moments.entries]
    exact .nil
  | ⟨_, value⟩ :: es, clean => by
    rw [Analysis.Lexical.entries] at clean
    rw [Moments.entries]
    exact (expr_known level follows value clean.left).append
      (entries_known level (follows.after (expr_runs env _ level value)) es clean.right)

theorem primary_known {visible : Locals} {s : LowerState} (level : Nat) (follows : Follows env bindings visible s) :
    (p : Primary) → NoStray (Analysis.Lexical.primary visible p) →
      AllKnown env bindings (Moments.primary env level p s)
  | .int _, _ => by
    rw [Moments.primary]
    exact .nil
  | .float _, _ => by
    rw [Moments.primary]
    exact .nil
  | .string _, _ => by
    rw [Moments.primary]
    exact .nil
  | .template t, clean => by
    rw [Analysis.Lexical.primary] at clean
    rw [Moments.primary]
    exact template_known level follows t clean
  | .composite ty es _, clean => by
    rw [Analysis.Lexical.primary] at clean
    rw [Moments.primary]
    exact entries_known level (follows.after (type_runs ty.value)) es clean
  | .make ty args _, clean => by
    rw [Analysis.Lexical.primary] at clean
    rw [Moments.primary]
    exact exprs_known level (follows.after (type_runs ty.value)) args clean
  | .index target index _, clean => by
    rw [Analysis.Lexical.primary] at clean
    rw [Moments.primary]
    exact (primary_known level follows target clean.left).append
      (expr_known level (follows.after (primary_runs env _ level target)) index clean.right)
  | .slice target low high _, clean => by
    rw [Analysis.Lexical.primary] at clean
    rw [Moments.primary]
    have bounds := follows.after (primary_runs env _ level target)
    exact (primary_known level follows target clean.left).append
      ((optional_known level bounds low clean.right.left).append
        (optional_known level (bounds.after (optional_runs env _ level low)) high clean.right.right))
  | .select b _ _, clean => by
    rw [Analysis.Lexical.primary] at clean
    rw [Moments.primary]
    exact base_known level follows b clean
  | .call b _ args _, clean => by
    rw [Analysis.Lexical.primary] at clean
    rw [Moments.primary]
    exact (base_known level follows b clean.left).append
      (exprs_known level (follows.after (base_runs env _ level b)) args clean.right)
  | .func ps results body _, clean => by
    rw [Analysis.Lexical.primary] at clean
    rw [Moments.primary]
    exact block_known (level + 1) (follows.openLiteral ps results) body clean
  | .receive _ _, _ => by
    rw [Moments.primary]
    exact .nil
  | .unary _ operand _, clean => by
    rw [Analysis.Lexical.primary] at clean
    rw [Moments.primary]
    exact primary_known level follows operand clean
  | .paren inner, clean => by
    rw [Analysis.Lexical.primary] at clean
    rw [Moments.primary]
    exact expr_known level follows inner clean

theorem base_known {visible : Locals} {s : LowerState} (level : Nat) (follows : Follows env bindings visible s) :
    (b : Base) → NoStray (Analysis.Lexical.base visible b) → AllKnown env bindings (Moments.base env level b s)
  | .name _, _ => by
    rw [Moments.base]
    exact .nil
  | .operand p, clean => by
    rw [Analysis.Lexical.base] at clean
    rw [Moments.base]
    exact primary_known level follows p clean

theorem template_known {visible : Locals} {s : LowerState} (level : Nat) (follows : Follows env bindings visible s) :
    (t : Template) → NoStray (Analysis.Lexical.template visible t) →
      AllKnown env bindings (Moments.template env level t s)
  | ⟨fs, _⟩, clean => by
    rw [Analysis.Lexical.template] at clean
    rw [Moments.template]
    exact fragments_known level follows fs clean

theorem fragments_known {visible : Locals} {s : LowerState} (level : Nat) (follows : Follows env bindings visible s) :
    (fs : List Fragment) → NoStray (Analysis.Lexical.fragments visible fs) →
      AllKnown env bindings (Moments.fragments env level fs s)
  | [], _ => by
    rw [Moments.fragments]
    exact .nil
  | .text _ :: fs, clean => by
    rw [Analysis.Lexical.fragments] at clean
    rw [Moments.fragments]
    exact fragments_known level follows fs clean
  | .interp e :: fs, clean => by
    rw [Analysis.Lexical.fragments] at clean
    rw [Moments.fragments]
    exact (expr_known level follows e clean.left).append
      (fragments_known level (follows.after (expr_runs env _ level e)) fs clean.right)

theorem block_known {visible : Locals} {s : LowerState} (level : Nat) (follows : Follows env bindings visible s) :
    (b : Block) → NoStray (Analysis.Lexical.block visible b) → AllKnown env bindings (Moments.block env level b s)
  | ⟨ss, _⟩, clean => by
    rw [Analysis.Lexical.block] at clean
    rw [Moments.block]
    exact stmts_known level follows.push ss clean

theorem stmts_known {visible : Locals} {s : LowerState} (level : Nat) (follows : Follows env bindings visible s) :
    (ss : List Stmt) → NoStray (Analysis.Lexical.stmts visible ss) →
      AllKnown env bindings (Moments.stmts env level ss s)
  | [], _ => by
    rw [Moments.stmts]
    exact .nil
  | st :: ss, clean => by
    rw [Analysis.Lexical.stmts] at clean
    rw [Moments.stmts]
    exact (stmt_known level follows st clean.left).append
      (stmts_known level (follows.after (stmt_runs env _ level st)) ss clean.right)

theorem stmt_known {visible : Locals} {s : LowerState} (level : Nat) (follows : Follows env bindings visible s) :
    (st : Stmt) → NoStray (Analysis.Lexical.stmt visible st) → AllKnown env bindings (Moments.stmt env level st s)
  | .var d, clean => by
    rw [Analysis.Lexical.stmt] at clean
    rw [Moments.stmt]
    exact varDecl_known level follows d clean
  | .simple st, clean => by
    rw [Analysis.Lexical.stmt] at clean
    rw [Moments.stmt]
    exact simple_known level follows st clean
  | .ret values _, clean => by
    rw [Analysis.Lexical.stmt] at clean
    rw [Moments.stmt]
    exact exprs_known level follows values clean
  | .cond st, clean => by
    rw [Analysis.Lexical.stmt] at clean
    rw [Moments.stmt]
    exact ifStmt_known level follows st clean
  | .loop header body _, clean => by
    rw [Analysis.Lexical.stmt] at clean
    rw [Moments.stmt]
    exact (loopHead_known level follows.push header clean.left).append
      (block_known (level + 1) (follows.push.after (loopHead_runs env _ level header)) body clean.right)
  | .branch _ _, _ => by
    rw [Moments.stmt]
    exact .nil

theorem definedTargets_known {visible : Locals} {s : LowerState} (level : Nat)
    (follows : Follows env bindings visible s) :
    (es : List Expr) → NoStray (Analysis.Lexical.definedTargets visible es) →
      AllKnown env bindings (Moments.definedTargets env level es s)
  | [], _ => by
    rw [Moments.definedTargets]
    exact .nil
  | e :: es, clean => by
    rw [Analysis.Lexical.definedTargets] at clean
    rw [Moments.definedTargets]
    cases found : e.ident? with
    | some name =>
      rw [found] at clean
      exact definedTargets_known level (follows.after (declare_runs name.value)) es clean
    | none =>
      rw [found] at clean
      exact (expr_known level follows e clean.left).append
        (definedTargets_known level (follows.after (expr_runs env _ level e)) es clean.right)

theorem assignedTargets_known {visible : Locals} {s : LowerState} (level : Nat)
    (follows : Follows env bindings visible s) :
    (es : List Expr) → NoStray (Analysis.Lexical.assignedTargets visible es) →
      AllKnown env bindings (Moments.assignedTargets env level es s)
  | [], _ => by
    rw [Moments.assignedTargets]
    exact .nil
  | e :: es, clean => by
    rw [Analysis.Lexical.assignedTargets] at clean
    rw [Moments.assignedTargets]
    have rest := follows.after (expr_runs env _ level e)
    cases found : e.ident? with
    | some name =>
      rw [found] at clean
      have named : AllKnown env bindings [Moment.mk s name] := by
        intro m member
        rw [List.mem_singleton.mp member]
        exact follows.target (clean visible name List.mem_cons_self)
      rw [moments_of_name level s found]
      exact named.append (assignedTargets_known level rest es clean.tail)
    | none =>
      rw [found] at clean
      exact (expr_known level follows e clean.left).append (assignedTargets_known level rest es clean.right)

theorem simple_known {visible : Locals} {s : LowerState} (level : Nat) (follows : Follows env bindings visible s) :
    (st : SimpleStmt) → NoStray (Analysis.Lexical.simple visible st) →
      AllKnown env bindings (Moments.simple env level st s)
  | .exprs targets _, clean => by
    rw [Analysis.Lexical.simple] at clean
    rw [Moments.simple]
    exact exprs_known level follows targets clean
  | .assign targets op values _, clean => by
    rw [Analysis.Lexical.simple] at clean
    rw [Moments.simple]
    cases declaring : op.value.isDeclaring with
    | true =>
      rw [declaring] at clean
      exact (exprs_known level follows values clean.left).append
        (definedTargets_known level (follows.after (exprs_runs env _ level values)) targets clean.right.tail)
    | false =>
      rw [declaring] at clean
      have noted : Follows env bindings visible (Go.after (targets.forM (Lower.noteTarget env)) s) :=
        follows.after (noteTargets_runs targets)
      refine (assignedTargets_known level noted targets clean.right).append ?_
      cases op.value.isPostfix with
      | true => exact .nil
      | false => exact exprs_known level (noted.after (exprs_runs env _ level targets)) values clean.left
  | .send channel value _, clean => by
    rw [Analysis.Lexical.simple] at clean
    rw [Moments.simple]
    have sent := follows.after (expr_runs env _ level channel)
    cases found : channel.ident? with
    | some name =>
      rw [found] at clean
      rw [moments_of_name level s found]
      exact expr_known level sent value clean.tail
    | none =>
      rw [found] at clean
      exact (expr_known level follows channel clean.left).append (expr_known level sent value clean.right)

theorem varDecl_known {visible : Locals} {s : LowerState} (level : Nat) (follows : Follows env bindings visible s) :
    (d : VarDecl) → NoStray (Analysis.Lexical.varDecl visible d) →
      AllKnown env bindings (Moments.varDecl env level d s)
  | ⟨_, ty, values, _⟩, clean => by
    rw [Analysis.Lexical.varDecl] at clean
    rw [Moments.varDecl]
    exact exprs_known level (follows.after (typeSuffix_runs ty)) values clean.left

theorem clause_known {visible : Locals} {s : LowerState} (level : Nat) (follows : Follows env bindings visible s) :
    (st : Option SimpleStmt) → NoStray (Analysis.Lexical.clause visible st) →
      AllKnown env bindings (Moments.clause env level st s)
  | none, _ => by
    rw [Moments.clause]
    exact .nil
  | some st, clean => by
    rw [Analysis.Lexical.clause] at clean
    rw [Moments.clause]
    exact simple_known level follows st clean

theorem ifStmt_known {visible : Locals} {s : LowerState} (level : Nat) (follows : Follows env bindings visible s) :
    (st : IfStmt) → NoStray (Analysis.Lexical.ifStmt visible st) → AllKnown env bindings (Moments.ifStmt env level st s)
  | ⟨init, cond, body, otherwise, _⟩, clean => by
    rw [Analysis.Lexical.ifStmt] at clean
    rw [Moments.ifStmt]
    have tested := follows.push.after (clause_runs env _ level init)
    have taken := tested.after (expr_runs env _ level cond)
    have refused := taken.after (block_runs env _ (level + 1) body)
    exact (clause_known level follows.push init clean.left).append
      ((expr_known level tested cond clean.right.left).append
        ((block_known (level + 1) taken body clean.right.right.left).append
          (elseBranch_known level refused otherwise clean.right.right.right)))

theorem elseBranch_known {visible : Locals} {s : LowerState} (level : Nat) (follows : Follows env bindings visible s) :
    (st : Else) → NoStray (Analysis.Lexical.elseBranch visible st) →
      AllKnown env bindings (Moments.elseBranch env level st s)
  | .none, _ => by
    rw [Moments.elseBranch]
    exact .nil
  | .block b, clean => by
    rw [Analysis.Lexical.elseBranch] at clean
    rw [Moments.elseBranch]
    exact block_known (level + 1) follows b clean
  | .chain st, clean => by
    rw [Analysis.Lexical.elseBranch] at clean
    rw [Moments.elseBranch]
    exact ifStmt_known level follows st clean

theorem loopHead_known {visible : Locals} {s : LowerState} (level : Nat) (follows : Follows env bindings visible s) :
    (header : LoopHeader) → NoStray (Analysis.Lexical.loopHeader visible header) →
      AllKnown env bindings (Moments.loopHead env level header s)
  | .infinite, _ => by
    rw [Moments.loopHead]
    exact .nil
  | .cond e, clean => by
    rw [Analysis.Lexical.loopHeader] at clean
    rw [Moments.loopHead]
    exact expr_known level follows e clean
  | .classic init cond post, clean => by
    rw [Analysis.Lexical.loopHeader] at clean
    rw [Moments.loopHead]
    have tested := follows.after (clause_runs env _ level init)
    have stepped := tested.after (optional_runs env _ level cond)
    exact (clause_known level follows init clean.left).append
      ((optional_known level tested cond clean.right.left).append
        (clause_known level stepped post clean.right.right))
  | .range _ _ iterable, clean => by
    rw [Analysis.Lexical.loopHeader] at clean
    rw [Moments.loopHead]
    exact expr_known level follows iterable clean

end

theorem entries_clean {visible : Locals} {args : List Entry} (clean : NoStray (Analysis.Lexical.entries visible args)) :
    ∀ a ∈ args, NoStray (Analysis.Lexical.expr visible a.value) := by
  induction args with
  | nil => exact fun _ member => nomatch member
  | cons arg args ih =>
    obtain ⟨_, value⟩ := arg
    rw [Analysis.Lexical.entries] at clean
    intro a member
    rcases List.mem_cons.mp member with rfl | member
    · exact clean.left
    · exact ih clean.right a member

theorem values_clean {visible : Locals} {args : List Entry}
    (clean : ∀ a ∈ args, NoStray (Analysis.Lexical.expr visible a.value)) :
    NoStray (Analysis.Lexical.exprs visible (args.map (·.value))) := by
  induction args with
  | nil =>
    rw [List.map_nil, Analysis.Lexical.exprs]
    exact fun _ _ member => nomatch member
  | cons arg args ih =>
    rw [List.map_cons, Analysis.Lexical.exprs]
    intro visible name member
    rcases List.mem_append.mp member with member | member
    · exact clean arg List.mem_cons_self visible name member
    · exact ih (fun a inside => clean a (List.mem_cons_of_mem _ inside)) visible name member

section

variable {visible : Locals} {s : LowerState} {level : Nat}

theorem elementArgs_known (follows : Follows env bindings visible s) (args : List Entry)
    (clean : ∀ a ∈ args, NoStray (Analysis.Lexical.expr visible a.value)) :
    AllKnown env bindings (Moments.elementArgs env level args s) := by
  induction args generalizing s with
  | nil => exact .nil
  | cons arg args ih =>
    obtain ⟨key, value⟩ := arg
    have value_known := expr_known level follows value (clean _ List.mem_cons_self)
    have rest := fun a member => clean a (List.mem_cons_of_mem _ member)
    cases key with
    | some key => exact value_known.append (ih (follows.after (expr_runs env _ level value)) rest)
    | none =>
      have given : Runs (Lower.expr env level value >>= Lower.textChild env value) s.scopes.flatten _ [] false :=
        (expr_runs env _ level value).bind (textChild_runs value _)
      exact value_known.append (ih (follows.after given) rest)

theorem propChildren_known (follows : Follows env bindings visible s) (ns : List Node)
    (clean : NoStray (Analysis.Lexical.nodes visible ns)) :
    AllKnown env bindings (Moments.propChildren env level ns s) := by
  induction ns generalizing s with
  | nil => exact .nil
  | cons n ns ih =>
    rw [Analysis.Lexical.nodes] at clean
    cases n with
    | element e =>
      obtain ⟨tag, args, children, span⟩ := e
      rw [Moments.propChildren.eq_def]
      dsimp only
      cases Vocabulary.prop? tag.value with
      | none => exact ih follows clean.right
      | some key =>
        cases args with
        | nil => exact ih follows clean.right
        | cons arg args =>
          obtain ⟨_, value⟩ := arg
          have first := clean.left
          rw [Analysis.Lexical.node, Analysis.Lexical.element] at first
          exact (expr_known level follows value (entries_clean first.left _ List.mem_cons_self)).append
            (ih (follows.after (expr_runs env _ level value)) clean.right)
    | text t => exact ih follows clean.right
    | template t => exact ih follows clean.right
    | cond c => exact ih follows clean.right
    | loop l => exact ih follows clean.right

theorem optionArgs_known (follows : Follows env bindings visible s) (params positional : List Param) (args : List Entry)
    (clean : ∀ a ∈ args, NoStray (Analysis.Lexical.expr visible a.value)) :
    AllKnown env bindings (Moments.optionArgs env level params positional args s) := by
  induction args generalizing s positional with
  | nil =>
    rw [Moments.optionArgs]
    exact .nil
  | cons arg args ih =>
    obtain ⟨key, value⟩ := arg
    have value_known := expr_known level follows value (clean _ List.mem_cons_self)
    have rest := fun a member => clean a (List.mem_cons_of_mem _ member)
    have further := follows.after (expr_runs env _ level value)
    cases key with
    | some name =>
      rw [Moments.optionArgs]
      cases params.find? (·.name.value == name.value) with
      | none => exact ih follows positional rest
      | some p => exact value_known.append (ih further positional rest)
    | none =>
      cases positional with
      | nil =>
        rw [Moments.optionArgs]
        exact ih follows [] rest
      | cons p positional =>
        rw [Moments.optionArgs]
        exact value_known.append (ih further positional rest)

theorem paramArgs_known (follows : Follows env bindings visible s) (args positional : List Entry) (ps : List Param)
    (clean : ∀ a ∈ args, NoStray (Analysis.Lexical.expr visible a.value)) (among : ∀ a ∈ positional, a ∈ args) :
    AllKnown env bindings (Moments.paramArgs env level args positional ps s) := by
  induction ps generalizing s positional with
  | nil =>
    rw [Moments.paramArgs]
    exact .nil
  | cons p ps ih =>
    rw [Moments.paramArgs.eq_def]
    dsimp only
    cases found : Lower.namedArg? args p with
    | some a =>
      have given := expr_known level follows a.value (clean a (List.mem_of_find?_eq_some found))
      exact given.append (ih (follows.after (expr_runs env _ level a.value)) positional among)
    | none =>
      cases p.variadic with
      | true =>
        have values := values_clean fun a member => clean a (among a member)
        exact (exprs_known level follows _ values).append
          (ih (follows.after (exprs_runs env _ level _)) [] fun _ member => nomatch member)
      | false =>
        cases positional with
        | nil => exact ih (follows.after (type_runs p.ty.value)) [] fun _ member => nomatch member
        | cons a positional =>
          have given := expr_known level follows a.value (clean a (among a List.mem_cons_self))
          exact given.append (ih (follows.after (expr_runs env _ level a.value)) positional
            fun a member => among a (List.mem_cons_of_mem _ member))

theorem embedArgs_known (follows : Follows env bindings visible s) (tag : String) (args : List Entry)
    (clean : ∀ a ∈ args, NoStray (Analysis.Lexical.expr visible a.value)) :
    AllKnown env bindings (Moments.embedArgs env level tag args s) := by
  have plain := exprs_known level follows _ (values_clean clean)
  rw [Moments.embedArgs]
  cases env.components.find? (·.name.value == tag) with
  | none => exact plain
  | some c =>
    dsimp only
    cases c.isRenderable with
    | false => exact plain
    | true =>
      cases c.autoProps with
      | true => exact optionArgs_known follows c.params c.params args clean
      | false =>
        exact paramArgs_known follows args _ c.params clean fun a member => (List.mem_filter.mp member).1

end

mutual

theorem node_known {visible : Locals} {s : LowerState} (level : Nat) (follows : Follows env bindings visible s) :
    (n : Node) → NoStray (Analysis.Lexical.node visible n) → AllKnown env bindings (Moments.node env level n s)
  | .element e, clean => by
    rw [Analysis.Lexical.node] at clean
    rw [Moments.node]
    exact element_known level follows e clean
  | .text _, _ => by
    rw [Moments.node]
    exact .nil
  | .template t, clean => by
    rw [Analysis.Lexical.node] at clean
    rw [Moments.node]
    exact template_known level follows t clean
  | .cond c, clean => by
    rw [Analysis.Lexical.node] at clean
    rw [Moments.node]
    exact nodeIf_known level follows c clean
  | .loop l, clean => by
    rw [Analysis.Lexical.node] at clean
    rw [Moments.node]
    exact nodeFor_known level follows l clean

theorem nodes_known {visible : Locals} {s : LowerState} (level : Nat) (follows : Follows env bindings visible s) :
    (ns : List Node) → NoStray (Analysis.Lexical.nodes visible ns) →
      AllKnown env bindings (Moments.nodes env level ns s)
  | [], _ => by
    rw [Moments.nodes]
    exact .nil
  | n :: ns, clean => by
    rw [Analysis.Lexical.nodes] at clean
    rw [Moments.nodes]
    cases (Lower.propKey? n).isSome with
    | true => exact nodes_known level follows ns clean.right
    | false =>
      exact (node_known level follows n clean.left).append
        (nodes_known level (follows.after (node_runs env _ level n)) ns clean.right)

theorem element_known {visible : Locals} {s : LowerState} (level : Nat) (follows : Follows env bindings visible s) :
    (e : Element) → NoStray (Analysis.Lexical.element visible e) → AllKnown env bindings (Moments.element env level e s)
  | ⟨tag, args, children, _⟩, clean => by
    rw [Analysis.Lexical.element] at clean
    rw [Moments.element]
    have values := entries_clean clean.left
    cases Vocabulary.tag? tag.value with
    | none => exact embedArgs_known follows tag.value args values
    | some html =>
      have given : Follows env bindings visible (Go.after (Lower.elementArgs env level args) s) :=
        follows.after (elementArgs_runs args)
      have further : Follows env bindings visible (Go.after (Lower.propChildren env level children) _) :=
        given.after (propChildren_runs children)
      exact (elementArgs_known follows args values).append ((propChildren_known given children clean.right).append
        (nodes_known (level + 1) further children clean.right))

theorem nodeIf_known {visible : Locals} {s : LowerState} (level : Nat) (follows : Follows env bindings visible s) :
    (c : NodeIf) → NoStray (Analysis.Lexical.nodeIf visible c) → AllKnown env bindings (Moments.nodeIf env level c s)
  | ⟨cond, body, otherwise, _⟩, clean => by
    rw [Analysis.Lexical.nodeIf] at clean
    rw [Moments.nodeIf]
    have tested : Follows env bindings visible (Go.after (Lower.runtime env "Node") s) :=
      follows.after (runtime_runs "Node")
    have taken := tested.after (expr_runs env _ (level + 1) cond)
    have branch : ∀ locals, Runs (do
        let texts ← Lower.nodes env (Lower.listLevel (level + 2) body) body
        Lower.listText env (level + 2) texts) locals _ [] false := fun locals =>
      (nodes_runs env locals _ body).bind (listText_runs _)
    exact (expr_known (level + 1) tested cond clean.left).append
      ((nodes_known _ taken body clean.right.left).append
        (nodes_known _ (taken.after (branch _)) otherwise clean.right.right))

theorem nodeFor_known {visible : Locals} {s : LowerState} (level : Nat) (follows : Follows env bindings visible s) :
    (l : NodeFor) → NoStray (Analysis.Lexical.nodeFor visible l) → AllKnown env bindings (Moments.nodeFor env level l s)
  | ⟨key, value, iterable, children, _⟩, clean => by
    rw [Analysis.Lexical.nodeFor] at clean
    rw [Moments.nodeFor]
    have types : Runs (do
        let _ ← Lower.runtime env "Node"
        Lower.runtime env "Fragment") s.scopes.flatten _ [] false :=
      (runtime_runs "Node").bind (runtime_runs "Fragment")
    have ranged := follows.after types
    have inside := (ranged.after (expr_runs env _ (level + 1) iterable)).push
    have declared : Follows env bindings _ (Go.after (Lower.declareAll (key.toList ++ value.toList)) _) :=
      inside.after (declareAll_runs _)
    exact (expr_known (level + 1) ranged iterable clean.left).append (nodes_known _ declared children clean.right)

end

theorem initialise_known {visible : Locals} {s : LowerState} (follows : Follows env bindings visible s)
    (ds : List VarDecl) (clean : NoStray (ds.flatMap (Analysis.Lexical.varDecl visible))) :
    AllKnown env bindings (Moments.initialise env ds s) := by
  induction ds generalizing s with
  | nil => exact .nil
  | cons d ds ih =>
    obtain ⟨_, _, values, _⟩ := d
    rw [List.flatMap_cons, Analysis.Lexical.varDecl] at clean
    exact (exprs_known 1 follows values clean.left.left).append
      (ih (follows.after (exprs_runs env _ 1 values)) clean.right)

theorem constructorHead_runs (env : Env) (locals : Locals) (c : Component) :
    ∃ doc, Runs (Lower.constructorHead env c) locals doc [] false := by
  rw [Lower.constructorHead]
  cases c.autoProps with
  | true => exact ⟨_, .pure _⟩
  | false => exact ⟨_, (params_runs c.params).map _⟩

end

/-- Before anything is lowered, the lowering knows what is visible in the body of a component. -/
theorem follows_start (runtime : String) (u : SourceUnit) (c : Component) :
    Follows (componentEnv runtime u c) (u.gpuBindings.map (·.name.value))
      (((Analysis.Lexical.bindings u).extend (c.params.map (·.name.value))).extend
        ((Analysis.Lexical.hoistedNames c.body).map (·.value))) .start := by
  refine ⟨List.cons_ne_nil _ _, fun x member => .inr ?_⟩
  rcases mem_extend.mp member with ⟨hoisted, _⟩ | member
  · exact .inl (field_of_hoisted hoisted)
  · rcases mem_extend.mp member with ⟨param, _⟩ | member
    · exact .inl (field_of_param param)
    · rcases mem_extend.mp member with ⟨bound, _⟩ | none
      · exact .inr bound
      · cases none

theorem noStray_of_clean {places : List Place}
    (clean : ∀ d ∈ places.filterMap Place.finding?, d.code ≠ some .undefinedVariable) : NoStray places := by
  intro visible name member
  refine Decidable.byContradiction fun stray => ?_
  have broken : (Place.target visible name).finding? = some (Analysis.undefinedVariable name) := by
    rw [Place.finding?, if_neg stray]
  exact clean _ (List.mem_filterMap.mpr ⟨_, member, broken⟩) rfl

/-- No undefined variable is found in a component, so the lowering knows all that it assigns. -/
theorem component_known (runtime : String) (u : SourceUnit) (c : Component)
    (clean : ∀ d ∈ componentFindings u c, d.code ≠ some .undefinedVariable) :
    AllKnown (componentEnv runtime u c) (u.gpuBindings.map (·.name.value))
      (Moments.constructor (componentEnv runtime u c) c ++ Moments.render (componentEnv runtime u c) c) := by
  rw [Analysis.componentFindings_eq] at clean
  have body := (noStray_of_clean clean).right.right
  have start := follows_start runtime u c
  obtain ⟨doc, headed⟩ := constructorHead_runs (componentEnv runtime u c) [] c
  have entered : Follows _ _ _ (after (Lower.runtime (componentEnv runtime u c) "Node") .start) :=
    start.after (runtime_runs "Node")
  have ran := entered.after (stmts_runs (componentEnv runtime u c) _ 1 c.body.stmts)
  exact (initialise_known (start.after headed) c.body.vars body.left).append
    ((stmts_known 1 entered c.body.stmts body.right.left).append
      (nodes_known _ ran c.body.nodes body.right.right))

/-- What the check finds in a component is among what it finds in the unit. When it finds no undefined variable there,
every bare name that the constructor or the rendering method assigns is, at the moment it is emitted, blank, a local of
the stack, a field of the receiver, or a binding of the unit. -/
theorem assigned_names_known (runtime : String) (u : SourceUnit) (c : Component) (member : c ∈ u.components) :
    componentFindings u c ⊆ analyze u ∧
    ((∀ d ∈ componentFindings u c, d.code ≠ some .undefinedVariable) →
      ∀ m ∈ Moments.constructor (componentEnv runtime u c) c ++ Moments.render (componentEnv runtime u c) c,
        m.name.value = "_" ∨ m.state.isLocal m.name.value = true ∨
        (∃ path, m.state.field? (componentEnv runtime u c) m.name.value = some ("c." ++ path)) ∨
        m.name.value ∈ u.gpuBindings.map (·.name.value)) := by
  refine ⟨Analysis.componentFindings_subset member, fun clean m emitted => ?_⟩
  rcases component_known runtime u c clean m emitted with blank | isLocal | field | bound
  · exact .inl blank
  · exact .inr (.inl isLocal)
  · obtain ⟨text, found⟩ := Option.isSome_iff_exists.mp field
    have inState : (stateFields c).lookup m.name.value = some text := by
      rw [LowerState.field?] at found
      split at found
      · cases found
      · exact found
    obtain ⟨path, rfl⟩ := field_of_receiver inState
    exact .inr (.inr (.inl ⟨path, found⟩))
  · exact .inr (.inr (.inr bound))

def dialAssign (target : String) (op : AssignOp) (value : String) : Stmt :=
  .simple (.assign [.single (.ident ⟨target, .none⟩)] ⟨op, .none⟩ [.single (.ident ⟨value, .none⟩)] .none)

def dial : Component where
  name := ⟨"Dial", .none⟩
  params := [⟨⟨"step", .none⟩, ⟨.named "int", .none⟩, false⟩]
  results := [⟨.named "Node", .none⟩]
  body := {
    vars := [⟨[⟨"turns", .none⟩], some ⟨.named "int", .none⟩, [], .none⟩]
    stmts := [dialAssign "total" .define "turns", dialAssign "total" .add "step"]
    nodes := [.element ⟨⟨"Button", .none⟩, [⟨some ⟨"onClick", .none⟩, .single (.func
      [⟨⟨"by", .none⟩, ⟨.named "int", .none⟩, false⟩] []
      ⟨[dialAssign "turns" .add "by", dialAssign "total" .assign "by", dialAssign "light" .assign "by",
        dialAssign "_" .assign "by"], .none⟩ .none)⟩], [], .none⟩] }
  autoProps := false
  span := .none

def dialUnit : SourceUnit :=
  ⟨⟨"main", .none⟩, [], [], [dial], [], [⟨[], ⟨"light", .none⟩, ⟨.named "vec4", .none⟩, .none⟩], []⟩

theorem assigned_names_known_dial :
    dial ∈ dialUnit.components ∧ componentFindings dialUnit dial = [] ∧
    (Moments.constructor (componentEnv "rt" dialUnit dial) dial ++
        Moments.render (componentEnv "rt" dialUnit dial) dial).map (fun m => (m.name.value, m.state.scopes)) =
      [("total", [["total"]]), ("turns", [[], ["by"], ["total"]]), ("total", [[], ["by"], ["total"]]),
        ("light", [[], ["by"], ["total"]]), ("_", [[], ["by"], ["total"]])] ∧
    ∀ m ∈ Moments.constructor (componentEnv "rt" dialUnit dial) dial ++
        Moments.render (componentEnv "rt" dialUnit dial) dial,
      m.name.value = "_" ∨ m.state.isLocal m.name.value = true ∨
      (∃ path, m.state.field? (componentEnv "rt" dialUnit dial) m.name.value = some ("c." ++ path)) ∨
      m.name.value ∈ dialUnit.gpuBindings.map (·.name.value) := by
  have member : dial ∈ dialUnit.components := List.mem_cons_self
  have clean : componentFindings dialUnit dial = [] := by
    rw [Analysis.componentFindings_eq]
    decide +kernel
  refine ⟨member, clean, by decide +kernel, (assigned_names_known "rt" dialUnit dial member).2 ?_⟩
  rw [clean]
  exact fun _ found => nomatch found

end ViewLang.Go
