import ViewLang.Proofs.Gpu.Subset

namespace ViewLang.Gpu.Wgsl

open Phrase (Throughout throughout_iff throughout_expr throughout_operator throughout_block throughout_cond)

variable {u : SourceUnit} {env : Env}

mutual

theorem expr_succeeds (reflects : Reflects u env) : (e : Expr) → Throughout DistinctKeys (.expr e) →
    (Succeeds (expr env e) ↔ Throughout (Allowed u) (.expr e))
  | ⟨head, tail, _⟩, keys => by
    obtain ⟨-, first, rest⟩ := throughout_expr.mp keys
    have others := links_succeed reflects tail fun l member => (rest l member).2
    rw [expr, succeeds_bind fun _ => succeeds_bind_ok, throughout_expr, primary_succeeds reflects head first, others]
    exact (and_iff_right trivial).symm

theorem links_succeed (reflects : Reflects u env) : (ls : List Link) →
    (∀ l ∈ ls, Throughout DistinctKeys (.operand l.operand)) → (Succeeds (links env ls) ↔
      ∀ l ∈ ls, Throughout (Allowed u) (.operator l.op.value) ∧ Throughout (Allowed u) (.operand l.operand))
  | [], _ => by
    rw [links]
    exact iff_of_true (succeeds_ok _) nofun
  | ⟨op, operand⟩ :: ls, keys => by
    rw [List.forall_mem_cons] at keys ⊢
    rw [links, succeeds_unless, succeeds_bind fun _ => succeeds_bind_ok, throughout_operator,
      primary_succeeds reflects operand keys.1, links_succeed reflects ls keys.2]
    exact and_assoc.symm

theorem exprs_succeed (reflects : Reflects u env) : (es : List Expr) →
    (∀ e ∈ es, Throughout DistinctKeys (.expr e)) →
      (Succeeds (exprs env es) ↔ ∀ e ∈ es, Throughout (Allowed u) (.expr e))
  | [], _ => by
    rw [exprs]
    exact iff_of_true (succeeds_ok _) nofun
  | e :: es, keys => by
    rw [List.forall_mem_cons] at keys ⊢
    rw [exprs, succeeds_bind fun _ => succeeds_bind_ok, expr_succeeds reflects e keys.1,
      exprs_succeed reflects es keys.2]

theorem entries_succeed (reflects : Reflects u env) : (es : List Entry) →
    (∀ e ∈ es, Throughout DistinctKeys (.expr e.value)) →
      ((∀ e ∈ es, Succeeds (expr env e.value)) ↔ ∀ e ∈ es, Throughout (Allowed u) (.expr e.value))
  | [], _ => iff_of_true nofun nofun
  | ⟨_, value⟩ :: es, keys => by
    rw [List.forall_mem_cons] at keys ⊢
    rw [List.forall_mem_cons, expr_succeeds reflects value keys.1, entries_succeed reflects es keys.2]

theorem primary_succeeds (reflects : Reflects u env) : (p : Primary) → Throughout DistinctKeys (.operand p) →
    (Succeeds (primary env p) ↔ Throughout (Allowed u) (.operand p))
  | .int text, _ => by
    rw [primary, throughout_iff]
    exact iff_of_true (succeeds_ok _) ⟨trivial, nofun⟩
  | .float text, _ => by
    rw [primary, throughout_iff]
    exact iff_of_true (succeeds_ok _) ⟨trivial, nofun⟩
  | .string text, _ => by
    rw [primary, throughout_iff]
    exact iff_of_false (not_succeeds_error _) And.left
  | .template t, _ => by
    rw [primary, throughout_iff]
    exact iff_of_false (not_succeeds_error _) And.left
  | .composite ty es span, keys => by
    rw [throughout_iff] at keys ⊢
    rw [Phrase.children, Primary.phrases, List.forall_mem_map] at keys ⊢
    rw [primary, reflects.composite_succeeds keys.1, entries_succeed reflects es keys.2]
    rfl
  | .make ty args span, _ => by
    rw [primary, throughout_iff]
    refine iff_of_false ?_ And.left
    split
    · exact not_succeeds_error _
    · exact not_succeeds_error _
  | .index target i span, keys => by
    rw [throughout_iff] at keys ⊢
    rw [Phrase.children, Primary.phrases, List.forall_mem_cons, List.forall_mem_singleton] at keys ⊢
    rw [primary, succeeds_bind fun _ => succeeds_bind_ok, primary_succeeds reflects target keys.2.1,
      expr_succeeds reflects i keys.2.2]
    exact (and_iff_right trivial).symm
  | .slice target low high span, _ => by
    rw [primary, throughout_iff]
    refine iff_of_false ?_ And.left
    exact not_succeeds_bind fun _ => not_succeeds_refuse _ _
  | .select b path span, keys => by
    rw [throughout_iff] at keys ⊢
    rw [primary, succeeds_bind_ok, base_succeeds reflects b keys.2]
    exact (and_iff_right trivial).symm
  | .call b path args span, keys => by
    rw [throughout_iff] at keys ⊢
    rw [Phrase.children, Primary.phrases, List.forall_mem_append, List.forall_mem_map] at keys ⊢
    have given := exprs_succeed reflects args keys.2.2
    cases b with
    | name n =>
      cases path with
      | nil =>
        rw [primary, succeeds_bind fun _ => succeeds_bind fun _ => succeeds_bind_ok, base]
        rw [reflects.callee_succeeds, given, and_iff_right (succeeds_ok _)]
        simp [Allowed, OperandAllowed, Base.phrases]
      | cons segment path =>
        rw [primary]
        refine iff_of_false ?_ ?_
        · exact not_succeeds_bind fun _ => not_succeeds_error _
        · rintro ⟨⟨_, _, same, _⟩, _⟩
          cases same
    | operand p =>
      rw [primary]
      refine iff_of_false ?_ ?_
      · exact not_succeeds_bind fun _ => not_succeeds_error _
      · rintro ⟨⟨_, same, _⟩, _⟩
        cases same
  | .func params results body span, _ => by
    rw [primary, throughout_iff]
    exact iff_of_false (not_succeeds_error _) And.left
  | .receive channel span, _ => by
    rw [primary, throughout_iff]
    exact iff_of_false (not_succeeds_error _) And.left
  | .unary op operand span, keys => by
    rw [throughout_iff] at keys ⊢
    rw [Phrase.children, Primary.phrases, List.forall_mem_singleton] at keys ⊢
    rw [primary, succeeds_bind_ok, primary_succeeds reflects operand keys.2]
    exact (and_iff_right trivial).symm
  | .paren inner, keys => by
    rw [throughout_iff] at keys ⊢
    rw [Phrase.children, Primary.phrases, List.forall_mem_singleton] at keys ⊢
    rw [primary, succeeds_bind_ok, expr_succeeds reflects inner keys.2]
    exact (and_iff_right trivial).symm

theorem base_succeeds (reflects : Reflects u env) : (b : Base) → (∀ part ∈ b.phrases, Throughout DistinctKeys part) →
    (Succeeds (base env b) ↔ ∀ part ∈ b.phrases, Throughout (Allowed u) part)
  | .name n, _ => by
    rw [base]
    exact iff_of_true (succeeds_ok _) nofun
  | .operand p, keys => by
    rw [Base.phrases, List.forall_mem_singleton] at keys ⊢
    rw [base, primary_succeeds reflects p keys]

end

theorem throughout_ident {e : Expr} {name : Name} (named : e.ident? = some name) :
    Throughout (Allowed u) (.expr e) := by
  obtain ⟨head, tail, span⟩ := e
  cases tail with
  | cons l ls => cases named
  | nil =>
    have alone : head.ident? = some name := named
    unfold Primary.ident? at alone
    split at alone
    · refine throughout_expr.mpr ⟨trivial, throughout_iff.mpr ⟨trivial, nofun⟩, nofun⟩
    · cases alone

theorem callStmt_succeeds (reflects : Reflects u env) {targets : List Expr} {span : Span}
    (keys : ∀ e ∈ targets, Throughout DistinctKeys (.expr e)) : Succeeds (callStmt env targets span) ↔
      (∃ e, targets = [e] ∧ e.isCall = true) ∧ ∀ e ∈ targets, Throughout (Allowed u) (.expr e) := by
  match targets with
  | [] =>
    refine iff_of_false (not_succeeds_refuse _ _) ?_
    rintro ⟨⟨_, same, -⟩, -⟩
    cases same
  | [e] =>
    rw [List.forall_mem_singleton] at keys ⊢
    rw [callStmt, ← expr_succeeds reflects e keys]
    split
    · rename_i call
      exact (and_iff_right ⟨e, rfl, call⟩).symm
    · rename_i other
      refine iff_of_false (not_succeeds_refuse _ _) ?_
      rintro ⟨⟨_, same, call⟩, -⟩
      cases same
      exact other call
  | _ :: _ :: _ =>
    refine iff_of_false (not_succeeds_refuse _ _) ?_
    rintro ⟨⟨_, same, -⟩, -⟩
    cases same

/-- One target and one value: the target is declared, or takes the value. -/
theorem assignOne_succeeds (reflects : Reflects u env) {target value : Expr} {op : AssignOp} {span : Span}
    (other : op.isPostfix = false) (target_keys : Throughout DistinctKeys (.expr target))
    (value_keys : Throughout DistinctKeys (.expr value)) : Succeeds (assign env [target] op [value] span) ↔
      (op = .define → ∃ name, target.ident? = some name) ∧ Throughout (Allowed u) (.expr target) ∧
        Throughout (Allowed u) (.expr value) := by
  have written := expr_succeeds reflects target target_keys
  rw [assign, if_neg (by rw [other]; exact Bool.false_ne_true), ← expr_succeeds reflects value value_keys]
  by_cases define : op = .define
  · simp only [if_pos define]
    cases named : target.ident? with
    | none =>
      refine iff_of_false (not_succeeds_bind fun _ => not_succeeds_refuse _ _) fun both => ?_
      obtain ⟨_, found⟩ := both.1 define
      cases found
    | some name =>
      rw [succeeds_bind_ok, and_iff_right fun _ => ⟨name, rfl⟩, and_iff_right (throughout_ident named)]
  · simp only [if_neg define]
    rw [succeeds_bind fun _ => succeeds_bind_ok, written, and_iff_right fun same => absurd same define, and_comm]

theorem assign_succeeds (reflects : Reflects u env) {targets values : List Expr} {op : Located AssignOp} {span : Span}
    (keys : Throughout DistinctKeys (.simple (.assign targets op values span))) :
    Succeeds (assign env targets op.value values span) ↔
      Throughout (Allowed u) (.simple (.assign targets op values span)) := by
  rw [throughout_iff] at keys ⊢
  rw [Phrase.children, SimpleStmt.phrases, List.forall_mem_map, List.forall_mem_append] at keys ⊢
  have one (allowed : Allowed u (.simple (.assign targets op values span))) : ∃ target, targets = [target] :=
    List.length_eq_one_iff.mp allowed.1
  match targets with
  | [] =>
    refine iff_of_false (not_succeeds_refuse _ _) fun both => ?_
    obtain ⟨_, same⟩ := one both.1
    cases same
  | _ :: _ :: _ =>
    refine iff_of_false (not_succeeds_refuse _ _) fun both => ?_
    obtain ⟨_, same⟩ := one both.1
    cases same
  | [target] =>
    rw [List.forall_mem_singleton] at keys ⊢
    by_cases inPlace : op.value.isPostfix = true
    · unfold assign
      dsimp only
      rw [if_pos inPlace, if_pos inPlace, succeeds_bind_ok, expr_succeeds reflects target keys.2.1]
      have allowed : Allowed u (.simple (.assign [target] op values span)) := by
        refine ⟨rfl, .inl inPlace, fun define => ?_⟩
        rw [define] at inPlace
        cases inPlace
      rw [and_iff_right allowed, and_iff_left nofun]
    · have other : op.value.isPostfix = false := by simpa using inPlace
      rw [if_neg inPlace] at keys ⊢
      have several (refused : values.length ≠ 1) :
          ¬ Allowed u (.simple (.assign [target] op values span)) := by
        rintro ⟨-, inPlace' | single, -⟩
        · exact inPlace inPlace'
        · exact refused single
      match values with
      | [] =>
        unfold assign
        dsimp only
        rw [if_neg inPlace]
        exact iff_of_false (not_succeeds_refuse _ _) fun both => several (by simp) both.1
      | _ :: _ :: _ =>
        unfold assign
        dsimp only
        rw [if_neg inPlace]
        exact iff_of_false (not_succeeds_refuse _ _) fun both => several (by simp) both.1
      | [value] =>
        rw [List.forall_mem_singleton] at keys ⊢
        rw [assignOne_succeeds reflects other keys.2.1 keys.2.2]
        refine and_congr_left fun _ => ?_
        simp [Allowed, SimpleAllowed]

theorem simple_succeeds (reflects : Reflects u env) {s : SimpleStmt} (keys : Throughout DistinctKeys (.simple s)) :
    Succeeds (simple env s) ↔ Throughout (Allowed u) (.simple s) := by
  cases s with
  | exprs targets span =>
    rw [throughout_iff] at keys ⊢
    rw [Phrase.children, SimpleStmt.phrases, List.forall_mem_map] at keys ⊢
    exact callStmt_succeeds reflects keys.2
  | assign targets op values span => exact assign_succeeds reflects keys
  | send channel value span =>
    rw [throughout_iff]
    exact iff_of_false (not_succeeds_error _) And.left

/-- A loop refuses to send too, if for another reason. -/
theorem clause_succeeds (reflects : Reflects u env) {s : SimpleStmt} (keys : Throughout DistinctKeys (.simple s)) :
    Succeeds (clause env s) ↔ Throughout (Allowed u) (.simple s) := by
  rw [← simple_succeeds reflects keys]
  cases s with
  | exprs targets span => rfl
  | assign targets op values span => rfl
  | send channel value span => exact iff_of_false (not_succeeds_refuse _ _) (not_succeeds_error _)

theorem varTexts_succeed_bare (env : Env) (d : VarDecl) (ty : Option String) (names : List Name) :
    Succeeds (varTexts env d ty names []) ↔ (ty = none → names = []) := by
  induction names with
  | nil =>
    rw [varTexts]
    exact iff_of_true (succeeds_ok _) fun _ => rfl
  | cons name names ih =>
    rw [varTexts, succeeds_bind fun _ => succeeds_bind_ok, ih]
    cases ty with
    | none => exact iff_of_false (fun both => not_succeeds_refuse _ _ both.1) (by simp)
    | some ty => exact iff_of_true ⟨succeeds_ok _, nofun⟩ nofun

theorem varTexts_succeed {d : VarDecl} {ty : Option String} {names : List Name} {values : List Expr}
    (each : values.length = names.length) :
    Succeeds (varTexts env d ty names values) ↔ ∀ value ∈ values, Succeeds (expr env value) := by
  induction names generalizing values with
  | nil =>
    rw [List.length_eq_zero_iff.mp each, varTexts]
    exact iff_of_true (succeeds_ok _) nofun
  | cons name names ih =>
    cases values with
    | nil => cases each
    | cons value values =>
      have declared (text : String) : Succeeds (varText d ty name.value (some text)) := by
        cases ty <;> exact succeeds_ok _
      rw [varTexts, List.forall_mem_cons]
      refine succeeds_bind fun text => ?_
      rw [succeeds_bind fun _ => succeeds_bind_ok, and_iff_right (declared text), ih (Nat.succ.inj each)]

theorem varTexts_succeed_iff {d : VarDecl} {ty : Option String} {names : List Name} {values : List Expr}
    (counts : values = [] ∨ values.length = names.length) : Succeeds (varTexts env d ty names values) ↔
      (ty = none → values = [] → names = []) ∧ ∀ value ∈ values, Succeeds (expr env value) := by
  rcases counts with rfl | each
  · rw [varTexts_succeed_bare, and_iff_left nofun]
    simp
  · rw [varTexts_succeed each, and_iff_right]
    rintro - rfl
    exact List.length_eq_zero_iff.mp each.symm

theorem varDecl_succeeds (reflects : Reflects u env) {d : VarDecl}
    (keys : ∀ e ∈ d.values, Throughout DistinctKeys (.expr e)) : Succeeds (varDecl env d) ↔
      VarAllowed u d ∧ ∀ e ∈ d.values, Throughout (Allowed u) (.expr e) := by
  have written : (∀ e ∈ d.values, Succeeds (expr env e)) ↔ ∀ e ∈ d.values, Throughout (Allowed u) (.expr e) :=
    forall₂_congr fun e member => expr_succeeds reflects e (keys e member)
  have counts : ¬ (d.values.length ≠ 0 ∧ d.values.length ≠ d.names.length) ↔
      d.values = [] ∨ d.values.length = d.names.length := by
    rw [Decidable.not_and_iff_not_or_not, Decidable.not_not, Decidable.not_not, List.length_eq_zero_iff]
  rw [varDecl, succeeds_unless, counts, VarAllowed, and_assoc, and_assoc]
  refine and_congr_right fun counted => ?_
  cases d.ty with
  | none =>
    refine (varTexts_succeed_iff counted).trans ?_
    rw [written]
    simp
  | some ty =>
    have typed : Succeeds (typeName env ty >>= fun text => varTexts env d (some text) d.names d.values) ↔
        PlainType u ty.value ∧ ∀ e ∈ d.values, Throughout (Allowed u) (.expr e) := by
      rw [← written, ← reflects.typeName_succeeds]
      refine succeeds_bind fun text => ?_
      rw [varTexts_succeed_iff counted, and_iff_right nofun]
    simp [typed]

theorem loopHead_succeeds (reflects : Reflects u env) {header : LoopHeader} {span : Span}
    (keys : Throughout DistinctKeys (.header header)) :
    Succeeds (loopHead env span header) ↔ Throughout (Allowed u) (.header header) := by
  rw [throughout_iff] at keys ⊢
  cases header with
  | infinite => exact iff_of_true (succeeds_ok _) ⟨trivial, nofun⟩
  | cond e =>
    rw [Phrase.children, LoopHeader.phrases, List.forall_mem_singleton] at keys ⊢
    rw [loopHead, succeeds_bind_ok, expr_succeeds reflects e keys.2]
    exact (and_iff_right trivial).symm
  | classic init test post =>
    simp only [Phrase.children, LoopHeader.phrases, List.forall_mem_append, List.forall_mem_map, Option.mem_toList]
      at keys ⊢
    obtain ⟨-, init_keys, test_keys, post_keys⟩ := keys
    rw [loopHead, succeeds_bind fun _ => succeeds_bind fun _ => succeeds_bind_ok, succeeds_mapM_option,
      succeeds_mapM_option, succeeds_mapM_option]
    refine Iff.trans ?_ (and_iff_right trivial).symm
    refine and_congr ?_ (and_congr ?_ ?_)
    · exact forall₂_congr fun s member => clause_succeeds reflects (init_keys s member)
    · exact forall₂_congr fun e member => expr_succeeds reflects e (test_keys e member)
    · exact forall₂_congr fun s member => clause_succeeds reflects (post_keys s member)
  | range key value iterable => exact iff_of_false (not_succeeds_refuse _ _) And.left

mutual

theorem stmts_succeed (reflects : Reflects u env) : (ss : List Stmt) →
    (∀ s ∈ ss, Throughout DistinctKeys (.stmt s)) →
      (Succeeds (stmts env ss) ↔ ∀ s ∈ ss, Throughout (Allowed u) (.stmt s))
  | [], _ => by
    rw [stmts]
    exact iff_of_true (succeeds_ok _) nofun
  | s :: ss, keys => by
    rw [List.forall_mem_cons] at keys ⊢
    rw [stmts, succeeds_bind fun _ => succeeds_bind_ok, stmt_succeeds reflects s keys.1,
      stmts_succeed reflects ss keys.2]

theorem block_succeeds (reflects : Reflects u env) : (b : Block) → Throughout DistinctKeys (.block b) →
    (Succeeds (block env b) ↔ Throughout (Allowed u) (.block b))
  | ⟨ss, _⟩, keys => by
    rw [throughout_block] at keys ⊢
    rw [block, stmts_succeed reflects ss keys.2]
    exact (and_iff_right trivial).symm

theorem stmt_succeeds (reflects : Reflects u env) : (s : Stmt) → Throughout DistinctKeys (.stmt s) →
    (Succeeds (stmt env s) ↔ Throughout (Allowed u) (.stmt s))
  | .var d, keys => by
    rw [throughout_iff] at keys ⊢
    rw [Phrase.children, Stmt.phrases, List.forall_mem_map] at keys ⊢
    rw [stmt, succeeds_bind_ok, varDecl_succeeds reflects keys.2]
    rfl
  | .simple s, keys => by
    rw [throughout_iff] at keys ⊢
    rw [Phrase.children, Stmt.phrases, List.forall_mem_singleton] at keys ⊢
    rw [stmt, succeeds_bind_ok, simple_succeeds reflects keys.2]
    exact (and_iff_right trivial).symm
  | .ret [] span, _ => by
    rw [stmt, throughout_iff]
    exact iff_of_true (succeeds_ok _) ⟨Nat.zero_le 1, nofun⟩
  | .ret [value] span, keys => by
    rw [throughout_iff] at keys ⊢
    rw [Phrase.children, Stmt.phrases, List.map_singleton, List.forall_mem_singleton] at keys ⊢
    rw [stmt, succeeds_bind_ok, expr_succeeds reflects value keys.2]
    exact (and_iff_right (Nat.le_refl 1)).symm
  | .ret (_ :: _ :: values) span, _ => by
    rw [stmt, throughout_iff]
    · refine iff_of_false (not_succeeds_refuse _ _) fun both => ?_
      have short : values.length + 1 + 1 ≤ 1 := both.1
      omega
    all_goals simp
  | .cond s, keys => by
    rw [throughout_iff] at keys ⊢
    rw [Phrase.children, Stmt.phrases, List.forall_mem_singleton] at keys ⊢
    rw [stmt, ifStmt_succeeds reflects s keys.2]
    exact (and_iff_right trivial).symm
  | .loop header body span, keys => by
    rw [throughout_iff] at keys ⊢
    rw [Phrase.children, Stmt.phrases, List.forall_mem_cons, List.forall_mem_singleton] at keys ⊢
    rw [stmt, succeeds_bind fun _ => succeeds_bind_ok, loopHead_succeeds reflects keys.2.1,
      block_succeeds reflects body keys.2.2]
    exact (and_iff_right trivial).symm
  | .branch kind span, _ => by
    rw [stmt, throughout_iff]
    exact iff_of_true (succeeds_ok _) ⟨trivial, nofun⟩

theorem ifStmt_succeeds (reflects : Reflects u env) : (s : IfStmt) → Throughout DistinctKeys (.cond s) →
    (Succeeds (ifStmt env s) ↔ Throughout (Allowed u) (.cond s))
  | ⟨init, cond, body, otherwise, _⟩, keys => by
    rw [throughout_cond] at keys ⊢
    obtain ⟨-, init_keys, cond_keys, body_keys, else_keys⟩ := keys
    have leads : Succeeds (init.mapM (simple env)) ↔ ∀ s ∈ init, Throughout (Allowed u) (.simple s) :=
      succeeds_mapM_option.trans (forall₂_congr fun s member => simple_succeeds reflects (init_keys s member))
    rw [← leads, ← expr_succeeds reflects cond cond_keys, ← block_succeeds reflects body body_keys,
      ← elseBranch_succeeds reflects otherwise else_keys, ifStmt]
    refine Iff.trans ?_ (and_iff_right trivial).symm
    refine succeeds_bind fun first => succeeds_bind fun test => succeeds_bind fun inner => ?_
    refine succeeds_bind_total fun rest => ?_
    cases first with
    | none => exact succeeds_ok _
    | some s => exact succeeds_ok _

theorem elseBranch_succeeds (reflects : Reflects u env) : (otherwise : Else) →
    (∀ part ∈ otherwise.phrases, Throughout DistinctKeys part) →
      (Succeeds (elseBranch env otherwise) ↔ ∀ part ∈ otherwise.phrases, Throughout (Allowed u) part)
  | .none, _ => by
    rw [elseBranch]
    exact iff_of_true (succeeds_ok _) nofun
  | .block b, keys => by
    rw [Else.phrases, List.forall_mem_singleton] at keys ⊢
    rw [elseBranch, succeeds_bind_ok, block_succeeds reflects b keys]
  | .chain ⟨none, cond, body, otherwise, _⟩, keys => by
    rw [Else.phrases, List.forall_mem_singleton, throughout_cond] at keys ⊢
    obtain ⟨-, -, cond_keys, body_keys, else_keys⟩ := keys
    rw [elseBranch, succeeds_bind fun _ => succeeds_bind fun _ => succeeds_bind_ok,
      expr_succeeds reflects cond cond_keys, block_succeeds reflects body body_keys,
      elseBranch_succeeds reflects otherwise else_keys]
    exact ((and_iff_right trivial).trans (and_iff_right nofun)).symm
  | .chain ⟨some init, cond, body, otherwise, span⟩, keys => by
    rw [Else.phrases, List.forall_mem_singleton] at keys ⊢
    rw [elseBranch, succeeds_bind_ok, ifStmt_succeeds reflects ⟨some init, cond, body, otherwise, span⟩ keys]
    simp

end

end ViewLang.Gpu.Wgsl
