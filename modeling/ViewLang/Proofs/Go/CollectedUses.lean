import ViewLang.Proofs.Go.Alias
import ViewLang.Proofs.Go.ScopeDiscipline

namespace ViewLang.Go

open Lexical (Locals)

namespace Uses

@[simp] theorem union_none (a : Uses) : a.union none = a := by
  simp only [union, none, Bool.or_false]

@[simp] theorem none_union (a : Uses) : none.union a = a := rfl

theorem union_assoc (a b c : Uses) : (a.union b).union c = a.union (b.union c) := by
  simp only [union, Bool.or_assoc]

theorem union_comm (a b : Uses) : a.union b = b.union a := by
  simp only [union, Bool.or_comm]

@[simp] theorem union_self (a : Uses) : a.union a = a := by
  simp only [union, Bool.or_self]

instance : Std.Associative union := ⟨union_assoc⟩

instance : Std.Commutative union := ⟨union_comm⟩

instance : Std.IdempotentOp union := ⟨union_self⟩

instance : Std.LawfulIdentity union none where
  left_id := none_union
  right_id := union_none

def ofRuntime : Uses := ⟨false, true⟩

def ofFmt : Uses := ⟨true, false⟩

end Uses

namespace Marked

def uses (code : Marked) : Uses := ⟨refers code "fmt", refers code standIn⟩

@[simp] theorem uses_nil : uses [] = .none := rfl

@[simp] theorem uses_append (first second : Marked) : uses (first ++ second) = (uses first).union (uses second) := by
  rw [uses, refers_append, refers_append]
  rfl

@[simp] theorem uses_lit (s : String) : uses (lit s) = .none := rfl

@[simp] theorem uses_mention (name : String) : uses (mention name) = .none := rfl

@[simp] theorem uses_fmt : uses (refer "fmt") = .ofFmt := rfl

@[simp] theorem uses_bind (m : Mark) (rest : Marked) : uses (.bind m :: rest) = uses rest :=
  uses_append [.bind m] rest

@[simp] theorem uses_scope (inner rest : Marked) : uses (.scope inner :: rest) = (uses inner).union (uses rest) := by
  have single : uses [.scope inner] = uses inner := by
    rw [uses, refers_scope, refers_scope]
    rfl
  rw [← single]
  exact uses_append [.scope inner] rest

theorem uses_refer {name : String} (unformatted : name ≠ "fmt") (known : name ≠ standIn) :
    uses (refer name) = .none := by
  rw [uses, refers_refer unformatted, refers_refer known]
  rfl

@[simp] theorem uses_binds (names : List String) : uses (binds names) = .none := by
  rw [uses, refers_binds, refers_binds]
  rfl

theorem uses_qualified {author : Author} {text : String}
    (through : author = .generator → ∃ path, text = "c." ++ path) : uses (qualified author text) = .none := by
  cases author with
  | user => rfl
  | generator =>
    obtain ⟨path, rfl⟩ := through rfl
    rw [qualified, receiver_first]
    rfl

@[simp] theorem uses_separated (codes : List Marked) : uses (separated codes) = uses codes.flatten := by
  induction codes with
  | nil => rfl
  | cons first rest ih =>
    cases rest with
    | nil => simp [separated]
    | cons second rest => simpa [separated] using congrArg (uses first).union ih

@[simp] theorem uses_resultSuffix (codes : List Marked) : uses (resultSuffix codes) = uses codes.flatten := by
  match codes with
  | [] => rfl
  | [_] => simp [resultSuffix]
  | first :: second :: rest => simp [resultSuffix]

@[simp] theorem uses_line (level : Nat) (code : Marked) : uses (line level code) = uses code := by
  simp only [line, uses_append, uses_lit, Uses.none_union, Uses.union_none]

@[simp] theorem uses_runtime (env : Env) (name : String) : uses (runtime env.opened name) = .ofRuntime := by
  rfl

end Marked

mutual

theorem Piece.shown_of_mem {scope : List Mark} {o : Occurrence} (named : o.mark.name ≠ "") : (p : Piece) →
    o ∈ p.occurrences scope → p.render ≠ ""
  | .text _, member => by
    rw [Piece.occurrences] at member
    cases member
  | .bind _, member => by
    rw [Piece.occurrences] at member
    cases member
  | .use m, member => by
    rw [Piece.occurrences, List.mem_singleton] at member
    rw [Piece.render]
    rw [member] at named
    exact named
  | .scope inner, member => by
    rw [Piece.occurrences] at member
    rw [Piece.render]
    exact Marked.shown_of_mem named inner member

theorem Marked.shown_of_mem {scope : List Mark} {o : Occurrence} (named : o.mark.name ≠ "") : (ps : List Piece) →
    o ∈ Marked.occurrences scope ps → Marked.render ps ≠ ""
  | [], member => by
    rw [Marked.occurrences] at member
    cases member
  | p :: ps, member => by
    rw [Marked.occurrences, List.mem_append] at member
    rw [Marked.render, Ne, String.append_eq_empty_iff, not_and_or]
    rcases member with first | later
    · exact .inl (Piece.shown_of_mem named p first)
    · exact .inr (Marked.shown_of_mem named ps later)

end

theorem Marked.uses_blank {code : Marked} (blank : render code = "") : uses code = .none := by
  have nowhere {name : String} (named : name ≠ "") : refers code name = false := by
    refine Bool.eq_false_iff.mpr fun referred => ?_
    obtain ⟨o, member, mark⟩ := refers_iff.mp referred
    exact shown_of_mem (by rw [mark]; exact named) code member blank
  rw [uses, nowhere (by decide), nowhere (by decide)]
  rfl

def Collects {α : Type} (act : Lower α) (uses : Uses) (post : α → Prop) : Prop :=
  ∀ s, (act.run s).2.uses = s.uses.union uses ∧ post (act.run s).1

abbrev Adds {α : Type} (act : Lower α) (uses : Uses) : Prop := Collects act uses fun _ => True

section

variable {α β : Type} {act : Lower α} {next : α → Lower β} {a b : Uses} {mid : α → Prop} {post : β → Prop}

theorem Collects.pure {x : α} {post : α → Prop} (given : post x) : Collects (pure x) .none post :=
  fun s => ⟨s.uses.union_none.symm, given⟩

theorem Collects.bind (first : Collects act a mid) (second : ∀ x, mid x → Collects (next x) b post) :
    Collects (act >>= next) (a.union b) post := by
  intro s
  obtain ⟨noted, given⟩ := first s
  obtain ⟨later, result⟩ := second _ given (act.run s).2
  refine ⟨?_, result⟩
  rw [noted, Uses.union_assoc] at later
  exact later

theorem Collects.map {f : α → β} (first : Collects act a mid) (given : ∀ x, mid x → post (f x)) :
    Collects (act >>= fun x => Pure.pure (f x)) a post := by
  have both := first.bind fun x held => Collects.pure (given x held)
  rw [Uses.union_none] at both
  exact both

theorem Collects.congr {post : α → Prop} (collects : Collects act a post) (same : a = b) : Collects act b post :=
  same ▸ collects

theorem Adds.pure {x : α} : Adds (Pure.pure x) .none := Collects.pure trivial

theorem Adds.then (first : Adds act a) (second : ∀ x, Collects (next x) b post) :
    Collects (act >>= next) (a.union b) post := first.bind fun x _ => second x

theorem Adds.map {f : α → β} (first : Adds act a) : Adds (act >>= fun x => Pure.pure (f x)) a :=
  Collects.map first fun _ _ => trivial

theorem Collects.adds {post : α → Prop} (collects : Collects act a post) : Adds act a :=
  fun s => ⟨(collects s).1, trivial⟩

theorem Adds.keeping {change : LowerState → LowerState} (kept : ∀ s, (change s).uses = s.uses) :
    Adds (modify change) .none := by
  intro s
  refine ⟨?_, trivial⟩
  rw [Uses.union_none]
  exact kept s

theorem Adds.reading {next : LowerState → Lower β} (seen : ∀ s, Adds (next s) b) : Adds (get >>= next) b :=
  fun s => seen s s

theorem Collects.inScope {post : α → Prop} (inner : Collects act a post) : Collects (Lower.inScope act) a post := by
  have entered : Adds (modify .pushScope) .none := .keeping fun _ => rfl
  have left : Adds (modify .popScope) .none := .keeping fun _ => rfl
  refine (entered.then fun _ => inner.bind fun x given => left.then fun _ => .pure given).congr ?_
  rw [Uses.none_union, Uses.none_union, Uses.union_none]

end

open Marked (uses)

theorem useFmt_adds : Adds (modify .useFmt) .ofFmt := by
  intro s
  refine ⟨?_, trivial⟩
  change (⟨true, s.uses.runtime⟩ : Uses) = _
  simp only [Uses.union, Uses.ofFmt, Bool.or_true, Bool.or_false]

theorem useRuntime_adds : Adds (modify .useRuntime) .ofRuntime := by
  intro s
  refine ⟨?_, trivial⟩
  change (⟨s.uses.fmt, true⟩ : Uses) = _
  simp only [Uses.union, Uses.ofRuntime, Bool.or_true, Bool.or_false]

section

variable {env : Env}

theorem runtime_adds (name : String) : Adds (Lower.runtime env name) .ofRuntime := useRuntime_adds.map

mutual

theorem typeExpr_uses (runtime : String) : (ty : TypeExpr) →
    uses (Marked.typeExpr standIn ty) = ⟨false, (Go.type runtime ty).2⟩
  | .named name => by
    rw [Marked.typeExpr, Go.type]
    split <;> rfl
  | .generic name arg => by
    rw [Marked.typeExpr, Go.type]
    have named : uses (Marked.qualified .user name) = .none := rfl
    simp only [Marked.uses_append, Marked.uses_lit, named, typeExpr_uses runtime arg, Uses.none_union, Uses.union_none]
  | .chan recvOnly elem => by
    rw [Marked.typeExpr, Go.type]
    simp only [Marked.uses_append, Marked.uses_lit, typeExpr_uses runtime elem]
    rfl
  | .slice elem => by
    rw [Marked.typeExpr, Go.type]
    simp only [Marked.uses_append, Marked.uses_lit, typeExpr_uses runtime elem]
    rfl
  | .pointer elem => by
    rw [Marked.typeExpr, Go.type]
    simp only [Marked.uses_append, Marked.uses_lit, typeExpr_uses runtime elem]
    rfl
  | .func params results => by
    rw [Marked.typeExpr, Go.type]
    simp only [Marked.uses_append, Marked.uses_lit, Marked.uses_separated, Marked.uses_resultSuffix,
      typeExprs_uses runtime params, typeExprs_uses runtime results, Uses.none_union, Uses.union_none]
    rfl

/-- A type is noted to name the runtime's `Node` exactly when its code refers to the runtime. -/
theorem typeExprs_uses (runtime : String) : (ts : List TypeExpr) →
    uses (Marked.typeExprs standIn ts).flatten = ⟨false, (Go.types runtime ts).2⟩
  | [] => rfl
  | t :: ts => by
    rw [Marked.typeExprs, Go.types, List.flatten_cons, Marked.uses_append, typeExpr_uses runtime t,
      typeExprs_uses runtime ts]
    rfl

end

theorem type_adds (ty : TypeExpr) : Adds (Lower.type env ty) (uses (Marked.type env.opened ty)) := by
  have noted : uses (Marked.type env.opened ty) = ⟨false, (Go.type env.runtime ty).2⟩ := typeExpr_uses env.runtime ty
  rw [noted, Lower.type]
  obtain ⟨text, used⟩ := Go.type env.runtime ty
  cases used with
  | false => exact .pure
  | true => exact useRuntime_adds.map

theorem params_adds (ps : List Param) : Adds (Lower.params env ps) (uses (Marked.params env.opened ps).flatten) := by
  induction ps with
  | nil => exact .pure
  | cons p ps ih =>
    refine ((type_adds p.ty.value).then fun _ => ih.map).congr ?_
    simp [Marked.params]

theorem typeList_adds (ts : List (Located TypeExpr)) :
    Adds (Lower.typeList env ts) (uses (ts.map fun t => Marked.type env.opened t.value).flatten) := by
  induction ts with
  | nil => exact .pure
  | cons t ts ih =>
    refine ((type_adds t.value).then fun _ => ih.map).congr ?_
    simp

theorem typeSuffix_adds (ty : Option (Located TypeExpr)) :
    Adds (optionally (fun t => do
      let text ← Lower.type env t.value
      pure (" " ++ text)) ty) (uses (Marked.typeSuffix env.opened ty)) := by
  cases ty with
  | none => exact .pure
  | some t =>
    refine (type_adds t.value).map.congr ?_
    simp [Marked.typeSuffix]

theorem declare_adds (name : String) : Adds (Lower.declare name) .none := by
  refine .keeping fun s => ?_
  rw [LowerState.declare]
  split
  · rfl
  · split <;> rfl

theorem declareAll_adds (names : List Name) : Adds (Lower.declareAll names) .none := by
  induction names with
  | nil => exact .pure
  | cons name names ih => exact (declare_adds name.value).then fun _ => ih

theorem resolve_adds (name : String) : Adds (Lower.resolve env name) .none := .reading fun _ => .pure

theorem noteTarget_adds (target : Expr) : Adds (Lower.noteTarget env target) .none := by
  rw [Lower.noteTarget]
  split
  · exact .pure
  · refine .reading fun s => ?_
    split
    · refine .keeping fun s => ?_
      rw [LowerState.noteWrite]
      split <;> rfl
    · exact .pure

theorem noteTargets_adds (targets : List Expr) : Adds (targets.forM (Lower.noteTarget env)) .none := by
  induction targets with
  | nil => exact .pure
  | cons target targets ih => exact (noteTarget_adds target).then fun _ => ih

theorem receive_adds (level : Nat) (channel : Name) (span : Span) :
    Adds (Lower.primary env level (.receive channel span)) .none := by
  rw [Lower.primary]
  refine .reading fun s => ?_
  split
  · exact .pure
  · exact (resolve_adds channel.value).map

variable (through : ThroughReceiver env) (locals : Locals)

include through

theorem Marked.uses_name (name : String) : uses (Marked.name env.opened locals name) = .none := by
  change uses (Marked.name env locals name) = .none
  rw [Marked.name]
  split
  · exact uses_qualified fun _ => field?_through through locals ‹_›
  · exact uses_mention name

theorem Marked.uses_receive (channel : String) : uses (Marked.receive env.opened locals channel) = .none := by
  change uses (Marked.receive env locals channel) = .none
  rw [Marked.receive]
  split
  · exact uses_qualified fun _ => latest?_through through locals ‹_›
  · exact (uses_append _ _).trans (uses_name through locals channel)

end

theorem Marked.uses_literal {head body : Marked} {empty : Bool} (level : Nat) (bound : List String) (writes : Bool)
    (blank : empty = true → uses body = .none) :
    uses (literal level head bound body empty writes) = (uses head).union (uses body) := by
  have receiver : uses (deferred (level + 1) writes) = .none := by
    cases writes <;> rfl
  rw [literal]
  split
  · have nothing := blank (by simp_all)
    simp only [uses_append, uses_lit, nothing]
  · simp only [uses_append, uses_lit, uses_scope, uses_nil, uses_binds, receiver, Uses.none_union, Uses.union_none]

mutual

theorem expr_adds {env : Env} (through : ThroughReceiver env) (locals : Locals) (level : Nat) : (e : Expr) →
    Adds (Lower.expr env level e) (uses (Marked.expr env.opened locals level e))
  | ⟨head, tail, _⟩ => by
    rw [Lower.expr, Marked.expr, Marked.uses_append]
    exact (primary_adds through locals level head).then fun _ => (links_add through locals level tail).map

theorem links_add {env : Env} (through : ThroughReceiver env) (locals : Locals) (level : Nat) : (ls : List Link) →
    Adds (Lower.links env level ls) (uses (Marked.links env.opened locals level ls))
  | [] => by
    rw [Lower.links, Marked.links]
    exact .pure
  | ⟨op, operand⟩ :: ls => by
    rw [Lower.links, Marked.links]
    refine ((primary_adds through locals level operand).then fun _ => (links_add through locals level ls).map).congr ?_
    simp

theorem exprs_add {env : Env} (through : ThroughReceiver env) (locals : Locals) (level : Nat) : (es : List Expr) →
    Adds (Lower.exprs env level es) (uses (Marked.exprs env.opened locals level es).flatten)
  | [] => by
    rw [Lower.exprs, Marked.exprs]
    exact .pure
  | e :: es => by
    rw [Lower.exprs, Marked.exprs, List.flatten_cons, Marked.uses_append]
    exact (expr_adds through locals level e).then fun _ => (exprs_add through locals level es).map

theorem optional_adds {env : Env} (through : ThroughReceiver env) (locals : Locals) (level : Nat) : (e : Option Expr) →
    Adds (optionally (Lower.expr env level) e) (uses (Marked.optional env.opened locals level e))
  | none => by
    rw [Marked.optional]
    exact .pure
  | some e => by
    rw [Marked.optional]
    exact expr_adds through locals level e

theorem entries_add {env : Env} (through : ThroughReceiver env) (locals : Locals) (level : Nat) : (es : List Entry) →
    Adds (Lower.entries env level es) (uses (Marked.entries env.opened locals level es).flatten)
  | [] => by
    rw [Lower.entries, Marked.entries]
    exact .pure
  | ⟨some key, value⟩ :: es => by
    rw [Lower.entries, Marked.entries]
    refine ((expr_adds through locals level value).then fun _ => (entries_add through locals level es).map).congr ?_
    simp
  | ⟨none, value⟩ :: es => by
    rw [Lower.entries, Marked.entries, List.flatten_cons, Marked.uses_append]
    exact (expr_adds through locals level value).then fun _ => (entries_add through locals level es).map

theorem primary_adds {env : Env} (through : ThroughReceiver env) (locals : Locals) (level : Nat) : (p : Primary) →
    Adds (Lower.primary env level p) (uses (Marked.primary env.opened locals level p))
  | .int _ => by
    rw [Lower.primary, Marked.primary]
    exact .pure
  | .float _ => by
    rw [Lower.primary, Marked.primary]
    exact .pure
  | .string _ => by
    rw [Lower.primary, Marked.primary]
    exact .pure
  | .template t => by
    rw [Lower.primary, Marked.primary]
    exact template_adds through locals level t
  | .composite ty es _ => by
    rw [Lower.primary, Marked.primary]
    refine ((type_adds ty.value).then fun _ => (entries_add through locals level es).map).congr ?_
    simp
  | .make ty args _ => by
    rw [Lower.primary, Marked.primary]
    refine ((type_adds ty.value).then fun _ => (exprs_add through locals level args).map).congr ?_
    simp
  | .index target index _ => by
    rw [Lower.primary, Marked.primary]
    refine ((primary_adds through locals level target).then fun _ =>
      (expr_adds through locals level index).map).congr ?_
    simp
  | .slice target low high _ => by
    rw [primary_slice, Marked.primary]
    refine ((primary_adds through locals level target).then fun _ => (optional_adds through locals level low).then
      fun _ => (optional_adds through locals level high).map).congr ?_
    simp
  | .select b _ _ => by
    rw [Lower.primary, Marked.primary]
    refine (base_adds through locals level b).map.congr ?_
    simp
  | .call b _ args _ => by
    rw [Lower.primary, Marked.primary]
    refine ((base_adds through locals level b).then fun _ => (exprs_add through locals level args).map).congr ?_
    simp
  | .func ps results ⟨ss, span⟩ _ => by
    rw [Lower.primary, Marked.primary]
    have entered : Adds (modify fun s => { s.pushScope with writes := false :: s.writes }) .none :=
      .keeping fun _ => rfl
    have left : Adds (modify fun s => { s.popScope with writes := s.writes.tail }) .none := .keeping fun _ => rfl
    refine ((params_adds ps).then fun _ => (typeList_adds results).then fun _ => entered.then fun _ =>
      (declareAll_adds _).then fun _ => (block_adds through (locals.extend (ps.map (·.name.value))) (level + 1)
        ⟨ss, span⟩).then fun _ => Adds.reading fun _ => left.map).congr ?_
    rw [Marked.uses_literal]
    · simp [Uses.union_assoc]
    · intro empty
      rw [block_isEmpty, List.isEmpty_iff] at empty
      rw [empty, Marked.block, Marked.stmts]
      rfl
  | .receive channel span => by
    rw [Marked.primary, Marked.uses_receive through]
    exact receive_adds level channel span
  | .unary op operand _ => by
    rw [Lower.primary, Marked.primary]
    refine (primary_adds through locals level operand).map.congr ?_
    simp
  | .paren inner => by
    rw [Lower.primary, Marked.primary]
    refine (expr_adds through locals level inner).map.congr ?_
    simp

theorem base_adds {env : Env} (through : ThroughReceiver env) (locals : Locals) (level : Nat) : (b : Base) →
    Adds (Lower.base env level b) (uses (Marked.base env.opened locals level b))
  | .name n => by
    rw [Lower.base, Marked.base, Marked.uses_name through]
    exact resolve_adds n.value
  | .operand p => by
    rw [Lower.base, Marked.base]
    exact primary_adds through locals level p

theorem template_adds {env : Env} (through : ThroughReceiver env) (locals : Locals) (level : Nat) : (t : Template) →
    Adds (Lower.template env level t) (uses (Marked.template env.opened locals level t))
  | ⟨fs, _⟩ => by
    rw [Lower.template, Marked.template]
    have args := fragments_collect through locals level fs
    cases empty : (Marked.interpolated env.opened locals level fs).isEmpty with
    | true =>
      rw [List.isEmpty_iff] at empty
      rw [empty] at args
      refine (args.bind fun result counted => ?_).congr (Uses.none_union .none)
      obtain ⟨format, texts⟩ := result
      dsimp only
      rw [if_pos (by simpa using counted)]
      exact Adds.pure
    | false =>
      rw [List.isEmpty_eq_false_iff] at empty
      refine (args.bind (b := .ofFmt) fun result counted => ?_).congr ?_
      · obtain ⟨format, texts⟩ := result
        have some : ¬ texts.isEmpty = true := by
          intro none
          rw [List.isEmpty_iff] at none
          rw [none] at counted
          exact empty (List.length_eq_zero_iff.mp counted.symm)
        dsimp only
        rw [if_neg some]
        exact useFmt_adds.map
      · simp [Uses.union_comm]

theorem fragments_collect {env : Env} (through : ThroughReceiver env) (locals : Locals) (level : Nat) :
    (fs : List Fragment) →
    Collects (Lower.fragments env level fs) (uses (Marked.interpolated env.opened locals level fs).flatten)
      fun result => result.2.length = (Marked.interpolated env.opened locals level fs).length
  | [] => by
    rw [Lower.fragments, Marked.interpolated]
    exact .pure rfl
  | .text _ :: fs => by
    rw [Lower.fragments, Marked.interpolated]
    exact (fragments_collect through locals level fs).map fun _ counted => counted
  | .interp e :: fs => by
    rw [Lower.fragments, Marked.interpolated, List.flatten_cons, Marked.uses_append]
    exact (expr_adds through locals level e).then fun _ =>
      (fragments_collect through locals level fs).map fun _ counted => congrArg (· + 1) counted

theorem block_adds {env : Env} (through : ThroughReceiver env) (locals : Locals) (level : Nat) : (b : Block) →
    Adds (Lower.block env level b) (uses (Marked.block env.opened locals level b))
  | ⟨ss, span⟩ => by
    rw [block_inScope, Marked.block, Marked.uses_scope, Marked.uses_nil, Uses.union_none]
    exact (stmts_add through locals level ss).inScope

theorem stmts_add {env : Env} (through : ThroughReceiver env) (locals : Locals) (level : Nat) : (ss : List Stmt) →
    Adds (Lower.stmts env level ss) (uses (Marked.stmts env.opened locals level ss))
  | [] => by
    rw [Lower.stmts, Marked.stmts]
    exact .pure
  | s :: ss => by
    rw [Lower.stmts, Marked.stmts, Marked.uses_append]
    exact (stmt_adds through locals level s).then fun _ => (stmts_add through _ level ss).map

theorem stmt_adds {env : Env} (through : ThroughReceiver env) (locals : Locals) (level : Nat) : (s : Stmt) →
    Adds (Lower.stmt env level s) (uses (Marked.stmt env.opened locals level s))
  | .var d => by
    rw [Lower.stmt, Marked.stmt, Marked.uses_line]
    exact (varDecl_adds through locals level d).map
  | .simple s => by
    rw [Lower.stmt, Marked.stmt, Marked.uses_line]
    exact (simple_adds through locals level s).map
  | .ret values _ => by
    rw [Lower.stmt, Marked.stmt, Marked.uses_line]
    refine (exprs_add through locals level values).map.congr ?_
    have shown := (exprs_marks through.opened locals level values).separated.shown
    split
    · rename_i blank
      rw [String.isEmpty_iff] at blank
      rw [blank] at shown
      rw [← Marked.uses_separated, Marked.uses_blank shown]
      rfl
    · simp
  | .cond s => by
    rw [Lower.stmt, Marked.stmt]
    refine (ifStmt_adds through locals level "if " s).map.congr ?_
    simp
  | .loop header body span => by
    rw [stmt_loop, Marked.stmt]
    refine (((loopHead_adds through locals level header).then fun _ =>
      (block_adds through (locals.extend (Lexical.declaredByHeader header)) (level + 1) body).map).inScope).congr ?_
    simp
  | .branch _ _ => by
    rw [Lower.stmt, Marked.stmt, Marked.uses_line]
    exact .pure

theorem definedTargets_add {env : Env} (through : ThroughReceiver env) (locals : Locals) (level : Nat) :
    (es : List Expr) →
    Adds (Lower.definedTargets env level es) (uses (Marked.definedTargets env.opened locals level es).flatten)
  | [] => by
    rw [Lower.definedTargets, Marked.definedTargets]
    exact .pure
  | e :: es => by
    rw [Marked.definedTargets]
    cases found : e.ident? with
    | some name =>
      rw [definedTargets_name env level found]
      refine ((declare_adds name.value).then fun _ =>
        (definedTargets_add through (locals.extend [name.value]) level es).map).congr ?_
      simp only [List.flatten_cons, Marked.uses_append, Marked.uses_lit]
    | none =>
      rw [definedTargets_expr env level found]
      refine ((expr_adds through locals level e).then fun _ =>
        (definedTargets_add through locals level es).map).congr ?_
      simp only [List.flatten_cons, Marked.uses_append]

theorem simple_adds {env : Env} (through : ThroughReceiver env) (locals : Locals) (level : Nat) : (s : SimpleStmt) →
    Adds (Lower.simple env level s) (uses (Marked.simple env.opened locals level s))
  | .exprs targets _ => by
    rw [Lower.simple, Marked.simple, Marked.uses_separated]
    exact (exprs_add through locals level targets).map
  | .assign targets op values _ => by
    rw [Lower.simple, Marked.simple]
    split
    · -- The values of a definition are lowered in front of its targets and written behind them.
      refine ((exprs_add through locals level values).then fun _ =>
        (definedTargets_add through locals level targets).map).congr ?_
      simp [Uses.union_comm]
    · split
      · refine ((noteTargets_adds targets).then fun _ => (exprs_add through locals level targets).map).congr ?_
        simp
      · refine ((noteTargets_adds targets).then fun _ => (exprs_add through locals level targets).then fun _ =>
          (exprs_add through locals level values).map).congr ?_
        simp
  | .send channel value _ => by
    rw [Lower.simple, Marked.simple]
    refine ((expr_adds through locals level channel).then fun _ => (expr_adds through locals level value).map).congr ?_
    simp

theorem varDecl_adds {env : Env} (through : ThroughReceiver env) (locals : Locals) (level : Nat) : (d : VarDecl) →
    Adds (Lower.varDecl env level d) (uses (Marked.varDecl env.opened locals level d))
  | ⟨names, ty, values, span⟩ => by
    rw [varDecl_eq, Marked.varDecl]
    refine ((typeSuffix_adds ty).then fun _ => (exprs_add through locals level values).then fun _ =>
      (declareAll_adds names).map).congr ?_
    cases empty : (Marked.exprs env.opened locals level values).isEmpty with
    | true =>
      rw [List.isEmpty_iff] at empty
      simp [empty]
    | false => simp

theorem clause_adds {env : Env} (through : ThroughReceiver env) (locals : Locals) (level : Nat) :
    (s : Option SimpleStmt) →
    Adds (optionally (Lower.simple env level) s) (uses (Marked.clause env.opened locals level s))
  | none => by
    rw [Marked.clause]
    exact .pure
  | some s => by
    rw [Marked.clause]
    exact simple_adds through locals level s

theorem leading_adds {env : Env} (through : ThroughReceiver env) (locals : Locals) (level : Nat) :
    (s : Option SimpleStmt) →
    Adds (optionally (fun s => do
      let text ← Lower.simple env level s
      pure (text ++ "; ")) s) (uses (Marked.leading env.opened locals level s))
  | none => by
    rw [Marked.leading]
    exact .pure
  | some s => by
    rw [Marked.leading]
    refine (simple_adds through locals level s).map.congr ?_
    simp

theorem ifStmt_adds {env : Env} (through : ThroughReceiver env) (locals : Locals) (level : Nat) (opening : String) :
    (s : IfStmt) → Adds (Lower.ifStmt env level opening s) (uses (Marked.ifStmt env.opened locals level opening s))
  | ⟨init, cond, body, otherwise, span⟩ => by
    rw [ifStmt_inScope, Marked.ifStmt]
    refine (((leading_adds through locals level init).then fun _ =>
      (expr_adds through (locals.extend (Lexical.declaredByClause init)) level cond).then fun _ =>
      (block_adds through (locals.extend (Lexical.declaredByClause init)) (level + 1) body).then fun _ =>
      (elseBranch_adds through (locals.extend (Lexical.declaredByClause init)) level otherwise).map).inScope).congr ?_
    simp [Uses.union_assoc]

theorem elseBranch_adds {env : Env} (through : ThroughReceiver env) (locals : Locals) (level : Nat) : (s : Else) →
    Adds (Lower.elseBranch env level s) (uses (Marked.elseBranch env.opened locals level s))
  | .none => by
    rw [Lower.elseBranch, Marked.elseBranch]
    exact .pure
  | .block b => by
    rw [Lower.elseBranch, Marked.elseBranch]
    refine (block_adds through locals (level + 1) b).map.congr ?_
    simp
  | .chain s => by
    rw [Lower.elseBranch, Marked.elseBranch]
    exact ifStmt_adds through locals level _ s

theorem loopHead_adds {env : Env} (through : ThroughReceiver env) (locals : Locals) (level : Nat) :
    (header : LoopHeader) →
    Adds (Lower.loopHead env level header) (uses (Marked.loopHead env.opened locals level header))
  | .infinite => by
    rw [Lower.loopHead, Marked.loopHead]
    exact .pure
  | .cond e => by
    rw [Lower.loopHead, Marked.loopHead]
    refine (expr_adds through locals level e).map.congr ?_
    simp
  | .classic init cond post => by
    rw [loopHead_classic, Marked.loopHead]
    refine ((clause_adds through locals level init).then fun _ =>
      (optional_adds through (locals.extend (Lexical.declaredByClause init)) level cond).then fun _ =>
      (clause_adds through (locals.extend (Lexical.declaredByClause init)) level post).map).congr ?_
    simp
  | .range key value iterable => by
    rw [Lower.loopHead, Marked.loopHead]
    refine ((expr_adds through locals level iterable).then fun _ => (declareAll_adds _).map).congr ?_
    simp

end

namespace Marked

theorem uses_own {name : String} (listed : name ∈ generatorNames) (unformatted : name ≠ "fmt") :
    uses (refer name) = .none := by
  refine uses_refer unformatted fun same => ?_
  rw [same] at listed
  exact absurd listed (by decide)

theorem uses_with (tag field : String) : uses (refer (tag ++ "With" ++ field)) = .none :=
  uses_refer (with_ne_word (by decide) tag field) (with_ne_word (by decide) tag field)

@[simp] theorem uses_option (tag : String) (p : Param) (value : Marked) :
    uses (option tag p value) = uses value := by
  simp only [option, uses_append, uses_lit, uses_with, Uses.none_union, Uses.union_none]

theorem uses_new (tag : String) : uses (refer ("New" ++ tag)) = .none :=
  uses_refer (new_ne_word (by decide) tag) (new_ne_word (by decide) tag)

@[simp] theorem uses_call (level : Nat) (head : Marked) (separator : String) (children : List Marked) :
    uses (call level head separator children) = (uses head).union (uses children.flatten) := by
  have lines : uses (children.flatMap fun c => lit (Lower.pad (level + 1)) ++ c ++ lit ",\n") =
      uses children.flatten := by
    induction children with
    | nil => rfl
    | cons c cs ih =>
      rw [List.flatMap_cons, List.flatten_cons, uses_append, uses_append, ih]
      simp
  rw [call]
  split
  · rename_i empty
    rw [List.isEmpty_iff] at empty
    simp [empty]
  · simp only [uses_append, uses_lit, lines, Uses.union_none]

def wrapping (count : Nat) : Uses := if 2 ≤ count then .ofRuntime else .none

theorem uses_listText (env : Env) (level : Nat) (codes : List Marked) :
    uses (listText env.opened level codes) = (uses codes.flatten).union (wrapping codes.length) := by
  match codes with
  | [] => exact uses_own (by decide) (by decide)
  | [_] => simp [listText, wrapping]
  | first :: second :: rest =>
    have several : wrapping (first :: second :: rest).length = .ofRuntime := if_pos (by simp)
    rw [several, listText, uses_call, uses_append, uses_runtime, uses_lit, Uses.union_none, Uses.union_comm]
    all_goals simp

@[simp] theorem uses_gather (level : Nat) (codes : List Marked) : uses (gather level codes) = uses codes.flatten := by
  have accumulator : uses (refer "nodes") = .none := uses_own (by decide) (by decide)
  have extension : uses (refer "append") = .none := uses_own (by decide) (by decide)
  match codes with
  | [] => rfl
  | [_] => simp [gather, accumulator, extension]
  | first :: second :: rest =>
    rw [gather]
    · simp only [uses_append, uses_lit, uses_call, accumulator, extension, Uses.none_union, Uses.union_none]
    all_goals simp

def gathering (given : Bool) : Uses := if given then .ofRuntime else .none

theorem uses_props (env : Env) (entries : List Marked) :
    uses (props env.opened entries) = (uses entries.flatten).union (gathering !entries.isEmpty) := by
  rw [props]
  cases entries with
  | nil => exact uses_own (by decide) (by decide)
  | cons first rest => simp [gathering, Uses.union_comm]

theorem uses_conditional (env : Env) (level : Nat) (cond body otherwise : Marked) :
    uses (conditional env.opened level cond body otherwise) =
      Uses.ofRuntime.union ((uses cond).union ((uses body).union (uses otherwise))) := by
  unfold conditional
  simp only [uses_append, uses_lit, uses_runtime, Uses.none_union, Uses.union_none, Uses.union_assoc]

theorem uses_loop (env : Env) (level : Nat) (key value : Option Name) (iterable : Marked) (children : List Marked) :
    uses (loop env.opened level key value iterable children) =
      Uses.ofRuntime.union ((uses iterable).union (uses children.flatten)) := by
  have accumulator : uses (refer "nodes") = .none := uses_own (by decide) (by decide)
  unfold loop
  simp only [uses_append, uses_lit, uses_runtime, uses_scope, uses_line, uses_bind, uses_binds, uses_gather, uses_nil,
    accumulator, Uses.none_union, Uses.union_none]
  ac_rfl

end Marked

section

variable {env : Env}

theorem textChild_adds (e : Expr) (text : String) :
    Adds (Lower.textChild env e text) (uses (Marked.textChild env.opened e [])) := by
  rw [Marked.textChild, Lower.textChild]
  cases e.primary? with
  | none => exact (runtime_adds "Text").then fun _ => useFmt_adds.map
  | some p =>
    cases p with
    | string _ => exact (runtime_adds "Text").map
    | template _ => exact (runtime_adds "Text").map
    | _ => exact (runtime_adds "Text").then fun _ => useFmt_adds.map

theorem Marked.uses_textChild (e : Expr) (value : Marked) :
    uses (textChild env.opened e value) = (uses value).union (uses (textChild env.opened e [])) := by
  rw [textChild, textChild]
  split <;>
    simp only [uses_append, uses_lit, uses_runtime, uses_fmt, uses_nil, Uses.none_union, Uses.union_none] <;> ac_rfl

theorem counts_append {α β : Type} {xs xs' : List α} {ys ys' : List β} (first : xs.length = ys.length)
    (second : xs'.length = ys'.length) : (xs ++ xs').length = (ys ++ ys').length := by
  rw [List.length_append, List.length_append, first, second]

theorem props_adds {entries : List String} {codes : List Marked} {next : String → Lower String} {behind : Uses}
    (counted : entries.length = codes.length) (rest : ∀ props, Adds (next props) behind) :
    Adds (if entries.isEmpty then pure "nil" >>= next
      else do
        let name ← Lower.runtime env "Props"
        let props ← pure (name ++ "\x7b" ++ ", ".intercalate entries ++ "\x7d")
        next props) ((Marked.gathering !codes.isEmpty).union behind) := by
  cases codes with
  | nil =>
    rw [List.length_eq_zero_iff.mp counted]
    exact Adds.pure.then rest
  | cons code codes =>
    cases entries with
    | nil => cases counted
    | cons first others =>
      refine ((runtime_adds "Props").then fun _ => Adds.pure.then rest).congr ?_
      rw [Uses.none_union]
      rfl

theorem listText_adds {texts : List String} {codes : List Marked} (level : Nat)
    (counted : texts.length = codes.length) :
    Adds (Lower.listText env level texts) (Marked.wrapping codes.length) := by
  rw [← counted]
  match texts with
  | [] => exact .pure
  | [_] => exact .pure
  | first :: second :: rest =>
    rw [Lower.listText]
    · have several : Marked.wrapping (first :: second :: rest).length = .ofRuntime := if_pos (by simp)
      rw [several]
      exact (runtime_adds "Fragment").map
    all_goals simp

section

variable (through : ThroughReceiver env) (locals : Locals) (level : Nat)

include through

theorem elementArgs_collect (args : List Entry) :
    let codes := Marked.elementArgs env.opened locals level args
    Collects (Lower.elementArgs env level args) ((uses codes.1.flatten).union (uses codes.2.flatten)) fun texts =>
      texts.1.length = codes.1.length ∧ texts.2.length = codes.2.length := by
  induction args with
  | nil => exact .pure ⟨rfl, rfl⟩
  | cons arg args ih =>
    obtain ⟨key, value⟩ := arg
    have given := expr_adds through locals level value
    rw [Lower.elementArgs, Marked.elementArgs]
    cases key with
    | some k =>
      refine (given.then fun _ => ih.map fun _ counted => ⟨congrArg (· + 1) counted.1, counted.2⟩).congr ?_
      simp [Uses.union_assoc]
    | none =>
      refine (given.then fun text => (textChild_adds value text).then fun _ =>
        ih.map fun _ counted => ⟨counted.1, congrArg (· + 1) counted.2⟩).congr ?_
      simp only [List.flatten_cons, Marked.uses_append, Marked.uses_textChild value (Marked.expr _ _ _ _)]
      ac_rfl

theorem propChildren_collect (ns : List Node) :
    Collects (Lower.propChildren env level ns) (uses (ns.filterMap (Marked.propChild env.opened locals level)).flatten)
      fun texts => texts.length = (ns.filterMap (Marked.propChild env.opened locals level)).length := by
  induction ns with
  | nil => exact .pure rfl
  | cons n ns ih =>
    rw [List.filterMap_cons]
    cases n with
    | element e =>
      obtain ⟨tag, args, children, span⟩ := e
      rw [Lower.propChildren.eq_def, Marked.propChild]
      dsimp only
      cases Vocabulary.prop? tag.value with
      | none => exact ih
      | some key =>
        cases args with
        | nil => exact ih
        | cons arg args =>
          obtain ⟨_, value⟩ := arg
          dsimp only
          rw [List.flatten_cons, Marked.uses_append, Marked.uses_append, Marked.uses_append, Marked.uses_lit,
            Marked.uses_lit, Uses.none_union, Uses.none_union]
          exact (expr_adds through locals level value).then fun _ => ih.map fun _ counted => congrArg (· + 1) counted
    | text _ => exact ih
    | template _ => exact ih
    | cond _ => exact ih
    | loop _ => exact ih

theorem optionArgs_add (tag : String) (ps positional : List Param) (args : List Entry) :
    Adds (Lower.optionArgs env level tag ps positional args)
      (uses (Marked.optionArgs env.opened locals level tag ps positional args).flatten) := by
  induction args generalizing positional with
  | nil =>
    rw [Lower.optionArgs, Marked.optionArgs]
    exact .pure
  | cons arg args ih =>
    obtain ⟨key, value⟩ := arg
    have given := expr_adds through locals level value
    cases key with
    | some name =>
      rw [Lower.optionArgs, Marked.optionArgs]
      cases ps.find? (·.name.value == name.value) with
      | none => exact ih positional
      | some p =>
        refine (given.then fun _ => (ih positional).map).congr ?_
        simp only [List.flatten_cons, Marked.uses_append, Marked.uses_option]
    | none =>
      cases positional with
      | nil =>
        rw [Lower.optionArgs, Marked.optionArgs]
        exact ih []
      | cons p positional =>
        rw [Lower.optionArgs, Marked.optionArgs]
        refine (given.then fun _ => (ih positional).map).congr ?_
        simp only [List.flatten_cons, Marked.uses_append, Marked.uses_option]

theorem paramArgs_add (args positional : List Entry) (ps : List Param) :
    Adds (Lower.paramArgs env level args positional ps)
      (uses (Marked.paramArgs env.opened locals level args positional ps).flatten) := by
  have allocate : uses (Marked.refer "new") = .none := Marked.uses_own (by decide) (by decide)
  induction ps generalizing positional with
  | nil => exact .pure
  | cons p ps ih =>
    rw [Lower.paramArgs.eq_def, Marked.paramArgs.eq_def]
    dsimp only
    cases Lower.namedArg? args p with
    | some a =>
      have given := expr_adds through locals level a.value
      cases p.variadic with
      | true =>
        refine (given.then fun _ => (ih positional).map).congr ?_
        simp
      | false =>
        refine (given.then fun _ => (ih positional).map).congr ?_
        simp
    | none =>
      cases p.variadic with
      | true =>
        refine ((exprs_add through locals level (positional.map (·.value))).then fun _ => (ih []).map).congr ?_
        simp
      | false =>
        cases positional with
        | nil =>
          refine ((type_adds p.ty.value).then fun _ => (ih []).map).congr ?_
          simp [allocate]
        | cons a positional =>
          refine ((expr_adds through locals level a.value).then fun _ => (ih positional).map).congr ?_
          simp

theorem embedArgs_add (tag : String) (args : List Entry) :
    Adds (Lower.embedArgs env level tag args) (uses (Marked.embedArgs env.opened locals level tag args).flatten) := by
  have known : env.opened.components = env.components := rfl
  rw [Lower.embedArgs, Marked.embedArgs, known]
  cases env.components.find? (·.name.value == tag) with
  | none => exact exprs_add through locals level _
  | some c =>
    dsimp only
    split
    · exact exprs_add through locals level _
    · split
      · exact optionArgs_add through locals level tag c.params c.params args
      · exact paramArgs_add through locals level args _ c.params

theorem embed_adds (tag : String) (args : List Entry) :
    Adds (Lower.embed env level tag args) (uses (Marked.embed env.opened locals level tag args)) := by
  refine ((embedArgs_add through locals level tag args).then fun _ => (runtime_adds "Embed").map).congr ?_
  simp [Marked.embed, Marked.uses_new, Uses.union_comm]

end

mutual

theorem node_adds {env : Env} (through : ThroughReceiver env) (locals : Locals) (level : Nat) : (n : Node) →
    Adds (Lower.node env level n) (uses (Marked.node env.opened locals level n))
  | .element e => by
    rw [Lower.node, Marked.node]
    exact element_adds through locals level e
  | .text t => by
    rw [Lower.node, Marked.node]
    refine (runtime_adds "Text").map.congr ?_
    simp
  | .template t => by
    rw [Lower.node, Marked.node]
    refine ((template_adds through locals level t).then fun _ => (runtime_adds "Text").map).congr ?_
    simp [Uses.union_comm]
  | .cond c => by
    rw [Lower.node, Marked.node]
    exact nodeIf_adds through locals level c
  | .loop l => by
    rw [Lower.node, Marked.node]
    exact nodeFor_adds through locals level l

theorem nodes_collect {env : Env} (through : ThroughReceiver env) (locals : Locals) (level : Nat) : (ns : List Node) →
    Collects (Lower.nodes env level ns) (uses (Marked.nodes env.opened locals level ns).flatten)
      fun texts => texts.length = (Marked.nodes env.opened locals level ns).length
  | [] => by
    rw [Lower.nodes, Marked.nodes]
    exact .pure rfl
  | n :: ns => by
    rw [Lower.nodes, Marked.nodes]
    split
    · exact nodes_collect through locals level ns
    · rw [List.flatten_cons, Marked.uses_append]
      exact (node_adds through locals level n).then fun _ =>
        (nodes_collect through locals level ns).map fun _ counted => congrArg (· + 1) counted

theorem element_adds {env : Env} (through : ThroughReceiver env) (locals : Locals) (level : Nat) : (e : Element) →
    Adds (Lower.element env level e) (uses (Marked.element env.opened locals level e))
  | ⟨tag, args, children, span⟩ => by
    rw [Lower.element, Marked.element]
    cases Vocabulary.tag? tag.value with
    | none => exact embed_adds through locals level tag.value args
    | some html =>
      have own := elementArgs_collect through locals level args
      have more := propChildren_collect through locals level children
      have inner := nodes_collect through locals (level + 1) children
      dsimp only at own ⊢
      have call : Adds (Lower.runtime env "Element") .ofRuntime := runtime_adds "Element"
      refine (own.bind fun first counted => more.bind fun second counted' => inner.adds.then fun _ =>
        props_adds (counts_append counted.1 counted') fun _ => call.map).congr ?_
      simp only [Marked.uses_call, Marked.uses_append, Marked.uses_lit, Marked.uses_runtime, Marked.uses_props,
        List.flatten_append]
      ac_rfl

theorem nodeIf_adds {env : Env} (through : ThroughReceiver env) (locals : Locals) (level : Nat) : (c : NodeIf) →
    Adds (Lower.nodeIf env level c) (uses (Marked.nodeIf env.opened locals level c))
  | ⟨cond, body, otherwise, span⟩ => by
    rw [Lower.nodeIf, Marked.nodeIf]
    have taken := nodes_collect through locals (Lower.listLevel (level + 2) body) body
    have other := nodes_collect through locals (Lower.listLevel (level + 1) otherwise) otherwise
    refine ((runtime_adds "Node").then fun _ => (expr_adds through locals (level + 1) cond).then fun _ =>
      taken.bind fun _ counted => (listText_adds (level + 2) counted).then fun _ =>
      other.bind fun _ counted => (listText_adds (level + 1) counted).map).congr ?_
    simp only [Marked.uses_conditional, Marked.uses_listText]
    ac_rfl

theorem nodeFor_adds {env : Env} (through : ThroughReceiver env) (locals : Locals) (level : Nat) : (l : NodeFor) →
    Adds (Lower.nodeFor env level l) (uses (Marked.nodeFor env.opened locals level l))
  | ⟨key, value, iterable, children, span⟩ => by
    rw [Lower.nodeFor, Marked.nodeFor]
    have inner := nodes_collect through (locals.extend ((key.toList ++ value.toList).map (·.value)))
      (Lower.listLevel (level + 2) children) children
    have entered : Adds (modify .pushScope) .none := .keeping fun _ => rfl
    have left : Adds (modify .popScope) .none := .keeping fun _ => rfl
    refine ((runtime_adds "Node").then fun _ => (runtime_adds "Fragment").then fun _ =>
      (expr_adds through locals (level + 1) iterable).then fun _ => entered.then fun _ =>
      (declareAll_adds _).then fun _ => inner.adds.then fun _ => left.map).congr ?_
    rw [Marked.uses_loop]
    ac_rfl

end

theorem nodeList_adds {env : Env} (through : ThroughReceiver env) (locals : Locals) (level : Nat) (ns : List Node) :
    Adds (Lower.nodeList env level ns) (uses (Marked.nodeList env.opened locals level ns)) := by
  rw [Marked.nodeList, Marked.uses_listText]
  exact (nodes_collect through locals _ ns).bind fun _ counted => listText_adds level counted

end

end ViewLang.Go
