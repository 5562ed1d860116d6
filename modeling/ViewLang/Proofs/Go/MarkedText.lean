import Mathlib.Data.List.Forall2
import ViewLang.Proofs.Go.MarkedLowering
import ViewLang.Proofs.Go.StateFields

namespace ViewLang.Go

open Lexical (Locals)

def generatorNames : List String := ["c", "nodes", "append", "nil", "new", "fmt"]

def Reserved (runtime name : String) : Prop :=
  name ∈ generatorNames ∨ name = runtime ∨ (∃ tag, name = "New" ++ tag) ∨ ∃ tag field, name = tag ++ "With" ++ field

/-- The code shows the text. The generator binds only accumulators in it, and refers only to reserved names. -/
structure Marks (runtime : String) (code : Marked) (text : String) : Prop where
  shown : Marked.render code = text
  bound : ∀ m ∈ Marked.binders code, m.author = .generator → m.name = "nodes"
  used : ∀ scope, ∀ o ∈ Marked.occurrences scope code, o.mark.author = .generator → Reserved runtime o.mark.name

section

variable {runtime : String}

theorem Marks.nil : Marks runtime [] "" := ⟨rfl, fun _ member => (nomatch member), fun _ _ member => (nomatch member)⟩

theorem Marks.append {first second : Marked} {a b : String} (left : Marks runtime first a)
    (right : Marks runtime second b) : Marks runtime (first ++ second) (a ++ b) where
  shown := by rw [Marked.render_append, left.shown, right.shown]
  bound m member := by
    rw [Marked.binders_append] at member
    exact (List.mem_append.mp member).elim (left.bound m) (right.bound m)
  used scope o member := by
    rw [Marked.occurrences_append] at member
    exact (List.mem_append.mp member).elim (left.used _ o) (right.used _ o)

theorem Marks.lit (s : String) : Marks runtime (Marked.lit s) s :=
  ⟨String.append_empty, fun _ member => (nomatch member), fun _ _ member => (nomatch member)⟩

theorem Marks.use {m : Mark} (known : m.author = .generator → Reserved runtime m.name) :
    Marks runtime [.use m] m.name := by
  refine ⟨String.append_empty, fun _ member => (nomatch member), fun scope o member => ?_⟩
  cases List.mem_singleton.mp member
  exact known

theorem Marks.bind {m : Mark} (known : m.author = .generator → m.name = "nodes") :
    Marks runtime [.bind m] "" := by
  refine ⟨rfl, fun b member => ?_, fun _ _ member => (nomatch member)⟩
  cases List.mem_singleton.mp member
  exact known

theorem Marks.scope {inner : Marked} {text : String} (marks : Marks runtime inner text) :
    Marks runtime [.scope inner] text where
  shown := String.append_empty.trans marks.shown
  bound m member := marks.bound m (by simpa [Marked.binders, Piece.binders] using member)
  used scope o member := marks.used scope o (by simpa [Marked.occurrences, Piece.occurrences] using member)

theorem Marks.mention (name : String) : Marks runtime (Marked.mention name) name :=
  .use fun generated => nomatch generated

theorem Marks.refer {name : String} (known : Reserved runtime name) : Marks runtime (Marked.refer name) name :=
  .use fun _ => known

theorem Marks.own {name : String} (listed : name ∈ generatorNames) : Marks runtime (Marked.refer name) name :=
  .refer (.inl listed)

theorem Marks.congr {code : Marked} {a b : String} (marks : Marks runtime code a) (same : a = b) :
    Marks runtime code b := same ▸ marks

theorem Marks.binds (names : List String) : Marks runtime (Marked.binds names) "" := by
  rw [Marked.binds]
  induction names.filter (· ≠ "_") with
  | nil => exact .nil
  | cons name names ih =>
    have first : Marks runtime [.bind ⟨.user, name⟩] "" := .bind fun generated => nomatch generated
    exact first.append ih

/-- Up to its first point, a field of the receiver is the receiver. -/
theorem receiver_first (path : String) : ("c." ++ path).toList.takeWhile (· ≠ '.') = ['c'] := by
  simp [String.toList_append]

theorem Marks.qualified {author : Author} {text : String}
    (known : author = .generator → ∃ path, text = "c." ++ path) :
    Marks runtime (Marked.qualified author text) text := by
  have first : Marks runtime [.use ⟨author, String.ofList (text.toList.takeWhile (· ≠ '.'))⟩]
      (String.ofList (text.toList.takeWhile (· ≠ '.'))) := by
    refine .use fun generated => .inl ?_
    obtain ⟨path, rfl⟩ := known generated
    rw [receiver_first]
    exact List.mem_cons_self
  have both := first.append (.lit (String.ofList (text.toList.dropWhile (· ≠ '.'))))
  rw [← String.ofList_append, List.takeWhile_append_dropWhile, String.ofList_toList] at both
  exact both

abbrev MarksAll (runtime : String) : List Marked → List String → Prop := List.Forall₂ (Marks runtime)

theorem MarksAll.append {first second : List Marked} {as bs : List String} (left : MarksAll runtime first as)
    (right : MarksAll runtime second bs) : MarksAll runtime (first ++ second) (as ++ bs) := List.rel_append left right

theorem MarksAll.isEmpty_eq {codes : List Marked} {texts : List String} (marks : MarksAll runtime codes texts) :
    codes.isEmpty = texts.isEmpty := by
  cases marks with
  | nil => rfl
  | cons _ _ => rfl

theorem MarksAll.separated {codes : List Marked} {texts : List String} (marks : MarksAll runtime codes texts) :
    Marks runtime (Marked.separated codes) (", ".intercalate texts) := by
  induction marks with
  | nil => exact .nil
  | cons first rest ih =>
    cases rest with
    | nil => rw [String.intercalate_singleton]; exact first
    | cons second rest =>
      rw [String.intercalate_cons_cons]
      exact (first.append (.lit ", ")).append ih

theorem MarksAll.resultSuffix {codes : List Marked} {texts : List String} (marks : MarksAll runtime codes texts) :
    Marks runtime (Marked.resultSuffix codes) (TypeExpr.resultSuffix texts) := by
  match marks with
  | .nil => exact .nil
  | .cons first .nil => exact (Marks.lit " ").append first
  | .cons first (.cons second rest) =>
    have all : MarksAll runtime _ _ := .cons first (.cons second rest)
    exact ((Marks.lit " (").append all.separated).append (.lit ")")

theorem MarksAll.map {α : Type} {code : α → Marked} {text : α → String}
    (marks : ∀ a, Marks runtime (code a) (text a)) (as : List α) : MarksAll runtime (as.map code) (as.map text) := by
  induction as with
  | nil => exact .nil
  | cons a as ih => exact .cons (marks a) ih

theorem render_line (level : Nat) (text : String) :
    Doc.render "\t" [.text level text] = Lower.pad level ++ text ++ "\n" := Doc.render_singleton "\t" (.text level text)

theorem Marks.line {code : Marked} {text : String} (marks : Marks runtime code text) (level : Nat) :
    Marks runtime (Marked.line level code) (Doc.render "\t" [.text level text]) := by
  rw [render_line]
  exact ((Marks.lit _).append marks).append (.lit "\n")

end

mutual

theorem typeExpr_marks (runtime : String) : (ty : TypeExpr) →
    Marks runtime (Marked.typeExpr runtime ty) (Go.type runtime ty).1
  | .named name => by
    rw [Marked.typeExpr, Go.type]
    split
    · exact (Marks.refer (.inr (.inl rfl))).append (.lit ".Node")
    · exact .qualified fun generated => nomatch generated
  | .generic name arg => by
    rw [Marked.typeExpr, Go.type]
    have named : Marks runtime (Marked.qualified .user name) name := .qualified fun generated => nomatch generated
    exact ((named.append (.lit "[")).append (typeExpr_marks runtime arg)).append (.lit "]")
  | .chan recvOnly elem => by
    rw [Marked.typeExpr, Go.type]
    exact (Marks.lit _).append (typeExpr_marks runtime elem)
  | .slice elem => by
    rw [Marked.typeExpr, Go.type]
    exact (Marks.lit _).append (typeExpr_marks runtime elem)
  | .pointer elem => by
    rw [Marked.typeExpr, Go.type]
    exact (Marks.lit _).append (typeExpr_marks runtime elem)
  | .func params results => by
    rw [Marked.typeExpr, Go.type]
    exact (((Marks.lit "func(").append (typeExprs_marks runtime params).separated).append (.lit ")")).append
      (typeExprs_marks runtime results).resultSuffix

theorem typeExprs_marks (runtime : String) : (ts : List TypeExpr) →
    MarksAll runtime (Marked.typeExprs runtime ts) (Go.types runtime ts).1
  | [] => by
    rw [Marked.typeExprs, Go.types]
    exact .nil
  | t :: ts => by
    rw [Marked.typeExprs, Go.types]
    exact .cons (typeExpr_marks runtime t) (typeExprs_marks runtime ts)

end

theorem type_marks (env : Env) (ty : TypeExpr) : Marks env.runtime (Marked.type env ty) (Lexical.type env ty) :=
  typeExpr_marks env.runtime ty

theorem types_marks (env : Env) (ts : List (Located TypeExpr)) :
    MarksAll env.runtime (ts.map fun t => Marked.type env t.value) (ts.map fun t => Lexical.type env t.value) :=
  .map (fun t => type_marks env t.value) ts

theorem typeSuffix_marks (env : Env) (ty : Option (Located TypeExpr)) :
    Marks env.runtime (Marked.typeSuffix env ty) (Lexical.typeSuffix env ty) := by
  cases ty with
  | none => exact .nil
  | some t => exact (Marks.lit " ").append (type_marks env t.value)

theorem params_marks (env : Env) (ps : List Param) :
    MarksAll env.runtime (Marked.params env ps) (Lexical.params env ps) := by
  rw [Marked.params, Lexical.params]
  exact .map (fun p => (((Marks.lit _).append (.lit " ")).append (.lit _)).append (type_marks env p.ty.value)) ps

theorem runtime_marks (env : Env) (name : String) :
    Marks env.runtime (Marked.runtime env name) (Lexical.runtime env name) :=
  ((Marks.refer (.inr (.inl rfl))).append (.lit ".")).append (.lit name)

section

variable {env : Env} (through : ThroughReceiver env) (locals : Locals)

include through

theorem name_marks (name : String) :
    Marks env.runtime (Marked.name env locals name) (Lexical.name env locals name) := by
  rw [Marked.name, Lexical.name]
  cases found : Lexical.field? env locals name with
  | none => exact .mention name
  | some field =>
    refine .qualified fun _ => ?_
    rw [Lexical.field?] at found
    split at found
    · cases found
    · exact through.field found

theorem receive_marks (channel : String) :
    Marks env.runtime (Marked.receive env locals channel) (Lexical.receive env locals channel) := by
  rw [Marked.receive, Lexical.receive]
  cases found : Lexical.latest? env locals channel with
  | none => exact (Marks.lit "<-").append (name_marks through locals channel)
  | some field =>
    refine .qualified fun _ => ?_
    rw [Lexical.latest?] at found
    split at found
    · cases found
    · exact through.latest found

end

theorem path_eq (base : String) (segments : List Name) :
    Lexical.path base segments = base ++ Lexical.path "" segments := by
  have grown : ∀ text, segments.foldl (fun text segment => text ++ "." ++ segment.value) (base ++ text) =
      base ++ segments.foldl (fun text segment => text ++ "." ++ segment.value) text := by
    induction segments with
    | nil => exact fun _ => rfl
    | cons segment segments ih =>
      intro text
      rw [List.foldl_cons, List.foldl_cons, ← ih]
      simp only [String.append_assoc]
  have start := grown ""
  rw [String.append_empty] at start
  exact start

theorem deferred_marks {runtime : String} (level : Nat) (writes : Bool) :
    Marks runtime (Marked.deferred level writes) (if writes then Lower.pad level ++ "defer c.Update()\n" else "") := by
  cases writes with
  | false => exact .nil
  | true =>
    have receiver : Marks runtime (Marked.refer "c") "c" := .own (by decide)
    have shown := (((Marks.lit "defer ").append receiver).append (.lit ".Update()")).line level
    rw [render_line, String.append_assoc] at shown
    exact shown

theorem literal_marks {runtime : String} {head body : Marked} {text : String} {doc : Doc} (level : Nat)
    (bound : List String) (writes : Bool) (headed : Marks runtime head text)
    (inside : Marks runtime body (doc.render "\t")) :
    Marks runtime (Marked.literal level head bound body doc.isEmpty writes) (Lower.funcText level text doc writes) := by
  rw [Marked.literal, Lower.funcText]
  split
  · exact headed.append (.lit _)
  · have scope := (((Marks.binds bound).append (deferred_marks (level + 1) writes)).append inside).scope
    have shown := (((headed.append (.lit " \x7b\n")).append scope).append (.lit (Lower.pad level))).append
      (.lit "\x7d")
    rw [String.empty_append, ← String.append_assoc] at shown
    exact shown

mutual

theorem expr_marks {env : Env} (through : ThroughReceiver env) (locals : Locals) (level : Nat) : (e : Expr) →
    Marks env.runtime (Marked.expr env locals level e) (Lexical.expr env locals level e)
  | ⟨head, tail, _⟩ => by
    rw [Marked.expr, Lexical.expr]
    exact (primary_marks through locals level head).append (links_marks through locals level tail)

theorem links_marks {env : Env} (through : ThroughReceiver env) (locals : Locals) (level : Nat) : (ls : List Link) →
    Marks env.runtime (Marked.links env locals level ls) (Lexical.links env locals level ls)
  | [] => by
    rw [Marked.links, Lexical.links]
    exact .nil
  | ⟨op, operand⟩ :: ls => by
    rw [Marked.links, Lexical.links]
    exact ((((Marks.lit " ").append (.lit _)).append (.lit " ")).append
      (primary_marks through locals level operand)).append (links_marks through locals level ls)

theorem exprs_marks {env : Env} (through : ThroughReceiver env) (locals : Locals) (level : Nat) : (es : List Expr) →
    MarksAll env.runtime (Marked.exprs env locals level es) (Lexical.exprs env locals level es)
  | [] => by
    rw [Marked.exprs, Lexical.exprs]
    exact .nil
  | e :: es => by
    rw [Marked.exprs, Lexical.exprs]
    exact .cons (expr_marks through locals level e) (exprs_marks through locals level es)

theorem optional_marks {env : Env} (through : ThroughReceiver env) (locals : Locals) (level : Nat) :
    (e : Option Expr) → Marks env.runtime (Marked.optional env locals level e) (Lexical.optional env locals level e)
  | none => by
    rw [Marked.optional, Lexical.optional]
    exact .nil
  | some e => by
    rw [Marked.optional, Lexical.optional]
    exact expr_marks through locals level e

theorem entries_marks {env : Env} (through : ThroughReceiver env) (locals : Locals) (level : Nat) :
    (es : List Entry) → MarksAll env.runtime (Marked.entries env locals level es) (Lexical.entries env locals level es)
  | [] => by
    rw [Marked.entries, Lexical.entries]
    exact .nil
  | ⟨some key, value⟩ :: es => by
    rw [Marked.entries, Lexical.entries]
    exact .cons (((Marks.lit _).append (.lit ": ")).append (expr_marks through locals level value))
      (entries_marks through locals level es)
  | ⟨none, value⟩ :: es => by
    rw [Marked.entries, Lexical.entries]
    exact .cons (expr_marks through locals level value) (entries_marks through locals level es)

theorem primary_marks {env : Env} (through : ThroughReceiver env) (locals : Locals) (level : Nat) : (p : Primary) →
    Marks env.runtime (Marked.primary env locals level p) (Lexical.primary env locals level p)
  | .int text => by
    rw [Marked.primary, Lexical.primary]
    exact .lit _
  | .float text => by
    rw [Marked.primary, Lexical.primary]
    exact .lit _
  | .string text => by
    rw [Marked.primary, Lexical.primary]
    exact .lit _
  | .template t => by
    rw [Marked.primary, Lexical.primary]
    exact template_marks through locals level t
  | .composite ty es _ => by
    rw [Marked.primary, Lexical.primary]
    exact (((type_marks env ty.value).append (.lit "\x7b")).append
      (entries_marks through locals level es).separated).append (.lit "\x7d")
  | .make ty args _ => by
    rw [Marked.primary, Lexical.primary]
    have all : MarksAll env.runtime _ _ := .cons (type_marks env ty.value) (exprs_marks through locals level args)
    exact (((Marks.mention "make").append (.lit "(")).append all.separated).append (.lit ")")
  | .index target index _ => by
    rw [Marked.primary, Lexical.primary]
    exact (((primary_marks through locals level target).append (.lit "[")).append
      (expr_marks through locals level index)).append (.lit "]")
  | .slice target low high _ => by
    rw [Marked.primary, Lexical.primary]
    exact (((((primary_marks through locals level target).append (.lit "[")).append
      (optional_marks through locals level low)).append (.lit ":")).append
      (optional_marks through locals level high)).append (.lit "]")
  | .select b segments _ => by
    rw [Marked.primary, Lexical.primary, path_eq (Lexical.base env locals level b)]
    exact (base_marks through locals level b).append (.lit _)
  | .call b segments args _ => by
    rw [Marked.primary, Lexical.primary, path_eq (Lexical.base env locals level b)]
    exact ((((base_marks through locals level b).append (.lit _)).append (.lit "(")).append
      (exprs_marks through locals level args).separated).append (.lit ")")
  | .func ps results body _ => by
    rw [Marked.primary, Lexical.primary]
    have head := (((Marks.lit "func(").append (params_marks env ps).separated).append (.lit ")")).append
      (types_marks env results).resultSuffix
    exact literal_marks level _ _ head (block_marks through _ (level + 1) body)
  | .receive channel _ => by
    rw [Marked.primary, Lexical.primary]
    exact receive_marks through locals channel.value
  | .unary op operand _ => by
    rw [Marked.primary, Lexical.primary]
    exact (Marks.lit _).append (primary_marks through locals level operand)
  | .paren inner => by
    rw [Marked.primary, Lexical.primary]
    exact ((Marks.lit "(").append (expr_marks through locals level inner)).append (.lit ")")

theorem base_marks {env : Env} (through : ThroughReceiver env) (locals : Locals) (level : Nat) : (b : Base) →
    Marks env.runtime (Marked.base env locals level b) (Lexical.base env locals level b)
  | .name n => by
    rw [Marked.base, Lexical.base]
    exact name_marks through locals n.value
  | .operand p => by
    rw [Marked.base, Lexical.base]
    exact primary_marks through locals level p

theorem template_marks {env : Env} (through : ThroughReceiver env) (locals : Locals) (level : Nat) : (t : Template) →
    Marks env.runtime (Marked.template env locals level t) (Lexical.template env locals level t)
  | ⟨fs, _⟩ => by
    rw [Marked.template, Lexical.template]
    have args := interpolated_marks through locals level fs
    rw [args.isEmpty_eq]
    split
    · exact .lit _
    · exact (((((Marks.own (by decide)).append (.lit ".Sprintf(")).append (.lit _)).append (.lit ", ")).append
        args.separated).append (.lit ")")

theorem interpolated_marks {env : Env} (through : ThroughReceiver env) (locals : Locals) (level : Nat) :
    (fs : List Fragment) →
    MarksAll env.runtime (Marked.interpolated env locals level fs) (Lexical.interpolated env locals level fs)
  | [] => by
    rw [Marked.interpolated, Lexical.interpolated]
    exact .nil
  | .text _ :: fs => by
    rw [Marked.interpolated, Lexical.interpolated]
    exact interpolated_marks through locals level fs
  | .interp e :: fs => by
    rw [Marked.interpolated, Lexical.interpolated]
    exact .cons (expr_marks through locals level e) (interpolated_marks through locals level fs)

theorem block_marks {env : Env} (through : ThroughReceiver env) (locals : Locals) (level : Nat) : (b : Block) →
    Marks env.runtime (Marked.block env locals level b) ((Lexical.block env locals level b).render "\t")
  | ⟨ss, _⟩ => by
    rw [Marked.block, Lexical.block]
    exact (stmts_marks through locals level ss).scope

theorem stmts_marks {env : Env} (through : ThroughReceiver env) (locals : Locals) (level : Nat) : (ss : List Stmt) →
    Marks env.runtime (Marked.stmts env locals level ss) ((Lexical.stmts env locals level ss).render "\t")
  | [] => by
    rw [Marked.stmts, Lexical.stmts]
    exact .nil
  | s :: ss => by
    rw [Marked.stmts, Lexical.stmts, Doc.render_append]
    exact (stmt_marks through locals level s).append (stmts_marks through _ level ss)

theorem stmt_marks {env : Env} (through : ThroughReceiver env) (locals : Locals) (level : Nat) : (s : Stmt) →
    Marks env.runtime (Marked.stmt env locals level s) ((Lexical.stmt env locals level s).render "\t")
  | .var d => by
    rw [Marked.stmt, Lexical.stmt]
    exact (varDecl_marks through locals level d).line level
  | .simple s => by
    rw [Marked.stmt, Lexical.stmt]
    exact (simple_marks through locals level s).line level
  | .ret values _ => by
    rw [Marked.stmt, Lexical.stmt]
    refine Marks.line ?_ level
    split
    · exact .lit _
    · exact (Marks.lit "return ").append (exprs_marks through locals level values).separated
  | .cond s => by
    rw [Marked.stmt, Lexical.stmt, Doc.render_append]
    exact (ifStmt_marks through locals level "if " s).append (Marks.line (.lit "\x7d") level)
  | .loop header body _ => by
    rw [Marked.stmt, Lexical.stmt, Doc.render_append, Doc.render_cons, ← Doc.render_singleton]
    have inner := block_marks through (locals.extend (Lexical.declaredByHeader header)) (level + 1) body
    exact (((loopHead_marks through locals level header).line level).append inner).scope.append
      (Marks.line (.lit "\x7d") level)
  | .branch kind _ => by
    rw [Marked.stmt, Lexical.stmt]
    exact Marks.line (.lit _) level

theorem definedTargets_marks {env : Env} (through : ThroughReceiver env) (locals : Locals) (level : Nat) :
    (es : List Expr) →
    MarksAll env.runtime (Marked.definedTargets env locals level es) (Lexical.definedTargets env locals level es)
  | [] => by
    rw [Marked.definedTargets, Lexical.definedTargets]
    exact .nil
  | e :: es => by
    rw [Marked.definedTargets, Lexical.definedTargets]
    cases e.ident? with
    | some name => exact .cons (.lit _) (definedTargets_marks through _ level es)
    | none => exact .cons (expr_marks through locals level e) (definedTargets_marks through locals level es)

theorem simple_marks {env : Env} (through : ThroughReceiver env) (locals : Locals) (level : Nat) : (s : SimpleStmt) →
    Marks env.runtime (Marked.simple env locals level s) (Lexical.simple env locals level s)
  | .exprs targets _ => by
    rw [Marked.simple, Lexical.simple]
    exact (exprs_marks through locals level targets).separated
  | .assign targets op values _ => by
    rw [Marked.simple, Lexical.simple]
    have given := (exprs_marks through locals level values).separated
    have written := (exprs_marks through locals level targets).separated
    split
    · have shown := (((definedTargets_marks through locals level targets).separated.append (.lit " := ")).append
        given).append (.binds (targets.filterMap fun e => e.ident?.map (·.value)))
      rw [String.append_empty] at shown
      exact shown
    · split
      · exact written.append (.lit _)
      · exact (((written.append (.lit " ")).append (.lit _)).append (.lit " ")).append given
  | .send channel value _ => by
    rw [Marked.simple, Lexical.simple]
    exact ((expr_marks through locals level channel).append (.lit " <- ")).append
      (expr_marks through locals level value)

theorem varDecl_marks {env : Env} (through : ThroughReceiver env) (locals : Locals) (level : Nat) : (d : VarDecl) →
    Marks env.runtime (Marked.varDecl env locals level d) (Lexical.varDecl env locals level d)
  | ⟨names, ty, values, _⟩ => by
    rw [Marked.varDecl, Lexical.varDecl]
    have given := exprs_marks through locals level values
    have assigned : Marks env.runtime
        (if (Marked.exprs env locals level values).isEmpty then []
          else Marked.lit " = " ++ Marked.separated (Marked.exprs env locals level values))
        (if (Lexical.exprs env locals level values).isEmpty then ""
          else " = " ++ ", ".intercalate (Lexical.exprs env locals level values)) := by
      rw [given.isEmpty_eq]
      split
      · exact .nil
      · exact (Marks.lit " = ").append given.separated
    have shown := ((((Marks.lit "var ").append (.lit (", ".intercalate (names.map (·.value))))).append
      (typeSuffix_marks env ty)).append assigned).append (.binds (names.map (·.value)))
    rw [String.append_empty] at shown
    exact shown

theorem clause_marks {env : Env} (through : ThroughReceiver env) (locals : Locals) (level : Nat) :
    (s : Option SimpleStmt) → Marks env.runtime (Marked.clause env locals level s) (Lexical.clause env locals level s)
  | none => by
    rw [Marked.clause, Lexical.clause]
    exact .nil
  | some s => by
    rw [Marked.clause, Lexical.clause]
    exact simple_marks through locals level s

theorem leading_marks {env : Env} (through : ThroughReceiver env) (locals : Locals) (level : Nat) :
    (s : Option SimpleStmt) → Marks env.runtime (Marked.leading env locals level s) (Lexical.leading env locals level s)
  | none => by
    rw [Marked.leading, Lexical.leading]
    exact .nil
  | some s => by
    rw [Marked.leading, Lexical.leading]
    exact (simple_marks through locals level s).append (.lit "; ")

theorem ifStmt_marks {env : Env} (through : ThroughReceiver env) (locals : Locals) (level : Nat) (opening : String) :
    (s : IfStmt) → Marks env.runtime (Marked.ifStmt env locals level opening s)
      ((Lexical.ifStmt env locals level opening s).render "\t")
  | ⟨init, cond, body, otherwise, _⟩ => by
    rw [Marked.ifStmt, Lexical.ifStmt, Doc.render_append, Doc.render_cons, ← Doc.render_singleton]
    have head := (((Marks.lit opening).append (leading_marks through locals level init)).append
      (expr_marks through (locals.extend (Lexical.declaredByClause init)) level cond)).append (.lit " \x7b")
    exact (((head.line level).append (block_marks through _ (level + 1) body)).append
      (elseBranch_marks through _ level otherwise)).scope

theorem elseBranch_marks {env : Env} (through : ThroughReceiver env) (locals : Locals) (level : Nat) : (s : Else) →
    Marks env.runtime (Marked.elseBranch env locals level s) ((Lexical.elseBranch env locals level s).render "\t")
  | .none => by
    rw [Marked.elseBranch, Lexical.elseBranch]
    exact .nil
  | .block b => by
    rw [Marked.elseBranch, Lexical.elseBranch, Doc.render_cons, ← Doc.render_singleton]
    exact (Marks.line (.lit _) level).append (block_marks through locals (level + 1) b)
  | .chain s => by
    rw [Marked.elseBranch, Lexical.elseBranch]
    exact ifStmt_marks through locals level _ s

theorem loopHead_marks {env : Env} (through : ThroughReceiver env) (locals : Locals) (level : Nat) :
    (header : LoopHeader) →
    Marks env.runtime (Marked.loopHead env locals level header) (Lexical.loopHead env locals level header)
  | .infinite => by
    rw [Marked.loopHead, Lexical.loopHead]
    exact .lit _
  | .cond e => by
    rw [Marked.loopHead, Lexical.loopHead]
    exact ((Marks.lit "for ").append (expr_marks through locals level e)).append (.lit " \x7b")
  | .classic init cond post => by
    rw [Marked.loopHead, Lexical.loopHead]
    exact ((((((Marks.lit "for ").append (clause_marks through locals level init)).append (.lit "; ")).append
      (optional_marks through _ level cond)).append (.lit "; ")).append (clause_marks through _ level post)).append
      (.lit " \x7b")
  | .range key value iterable => by
    rw [Marked.loopHead, Lexical.loopHead]
    have shown := (((((Marks.lit "for ").append (.lit (Lower.rangeVars key value))).append (.lit "range ")).append
      (expr_marks through locals level iterable)).append (.lit " \x7b")).append
      (.binds ((key.toList ++ value.toList).map (·.value)))
    rw [String.append_empty] at shown
    exact shown

end

section

variable {env : Env}

theorem textChild_marks (e : Expr) {value : Marked} {text : String} (marks : Marks env.runtime value text) :
    Marks env.runtime (Marked.textChild env e value) (Lexical.textChild env e text) := by
  have plain := (((runtime_marks env "Text").append (.lit "(")).append marks).append (.lit ")")
  have print : Marks env.runtime (Marked.lit "(" ++ Marked.refer "fmt" ++ Marked.lit ".Sprint(") "(fmt.Sprint(" :=
    ((Marks.lit "(").append (.own (by decide))).append (.lit ".Sprint(")
  have printed := (((runtime_marks env "Text").append print).append marks).append (.lit "))")
  rw [Marked.textChild, Lexical.textChild]
  cases e.primary? with
  | none => exact printed
  | some p =>
    cases p with
    | string _ => exact plain
    | template _ => exact plain
    | _ => exact printed

theorem call_marks {runtime : String} {head : Marked} {text : String} {children : List Marked} {texts : List String}
    (level : Nat) (separator : String) (headed : Marks runtime head text) (all : MarksAll runtime children texts) :
    Marks runtime (Marked.call level head separator children) (Lower.callText level text separator texts) := by
  have lines : Marks runtime (children.flatMap fun c => Marked.lit (Lower.pad (level + 1)) ++ c ++ Marked.lit ",\n")
      (String.join (texts.map fun c => Lower.pad (level + 1) ++ c ++ ",\n")) := by
    induction all with
    | nil => exact .nil
    | cons first _ ih =>
      rw [List.flatMap_cons, List.map_cons, String.join_cons]
      exact (((Marks.lit _).append first).append (.lit ",\n")).append ih
  rw [Marked.call, Lower.callText, all.isEmpty_eq]
  split
  · exact headed.append (.lit ")")
  · exact ((((headed.append (.lit _)).append (.lit "\n")).append lines).append (.lit _)).append (.lit ")")

theorem listText_marks {codes : List Marked} {texts : List String} (level : Nat)
    (all : MarksAll env.runtime codes texts) :
    Marks env.runtime (Marked.listText env level codes) (Lexical.listText env level texts) := by
  match all with
  | .nil => exact .own (by decide)
  | .cons first .nil => exact first
  | .cons first (.cons second rest) =>
    exact call_marks level "" ((runtime_marks env "Fragment").append (.lit "(")) (.cons first (.cons second rest))

theorem props_marks {entries : List Marked} {texts : List String} (all : MarksAll env.runtime entries texts) :
    Marks env.runtime (Marked.props env entries) (Lexical.props env texts) := by
  rw [Marked.props, Lexical.props, all.isEmpty_eq]
  split
  · exact .own (by decide)
  · exact (((runtime_marks env "Props").append (.lit "\x7b")).append all.separated).append (.lit "\x7d")

theorem gather_marks {runtime : String} {codes : List Marked} {texts : List String} (level : Nat)
    (all : MarksAll runtime codes texts) :
    Marks runtime (Marked.gather level codes) (Lower.appendText level texts) := by
  have nodes : Marks runtime (Marked.refer "nodes") "nodes" := .own (by decide)
  have append : Marks runtime (Marked.refer "append") "append" := .own (by decide)
  have target := nodes.append (.lit " = ")
  match all with
  | .nil => exact .nil
  | .cons first .nil =>
    have opened := (((target.append append).append (.lit "(")).append nodes).append (.lit ", ")
    exact (((Marks.lit (Lower.pad level)).append opened).append first).append (.lit ")\n")
  | .cons first (.cons second rest) =>
    have gathered := call_marks level "," ((append.append (.lit "(")).append nodes) (.cons first (.cons second rest))
    exact (((Marks.lit _).append target).append gathered).append (.lit "\n")

theorem conditional_marks {cond body otherwise : Marked} {test taken other : String} (level : Nat)
    (tested : Marks env.runtime cond test) (thenText : Marks env.runtime body taken)
    (elseText : Marks env.runtime otherwise other) :
    Marks env.runtime (Marked.conditional env level cond body otherwise)
      (Lexical.condText env level test taken other) := by
  have opened := ((Marks.lit "func() ").append (runtime_marks env "Node")).append (.lit " \x7b\n")
  have head := (((opened.append (.lit (Lower.pad (level + 1)))).append (.lit "if ")).append tested).append
    (.lit " \x7b\n")
  have first := (((head.append (.lit (Lower.pad (level + 2)))).append (.lit "return ")).append thenText).append
    (.lit "\n")
  have closed := (first.append (.lit (Lower.pad (level + 1)))).append (.lit "\x7d\n")
  have second := (((closed.append (.lit (Lower.pad (level + 1)))).append (.lit "return ")).append elseText).append
    (.lit "\n")
  exact (second.append (.lit (Lower.pad level))).append (.lit "\x7d()")

theorem loop_marks {iterable : Marked} {text : String} {children : List Marked} {texts : List String} (level : Nat)
    (key value : Option Name) (ranged : Marks env.runtime iterable text) (all : MarksAll env.runtime children texts) :
    Marks env.runtime (Marked.loop env level key value iterable children)
      (Lexical.loopText env level key value text texts) := by
  have type := runtime_marks env "Node"
  have opened := ((Marks.lit "func() ").append type).append (.lit " \x7b\n")
  have accumulator : Marks env.runtime [.bind ⟨.generator, "nodes"⟩] "" := .bind fun _ => rfl
  have declared := (((Marks.lit "var nodes []").append type).line (level + 1)).append accumulator
  have head := ((((Marks.lit "for ").append (.lit (Lower.rangeVars key value))).append (.lit "range ")).append
    ranged).append (.lit " \x7b")
  have repeated := (((head.line (level + 1)).append (.binds ((key.toList ++ value.toList).map (·.value)))).append
    (gather_marks (level + 2) all)).scope
  have returned := ((((Marks.lit "return ").append (runtime_marks env "Fragment")).append (.lit "(")).append
    (.own (by decide : "nodes" ∈ generatorNames))).append (.lit "...)")
  have inside := (((declared.append repeated).append (Marks.line (.lit "\x7d") (level + 1))).append
    (returned.line (level + 1))).scope
  refine Marks.congr (((opened.append inside).append (.lit (Lower.pad level))).append (.lit "\x7d()")) ?_
  -- The scopes only group the pieces; what they show is the same from left to right.
  unfold Lexical.loopText
  simp only [render_line, String.append_assoc, String.empty_append]
  rfl

/-- An option of an embedded component goes by a reserved name. -/
theorem option_marks {runtime : String} (tag : String) (p : Param) {value : Marked} {text : String}
    (given : Marks runtime value text) :
    Marks runtime (Marked.option tag p value) (tag ++ "With" ++ exported p.name.value ++ "(" ++ text ++ ")") :=
  (((Marks.refer (.inr (.inr (.inr ⟨tag, _, rfl⟩)))).append (.lit "(")).append given).append (.lit ")")

section

variable (through : ThroughReceiver env) (locals : Locals) (level : Nat)

include through

theorem elementArgs_marks (args : List Entry) :
    let codes := Marked.elementArgs env locals level args
    let texts := Lexical.elementArgs env locals level args
    MarksAll env.runtime codes.1 texts.1 ∧ MarksAll env.runtime codes.2 texts.2 := by
  induction args with
  | nil => exact ⟨.nil, .nil⟩
  | cons arg args ih =>
    obtain ⟨key, value⟩ := arg
    have given := expr_marks through locals level value
    cases key with
    | some k => exact ⟨.cons (((Marks.lit _).append (.lit ": ")).append given) ih.1, ih.2⟩
    | none => exact ⟨ih.1, .cons (textChild_marks value given) ih.2⟩

theorem propChildren_marks (ns : List Node) :
    MarksAll env.runtime (ns.filterMap (Marked.propChild env locals level))
      (ns.filterMap (Lexical.propChild env locals level)) := by
  induction ns with
  | nil => exact .nil
  | cons n ns ih =>
    rw [List.filterMap_cons, List.filterMap_cons]
    cases n with
    | element e =>
      obtain ⟨tag, args, children, span⟩ := e
      rw [Marked.propChild, Lexical.propChild]
      dsimp only
      cases Vocabulary.prop? tag.value with
      | none => exact ih
      | some key =>
        cases args with
        | nil => exact ih
        | cons arg args =>
          exact .cons (((Marks.lit _).append (.lit ": ")).append (expr_marks through locals level arg.value)) ih
    | text t => exact ih
    | template t => exact ih
    | cond c => exact ih
    | loop l => exact ih

theorem optionArgs_marks (tag : String) (params positional : List Param) (args : List Entry) :
    MarksAll env.runtime (Marked.optionArgs env locals level tag params positional args)
      (Lexical.optionArgs env locals level tag params positional args) := by
  induction args generalizing positional with
  | nil =>
    rw [Marked.optionArgs, Lexical.optionArgs]
    exact .nil
  | cons arg args ih =>
    obtain ⟨key, value⟩ := arg
    have given := expr_marks through locals level value
    cases key with
    | some name =>
      rw [Marked.optionArgs, Lexical.optionArgs]
      cases params.find? (·.name.value == name.value) with
      | none => exact ih positional
      | some p => exact .cons (option_marks tag p given) (ih positional)
    | none =>
      cases positional with
      | nil =>
        rw [Marked.optionArgs, Lexical.optionArgs]
        exact ih []
      | cons p positional =>
        rw [Marked.optionArgs, Lexical.optionArgs]
        exact .cons (option_marks tag p given) (ih positional)

theorem paramArgs_marks (args positional : List Entry) (ps : List Param) :
    MarksAll env.runtime (Marked.paramArgs env locals level args positional ps)
      (Lexical.paramArgs env locals level args positional ps) := by
  induction ps generalizing positional with
  | nil => exact .nil
  | cons p ps ih =>
    rw [Marked.paramArgs.eq_def, Lexical.paramArgs.eq_def]
    dsimp only
    cases Lower.namedArg? args p with
    | some a =>
      have given := expr_marks through locals level a.value
      cases p.variadic with
      | true => exact .cons (given.append (.lit "...")) (ih positional)
      | false => exact .cons given (ih positional)
    | none =>
      cases p.variadic with
      | true => exact (exprs_marks through locals level _).append (ih [])
      | false =>
        cases positional with
        | nil =>
          have fresh : Marks env.runtime (Marked.lit "*" ++ Marked.refer "new" ++ Marked.lit "(") "*new(" :=
            ((Marks.lit "*").append (.own (by decide))).append (.lit "(")
          exact .cons ((fresh.append (type_marks env p.ty.value)).append (.lit ")")) (ih [])
        | cons a positional => exact .cons (expr_marks through locals level a.value) (ih positional)

theorem embedArgs_marks (tag : String) (args : List Entry) :
    MarksAll env.runtime (Marked.embedArgs env locals level tag args)
      (Lexical.embedArgs env locals level tag args) := by
  rw [Marked.embedArgs, Lexical.embedArgs]
  cases env.components.find? (·.name.value == tag) with
  | none => exact exprs_marks through locals level _
  | some c =>
    dsimp only
    cases c.isRenderable with
    | false => exact exprs_marks through locals level _
    | true =>
      cases c.autoProps with
      | true => exact optionArgs_marks through locals level tag c.params c.params args
      | false => exact paramArgs_marks through locals level args _ c.params

theorem embed_marks (tag : String) (args : List Entry) :
    Marks env.runtime (Marked.embed env locals level tag args) (Lexical.embed env locals level tag args) := by
  have built : Marks env.runtime (Marked.refer ("New" ++ tag)) ("New" ++ tag) := .refer (.inr (.inr (.inl ⟨tag, rfl⟩)))
  refine Marks.congr (((((runtime_marks env "Embed").append (.lit "(")).append built).append (.lit "(")).append
    (embedArgs_marks through locals level tag args).separated |>.append (.lit "))")) ?_
  rw [Lexical.embed]
  simp only [String.append_assoc]
  rfl

end

end

mutual

theorem node_marks {env : Env} (through : ThroughReceiver env) (locals : Locals) (level : Nat) : (n : Node) →
    Marks env.runtime (Marked.node env locals level n) (Lexical.node env locals level n)
  | .element e => by
    rw [Marked.node, Lexical.node]
    exact element_marks through locals level e
  | .text t => by
    rw [Marked.node, Lexical.node]
    exact (((runtime_marks env "Text").append (.lit "(")).append (.lit _)).append (.lit ")")
  | .template t => by
    rw [Marked.node, Lexical.node]
    exact (((runtime_marks env "Text").append (.lit "(")).append (template_marks through locals level t)).append
      (.lit ")")
  | .cond c => by
    rw [Marked.node, Lexical.node]
    exact nodeIf_marks through locals level c
  | .loop l => by
    rw [Marked.node, Lexical.node]
    exact nodeFor_marks through locals level l

theorem nodes_marks {env : Env} (through : ThroughReceiver env) (locals : Locals) (level : Nat) : (ns : List Node) →
    MarksAll env.runtime (Marked.nodes env locals level ns) (Lexical.nodes env locals level ns)
  | [] => by
    rw [Marked.nodes, Lexical.nodes]
    exact .nil
  | n :: ns => by
    rw [Marked.nodes, Lexical.nodes]
    split
    · exact nodes_marks through locals level ns
    · exact .cons (node_marks through locals level n) (nodes_marks through locals level ns)

theorem element_marks {env : Env} (through : ThroughReceiver env) (locals : Locals) (level : Nat) : (e : Element) →
    Marks env.runtime (Marked.element env locals level e) (Lexical.element env locals level e)
  | ⟨tag, args, children, _⟩ => by
    rw [Marked.element, Lexical.element]
    cases Vocabulary.tag? tag.value with
    | none => exact embed_marks through locals level tag.value args
    | some html =>
      obtain ⟨entries, texts⟩ := elementArgs_marks through locals level args
      have given := props_marks (entries.append (propChildren_marks through locals level children))
      have head := ((((runtime_marks env "Element").append (.lit "(")).append (.lit (quote html))).append
        (.lit ", ")).append given
      exact call_marks level "," head (texts.append (nodes_marks through locals (level + 1) children))

theorem nodeIf_marks {env : Env} (through : ThroughReceiver env) (locals : Locals) (level : Nat) : (c : NodeIf) →
    Marks env.runtime (Marked.nodeIf env locals level c) (Lexical.nodeIf env locals level c)
  | ⟨cond, body, otherwise, _⟩ => by
    rw [Marked.nodeIf, Lexical.nodeIf]
    exact conditional_marks level (expr_marks through locals (level + 1) cond)
      (listText_marks _ (nodes_marks through locals _ body)) (listText_marks _ (nodes_marks through locals _ otherwise))

theorem nodeFor_marks {env : Env} (through : ThroughReceiver env) (locals : Locals) (level : Nat) : (l : NodeFor) →
    Marks env.runtime (Marked.nodeFor env locals level l) (Lexical.nodeFor env locals level l)
  | ⟨key, value, iterable, children, _⟩ => by
    rw [Marked.nodeFor, Lexical.nodeFor]
    exact loop_marks level key value (expr_marks through locals (level + 1) iterable) (nodes_marks through _ _ children)

end

theorem nodeList_marks {env : Env} (through : ThroughReceiver env) (locals : Locals) (level : Nat) (ns : List Node) :
    Marks env.runtime (Marked.nodeList env locals level ns) (Lexical.nodeList env locals level ns) :=
  listText_marks level (nodes_marks through locals _ ns)

end ViewLang.Go
