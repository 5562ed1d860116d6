import ViewLang.Proofs.Go.GeneratorCalls
import ViewLang.Proofs.Go.MarkedText

namespace ViewLang.Go

open Lexical (Locals)

/-- Stands for the alias of the runtime. Nothing else goes by this name. -/
def standIn : String := "@"

def Env.opened (env : Env) : Env := { env with runtime := standIn }

theorem ThroughReceiver.opened {env : Env} (through : ThroughReceiver env) : ThroughReceiver env.opened :=
  ⟨through.field, through.latest⟩

mutual

def Piece.fill (runtime : String) : Piece → Piece
  | .text s => .text s
  | .use m => .use (if m = ⟨.generator, standIn⟩ then ⟨.generator, runtime⟩ else m)
  | .bind m => .bind m
  | .scope inner => .scope (Marked.fill runtime inner)

def Marked.fill (runtime : String) : List Piece → Marked
  | [] => []
  | p :: ps => p.fill runtime :: Marked.fill runtime ps

end

namespace Marked

variable {runtime : String}

theorem fill_append (first second : Marked) :
    fill runtime (first ++ second) = fill runtime first ++ fill runtime second := by
  induction first with
  | nil => rfl
  | cons p ps ih => rw [List.cons_append, fill, fill, ih, List.cons_append]

theorem fill_refer {name : String} (other : name ≠ standIn) : fill runtime (refer name) = refer name := by
  have kept : (⟨.generator, name⟩ : Mark) ≠ ⟨.generator, standIn⟩ := fun same => other (congrArg Mark.name same)
  rw [refer, fill, Piece.fill, if_neg kept]
  rfl

theorem fill_binds (names : List String) : fill runtime (binds names) = binds names := by
  rw [binds]
  induction names.filter (· ≠ "_") with
  | nil => rfl
  | cons name names ih => rw [List.map_cons, fill, Piece.fill, ih]

/-- A constructor goes by no word without its first letter. -/
theorem new_ne_word {word : String} (free : 'N' ∉ word.toList) (tag : String) : "New" ++ tag ≠ word := by
  rintro rfl
  exact free (by simp [String.toList_append])

/-- An option goes by no word without the first letter of `With`. -/
theorem with_ne_word {word : String} (free : 'W' ∉ word.toList) (tag field : String) :
    tag ++ "With" ++ field ≠ word := by
  rintro rfl
  exact free (by simp [String.toList_append])

end Marked

structure Opens (runtime : String) (code filled : Marked) : Prop where
  fills : Marked.fill runtime code = filled
  formatted : Formatted code

section

variable {runtime : String}

theorem Opens.nil : Opens runtime [] [] := ⟨rfl, .of_unused rfl⟩

theorem Opens.append {first second front behind : Marked} (left : Opens runtime first front)
    (right : Opens runtime second behind) : Opens runtime (first ++ second) (front ++ behind) where
  fills := by rw [Marked.fill_append, left.fills, right.fills]
  formatted := left.formatted.append right.formatted

theorem Opens.lit (s : String) : Opens runtime (Marked.lit s) (Marked.lit s) := ⟨rfl, .of_unused rfl⟩

theorem Opens.mention (name : String) : Opens runtime (Marked.mention name) (Marked.mention name) :=
  ⟨rfl, .of_unused rfl⟩

theorem Opens.standIn : Opens runtime (Marked.refer standIn) (Marked.refer runtime) := ⟨rfl, .of_unused rfl⟩

theorem Opens.refer {name : String} (unformatted : name ≠ "fmt") (known : name ≠ Go.standIn) :
    Opens runtime (Marked.refer name) (Marked.refer name) :=
  ⟨Marked.fill_refer known, .of_unused (Marked.refers_refer unformatted)⟩

theorem Opens.own {name : String} (listed : name ∈ generatorNames) (unformatted : name ≠ "fmt") :
    Opens runtime (Marked.refer name) (Marked.refer name) := by
  refine .refer unformatted fun same => ?_
  rw [same] at listed
  exact absurd listed (by decide)

theorem Opens.sprintf : Opens runtime (Marked.refer "fmt" ++ Marked.lit ".Sprintf(")
    (Marked.refer "fmt" ++ Marked.lit ".Sprintf(") := ⟨rfl, .sprintf⟩

theorem Opens.sprint : Opens runtime (Marked.lit "(" ++ Marked.refer "fmt" ++ Marked.lit ".Sprint(")
    (Marked.lit "(" ++ Marked.refer "fmt" ++ Marked.lit ".Sprint(") := ⟨rfl, .sprint⟩

theorem Opens.bind (m : Mark) : Opens runtime [.bind m] [.bind m] := ⟨rfl, .of_unused rfl⟩

theorem Opens.binds (names : List String) : Opens runtime (Marked.binds names) (Marked.binds names) :=
  ⟨Marked.fill_binds names, .of_unused (Marked.refers_binds names "fmt")⟩

theorem Opens.scope {inner filled : Marked} (opens : Opens runtime inner filled) :
    Opens runtime [.scope inner] [.scope filled] where
  fills := by
    rw [Marked.fill, Piece.fill, opens.fills]
    rfl
  formatted := opens.formatted.scope

theorem Opens.line {code filled : Marked} (opens : Opens runtime code filled) (level : Nat) :
    Opens runtime (Marked.line level code) (Marked.line level filled) :=
  ((Opens.lit _).append opens).append (.lit "\n")

theorem Opens.qualified {author : Author} {text : String}
    (through : author = .generator → ∃ path, text = "c." ++ path) :
    Opens runtime (Marked.qualified author text) (Marked.qualified author text) := by
  cases author with
  | user => exact ⟨rfl, .of_unused rfl⟩
  | generator =>
    obtain ⟨path, rfl⟩ := through rfl
    rw [Marked.qualified, receiver_first]
    exact ⟨rfl, .of_unused rfl⟩

abbrev AllOpen (runtime : String) : List Marked → List Marked → Prop := List.Forall₂ (Opens runtime)

theorem AllOpen.append {first second front behind : List Marked} (left : AllOpen runtime first front)
    (right : AllOpen runtime second behind) : AllOpen runtime (first ++ second) (front ++ behind) :=
  List.rel_append left right

theorem AllOpen.isEmpty_eq {codes filled : List Marked} (all : AllOpen runtime codes filled) :
    codes.isEmpty = filled.isEmpty := by
  cases all with
  | nil => rfl
  | cons _ _ => rfl

theorem AllOpen.map {α : Type} {code filled : α → Marked} (opens : ∀ a, Opens runtime (code a) (filled a))
    (as : List α) : AllOpen runtime (as.map code) (as.map filled) := by
  induction as with
  | nil => exact .nil
  | cons a as ih => exact .cons (opens a) ih

theorem AllOpen.separated {codes filled : List Marked} (all : AllOpen runtime codes filled) :
    Opens runtime (Marked.separated codes) (Marked.separated filled) := by
  induction all with
  | nil => exact .nil
  | cons first rest ih =>
    cases rest with
    | nil => exact first
    | cons second rest => exact (first.append (.lit ", ")).append ih

theorem AllOpen.resultSuffix {codes filled : List Marked} (all : AllOpen runtime codes filled) :
    Opens runtime (Marked.resultSuffix codes) (Marked.resultSuffix filled) := by
  match all with
  | .nil => exact .nil
  | .cons first .nil => exact (Opens.lit " ").append first
  | .cons first (.cons second rest) =>
    have all : AllOpen runtime _ _ := .cons first (.cons second rest)
    exact ((Opens.lit " (").append all.separated).append (.lit ")")

mutual

theorem typeExpr_opens (runtime : String) : (ty : TypeExpr) →
    Opens runtime (Marked.typeExpr standIn ty) (Marked.typeExpr runtime ty)
  | .named name => by
    rw [Marked.typeExpr, Marked.typeExpr]
    split
    · exact Opens.standIn.append (.lit ".Node")
    · exact .qualified fun generated => nomatch generated
  | .generic name arg => by
    rw [Marked.typeExpr, Marked.typeExpr]
    have named : Opens runtime (Marked.qualified .user name) (Marked.qualified .user name) :=
      .qualified fun generated => nomatch generated
    exact ((named.append (.lit "[")).append (typeExpr_opens runtime arg)).append (.lit "]")
  | .chan recvOnly elem => by
    rw [Marked.typeExpr, Marked.typeExpr]
    exact (Opens.lit _).append (typeExpr_opens runtime elem)
  | .slice elem => by
    rw [Marked.typeExpr, Marked.typeExpr]
    exact (Opens.lit _).append (typeExpr_opens runtime elem)
  | .pointer elem => by
    rw [Marked.typeExpr, Marked.typeExpr]
    exact (Opens.lit _).append (typeExpr_opens runtime elem)
  | .func params results => by
    rw [Marked.typeExpr, Marked.typeExpr]
    exact (((Opens.lit "func(").append (typeExprs_open runtime params).separated).append (.lit ")")).append
      (typeExprs_open runtime results).resultSuffix

theorem typeExprs_open (runtime : String) : (ts : List TypeExpr) →
    AllOpen runtime (Marked.typeExprs standIn ts) (Marked.typeExprs runtime ts)
  | [] => by
    rw [Marked.typeExprs, Marked.typeExprs]
    exact .nil
  | t :: ts => by
    rw [Marked.typeExprs, Marked.typeExprs]
    exact .cons (typeExpr_opens runtime t) (typeExprs_open runtime ts)

end

end

section

variable (env : Env)

theorem type_opens (ty : TypeExpr) : Opens env.runtime (Marked.type env.opened ty) (Marked.type env ty) :=
  typeExpr_opens env.runtime ty

theorem params_open (ps : List Param) : AllOpen env.runtime (Marked.params env.opened ps) (Marked.params env ps) := by
  rw [Marked.params, Marked.params]
  refine .map (fun p => ?_) ps
  exact (((Opens.lit _).append (.lit " ")).append (.lit _)).append (type_opens env p.ty.value)

theorem typeSuffix_opens (ty : Option (Located TypeExpr)) :
    Opens env.runtime (Marked.typeSuffix env.opened ty) (Marked.typeSuffix env ty) := by
  cases ty with
  | none => exact .nil
  | some t => exact (Opens.lit " ").append (type_opens env t.value)

theorem runtime_opens (name : String) :
    Opens env.runtime (Marked.runtime env.opened name) (Marked.runtime env name) :=
  (Opens.standIn.append (.lit ".")).append (.lit name)

end

section

variable {env : Env} (through : ThroughReceiver env) (locals : Locals)

include through

theorem field?_through {name field : String} (found : Lexical.field? env locals name = some field) :
    ∃ path, field = "c." ++ path := by
  rw [Lexical.field?] at found
  split at found
  · cases found
  · exact through.field found

theorem latest?_through {channel field : String} (found : Lexical.latest? env locals channel = some field) :
    ∃ path, field = "c." ++ path := by
  rw [Lexical.latest?] at found
  split at found
  · cases found
  · exact through.latest found

theorem name_opens (name : String) :
    Opens env.runtime (Marked.name env.opened locals name) (Marked.name env locals name) := by
  change Opens env.runtime (Marked.name env locals name) (Marked.name env locals name)
  rw [Marked.name]
  split
  · exact .qualified fun _ => field?_through through locals ‹_›
  · exact .mention name

theorem receive_opens (channel : String) :
    Opens env.runtime (Marked.receive env.opened locals channel) (Marked.receive env locals channel) := by
  change Opens env.runtime (Marked.receive env locals channel) (Marked.receive env locals channel)
  rw [Marked.receive]
  split
  · exact .qualified fun _ => latest?_through through locals ‹_›
  · exact (Opens.lit "<-").append (name_opens through locals channel)

end

section

variable (env : Env)

mutual

theorem stmtAssigns_opened (locals : Locals) : (s : Stmt) →
    Lexical.stmtAssigns env.opened locals s = Lexical.stmtAssigns env locals s
  | .simple _ => rfl
  | .cond s => by
    rw [Lexical.stmtAssigns, Lexical.stmtAssigns, ifAssigns_opened locals s]
  | .loop _ body _ => by
    rw [Lexical.stmtAssigns, Lexical.stmtAssigns, blockAssigns_opened _ body]
    rfl
  | .var _ => rfl
  | .ret _ _ => rfl
  | .branch _ _ => rfl

theorem stmtsAssign_opened (locals : Locals) : (ss : List Stmt) →
    Lexical.stmtsAssign env.opened locals ss = Lexical.stmtsAssign env locals ss
  | [] => rfl
  | s :: ss => by
    rw [Lexical.stmtsAssign, Lexical.stmtsAssign, stmtAssigns_opened locals s, stmtsAssign_opened _ ss]

theorem blockAssigns_opened (locals : Locals) : (b : Block) →
    Lexical.blockAssigns env.opened locals b = Lexical.blockAssigns env locals b
  | ⟨ss, _⟩ => by
    rw [Lexical.blockAssigns, Lexical.blockAssigns, stmtsAssign_opened locals ss]

theorem ifAssigns_opened (locals : Locals) : (s : IfStmt) →
    Lexical.ifAssigns env.opened locals s = Lexical.ifAssigns env locals s
  | ⟨_, _, body, otherwise, _⟩ => by
    rw [Lexical.ifAssigns, Lexical.ifAssigns, blockAssigns_opened _ body, elseAssigns_opened _ otherwise]
    rfl

theorem elseAssigns_opened (locals : Locals) : (s : Else) →
    Lexical.elseAssigns env.opened locals s = Lexical.elseAssigns env locals s
  | .none => rfl
  | .block b => by
    rw [Lexical.elseAssigns, Lexical.elseAssigns, blockAssigns_opened locals b]
  | .chain s => by
    rw [Lexical.elseAssigns, Lexical.elseAssigns, ifAssigns_opened locals s]

end

theorem stmt_lines (locals : Locals) (level : Nat) (s : Stmt) : Lexical.stmt env locals level s ≠ [] := by
  cases s <;> rw [Lexical.stmt] <;> simp

theorem block_isEmpty (locals : Locals) (level : Nat) (ss : List Stmt) (span : Span) :
    (Lexical.block env locals level ⟨ss, span⟩).isEmpty = ss.isEmpty := by
  rw [Lexical.block]
  cases ss with
  | nil => rfl
  | cons s ss =>
    have lines : Lexical.stmts env locals level (s :: ss) ≠ [] := by
      rw [Lexical.stmts]
      exact List.append_ne_nil_of_left_ne_nil (stmt_lines env locals level s) _
    exact List.isEmpty_eq_false_iff.mpr lines

theorem quote_shown (s : String) : quote s ≠ "" := by
  rw [quote, Ne, String.ofList_eq_empty_iff]
  exact List.cons_ne_nil _ _

theorem template_shown (locals : Locals) (level : Nat) (t : Template) : Lexical.template env locals level t ≠ "" := by
  obtain ⟨fs, span⟩ := t
  rw [Lexical.template]
  split
  · exact quote_shown _
  · simp

theorem links_shown (locals : Locals) (level : Nat) (link : Link) (ls : List Link) :
    Lexical.links env locals level (link :: ls) ≠ "" := by
  obtain ⟨op, operand⟩ := link
  rw [Lexical.links]
  simp

mutual

theorem expr_blank (locals : Locals) (level : Nat) : (e : Expr) →
    (Lexical.expr env.opened locals level e = "" ↔ Lexical.expr env locals level e = "")
  | ⟨head, [], _⟩ => by
    rw [Lexical.expr, Lexical.expr, Lexical.links, Lexical.links, String.append_empty, String.append_empty]
    exact primary_blank locals level head
  | ⟨head, link :: ls, _⟩ => by
    rw [Lexical.expr, Lexical.expr]
    simp only [String.append_eq_empty_iff, links_shown, and_false]

theorem primary_blank (locals : Locals) (level : Nat) : (p : Primary) →
    (Lexical.primary env.opened locals level p = "" ↔ Lexical.primary env locals level p = "")
  | .int _ => Iff.rfl
  | .float _ => Iff.rfl
  | .string _ => Iff.rfl
  | .template t => by
    rw [Lexical.primary, Lexical.primary]
    exact iff_of_false (template_shown _ locals level t) (template_shown env locals level t)
  | .composite _ _ _ => by
    rw [Lexical.primary, Lexical.primary]
    simp
  | .make _ _ _ => by
    rw [Lexical.primary, Lexical.primary]
    simp
  | .index _ _ _ => by
    rw [Lexical.primary, Lexical.primary]
    simp
  | .slice _ _ _ _ => by
    rw [Lexical.primary, Lexical.primary]
    simp
  | .select b segments _ => by
    rw [Lexical.primary, Lexical.primary, path_eq, path_eq (Lexical.base env locals level b),
      String.append_eq_empty_iff, String.append_eq_empty_iff, base_blank locals level b]
  | .call _ _ _ _ => by
    rw [Lexical.primary, Lexical.primary]
    simp
  | .func _ _ _ _ => by
    rw [Lexical.primary, Lexical.primary]
    simp only [Lower.funcText]
    constructor <;> intro blank <;> split at blank <;> simp at blank
  | .receive _ _ => Iff.rfl
  | .unary op operand _ => by
    rw [Lexical.primary, Lexical.primary, String.append_eq_empty_iff, String.append_eq_empty_iff,
      primary_blank locals level operand]
  | .paren inner => by
    rw [Lexical.primary, Lexical.primary]
    simp

theorem base_blank (locals : Locals) (level : Nat) : (b : Base) →
    (Lexical.base env.opened locals level b = "" ↔ Lexical.base env locals level b = "")
  | .name _ => Iff.rfl
  | .operand p => by
    rw [Lexical.base, Lexical.base]
    exact primary_blank locals level p

end

theorem exprs_blank (locals : Locals) (level : Nat) (es : List Expr) :
    (", ".intercalate (Lexical.exprs env.opened locals level es)).isEmpty =
      (", ".intercalate (Lexical.exprs env locals level es)).isEmpty := by
  rw [Bool.eq_iff_iff, String.isEmpty_iff, String.isEmpty_iff]
  match es with
  | [] => exact Iff.rfl
  | [e] =>
    rw [Lexical.exprs, Lexical.exprs, Lexical.exprs, Lexical.exprs, String.intercalate_singleton,
      String.intercalate_singleton]
    exact expr_blank env locals level e
  | e :: e' :: es =>
    rw [Lexical.exprs, Lexical.exprs, Lexical.exprs, Lexical.exprs, String.intercalate_cons_cons,
      String.intercalate_cons_cons]
    simp

end

theorem literal_opens {runtime : String} {head body front behind : Marked} (level : Nat) (bound : List String)
    (empty writes : Bool) (headed : Opens runtime head front) (inside : Opens runtime body behind) :
    Opens runtime (Marked.literal level head bound body empty writes)
      (Marked.literal level front bound behind empty writes) := by
  have receiver : Opens runtime (Marked.deferred (level + 1) writes) (Marked.deferred (level + 1) writes) := by
    cases writes <;> exact ⟨rfl, .of_unused rfl⟩
  rw [Marked.literal, Marked.literal]
  split
  · exact headed.append (.lit _)
  · have scope := (((Opens.binds bound).append receiver).append inside).scope
    exact (((headed.append (.lit " \x7b\n")).append scope).append (.lit _)).append (.lit "\x7d")

mutual

theorem expr_opens {env : Env} (through : ThroughReceiver env) (locals : Locals) (level : Nat) : (e : Expr) →
    Opens env.runtime (Marked.expr env.opened locals level e) (Marked.expr env locals level e)
  | ⟨head, tail, _⟩ => by
    rw [Marked.expr, Marked.expr]
    exact (primary_opens through locals level head).append (links_opens through locals level tail)

theorem links_opens {env : Env} (through : ThroughReceiver env) (locals : Locals) (level : Nat) :
    (ls : List Link) → Opens env.runtime (Marked.links env.opened locals level ls) (Marked.links env locals level ls)
  | [] => by
    rw [Marked.links, Marked.links]
    exact .nil
  | ⟨op, operand⟩ :: ls => by
    rw [Marked.links, Marked.links]
    exact ((((Opens.lit " ").append (.lit _)).append (.lit " ")).append
      (primary_opens through locals level operand)).append (links_opens through locals level ls)

theorem exprs_open {env : Env} (through : ThroughReceiver env) (locals : Locals) (level : Nat) :
    (es : List Expr) → AllOpen env.runtime (Marked.exprs env.opened locals level es) (Marked.exprs env locals level es)
  | [] => by
    rw [Marked.exprs, Marked.exprs]
    exact .nil
  | e :: es => by
    rw [Marked.exprs, Marked.exprs]
    exact .cons (expr_opens through locals level e) (exprs_open through locals level es)

theorem optional_opens {env : Env} (through : ThroughReceiver env) (locals : Locals) (level : Nat) :
    (e : Option Expr) →
    Opens env.runtime (Marked.optional env.opened locals level e) (Marked.optional env locals level e)
  | none => by
    rw [Marked.optional, Marked.optional]
    exact .nil
  | some e => by
    rw [Marked.optional, Marked.optional]
    exact expr_opens through locals level e

theorem entries_open {env : Env} (through : ThroughReceiver env) (locals : Locals) (level : Nat) :
    (es : List Entry) →
    AllOpen env.runtime (Marked.entries env.opened locals level es) (Marked.entries env locals level es)
  | [] => by
    rw [Marked.entries, Marked.entries]
    exact .nil
  | ⟨some key, value⟩ :: es => by
    rw [Marked.entries, Marked.entries]
    exact .cons (((Opens.lit _).append (.lit ": ")).append (expr_opens through locals level value))
      (entries_open through locals level es)
  | ⟨none, value⟩ :: es => by
    rw [Marked.entries, Marked.entries]
    exact .cons (expr_opens through locals level value) (entries_open through locals level es)

theorem primary_opens {env : Env} (through : ThroughReceiver env) (locals : Locals) (level : Nat) :
    (p : Primary) → Opens env.runtime (Marked.primary env.opened locals level p) (Marked.primary env locals level p)
  | .int _ => by
    rw [Marked.primary, Marked.primary]
    exact .lit _
  | .float _ => by
    rw [Marked.primary, Marked.primary]
    exact .lit _
  | .string _ => by
    rw [Marked.primary, Marked.primary]
    exact .lit _
  | .template t => by
    rw [Marked.primary, Marked.primary]
    exact template_opens through locals level t
  | .composite ty es _ => by
    rw [Marked.primary, Marked.primary]
    exact (((type_opens env ty.value).append (.lit "\x7b")).append
      (entries_open through locals level es).separated).append (.lit "\x7d")
  | .make ty args _ => by
    rw [Marked.primary, Marked.primary]
    have all : AllOpen env.runtime _ _ := .cons (type_opens env ty.value) (exprs_open through locals level args)
    exact (((Opens.mention "make").append (.lit "(")).append all.separated).append (.lit ")")
  | .index target index _ => by
    rw [Marked.primary, Marked.primary]
    exact (((primary_opens through locals level target).append (.lit "[")).append
      (expr_opens through locals level index)).append (.lit "]")
  | .slice target low high _ => by
    rw [Marked.primary, Marked.primary]
    exact (((((primary_opens through locals level target).append (.lit "[")).append
      (optional_opens through locals level low)).append (.lit ":")).append
      (optional_opens through locals level high)).append (.lit "]")
  | .select b _ _ => by
    rw [Marked.primary, Marked.primary]
    exact (base_opens through locals level b).append (.lit _)
  | .call b _ args _ => by
    rw [Marked.primary, Marked.primary]
    exact ((((base_opens through locals level b).append (.lit _)).append (.lit "(")).append
      (exprs_open through locals level args).separated).append (.lit ")")
  | .func ps results body _ => by
    rw [Marked.primary, Marked.primary]
    have head := (((Opens.lit "func(").append (params_open env ps).separated).append (.lit ")")).append
      (AllOpen.map (fun t : Located TypeExpr => type_opens env t.value) results).resultSuffix
    obtain ⟨ss, span⟩ := body
    simp only [block_isEmpty, blockAssigns_opened]
    exact literal_opens level _ _ _ head (block_opens through _ (level + 1) ⟨ss, span⟩)
  | .receive channel _ => by
    rw [Marked.primary, Marked.primary]
    exact receive_opens through locals channel.value
  | .unary _ operand _ => by
    rw [Marked.primary, Marked.primary]
    exact (Opens.lit _).append (primary_opens through locals level operand)
  | .paren inner => by
    rw [Marked.primary, Marked.primary]
    exact ((Opens.lit "(").append (expr_opens through locals level inner)).append (.lit ")")

theorem base_opens {env : Env} (through : ThroughReceiver env) (locals : Locals) (level : Nat) :
    (b : Base) → Opens env.runtime (Marked.base env.opened locals level b) (Marked.base env locals level b)
  | .name n => by
    rw [Marked.base, Marked.base]
    exact name_opens through locals n.value
  | .operand p => by
    rw [Marked.base, Marked.base]
    exact primary_opens through locals level p

theorem template_opens {env : Env} (through : ThroughReceiver env) (locals : Locals) (level : Nat) :
    (t : Template) → Opens env.runtime (Marked.template env.opened locals level t) (Marked.template env locals level t)
  | ⟨fs, _⟩ => by
    rw [Marked.template, Marked.template]
    have args := interpolated_open through locals level fs
    rw [args.isEmpty_eq]
    split
    · exact .lit _
    · exact (((Opens.sprintf.append (.lit _)).append (.lit ", ")).append args.separated).append (.lit ")")

theorem interpolated_open {env : Env} (through : ThroughReceiver env) (locals : Locals) (level : Nat) :
    (fs : List Fragment) →
    AllOpen env.runtime (Marked.interpolated env.opened locals level fs) (Marked.interpolated env locals level fs)
  | [] => by
    rw [Marked.interpolated, Marked.interpolated]
    exact .nil
  | .text _ :: fs => by
    rw [Marked.interpolated, Marked.interpolated]
    exact interpolated_open through locals level fs
  | .interp e :: fs => by
    rw [Marked.interpolated, Marked.interpolated]
    exact .cons (expr_opens through locals level e) (interpolated_open through locals level fs)

theorem block_opens {env : Env} (through : ThroughReceiver env) (locals : Locals) (level : Nat) :
    (b : Block) → Opens env.runtime (Marked.block env.opened locals level b) (Marked.block env locals level b)
  | ⟨ss, _⟩ => by
    rw [Marked.block, Marked.block]
    exact (stmts_opens through locals level ss).scope

theorem stmts_opens {env : Env} (through : ThroughReceiver env) (locals : Locals) (level : Nat) :
    (ss : List Stmt) → Opens env.runtime (Marked.stmts env.opened locals level ss) (Marked.stmts env locals level ss)
  | [] => by
    rw [Marked.stmts, Marked.stmts]
    exact .nil
  | s :: ss => by
    rw [Marked.stmts, Marked.stmts]
    exact (stmt_opens through locals level s).append (stmts_opens through _ level ss)

theorem stmt_opens {env : Env} (through : ThroughReceiver env) (locals : Locals) (level : Nat) :
    (s : Stmt) → Opens env.runtime (Marked.stmt env.opened locals level s) (Marked.stmt env locals level s)
  | .var d => by
    rw [Marked.stmt, Marked.stmt]
    exact (varDecl_opens through locals level d).line level
  | .simple s => by
    rw [Marked.stmt, Marked.stmt]
    exact (simple_opens through locals level s).line level
  | .ret values _ => by
    rw [Marked.stmt, Marked.stmt]
    rw [exprs_blank]
    refine Opens.line ?_ level
    split
    · exact .lit _
    · exact (Opens.lit "return ").append (exprs_open through locals level values).separated
  | .cond s => by
    rw [Marked.stmt, Marked.stmt]
    exact (ifStmt_opens through locals level "if " s).append (Opens.line (.lit "\x7d") level)
  | .loop header body _ => by
    rw [Marked.stmt, Marked.stmt]
    have inner := block_opens through (locals.extend (Lexical.declaredByHeader header)) (level + 1) body
    exact (((loopHead_opens through locals level header).line level).append inner).scope.append
      (Opens.line (.lit "\x7d") level)
  | .branch _ _ => by
    rw [Marked.stmt, Marked.stmt]
    exact Opens.line (.lit _) level

theorem definedTargets_open {env : Env} (through : ThroughReceiver env) (locals : Locals) (level : Nat) :
    (es : List Expr) →
    AllOpen env.runtime (Marked.definedTargets env.opened locals level es) (Marked.definedTargets env locals level es)
  | [] => by
    rw [Marked.definedTargets, Marked.definedTargets]
    exact .nil
  | e :: es => by
    rw [Marked.definedTargets, Marked.definedTargets]
    cases e.ident? with
    | some name => exact .cons (.lit _) (definedTargets_open through _ level es)
    | none => exact .cons (expr_opens through locals level e) (definedTargets_open through locals level es)

theorem simple_opens {env : Env} (through : ThroughReceiver env) (locals : Locals) (level : Nat) :
    (s : SimpleStmt) → Opens env.runtime (Marked.simple env.opened locals level s) (Marked.simple env locals level s)
  | .exprs targets _ => by
    rw [Marked.simple, Marked.simple]
    exact (exprs_open through locals level targets).separated
  | .assign targets op values _ => by
    rw [Marked.simple, Marked.simple]
    have given := (exprs_open through locals level values).separated
    have written := (exprs_open through locals level targets).separated
    split
    · exact (((definedTargets_open through locals level targets).separated.append (.lit " := ")).append
        given).append (.binds _)
    · split
      · exact written.append (.lit _)
      · exact (((written.append (.lit " ")).append (.lit _)).append (.lit " ")).append given
  | .send channel value _ => by
    rw [Marked.simple, Marked.simple]
    exact ((expr_opens through locals level channel).append (.lit " <- ")).append
      (expr_opens through locals level value)

theorem varDecl_opens {env : Env} (through : ThroughReceiver env) (locals : Locals) (level : Nat) :
    (d : VarDecl) → Opens env.runtime (Marked.varDecl env.opened locals level d) (Marked.varDecl env locals level d)
  | ⟨names, ty, values, _⟩ => by
    rw [Marked.varDecl, Marked.varDecl]
    have given := exprs_open through locals level values
    have assigned : Opens env.runtime
        (if (Marked.exprs env.opened locals level values).isEmpty then []
          else Marked.lit " = " ++ Marked.separated (Marked.exprs env.opened locals level values))
        (if (Marked.exprs env locals level values).isEmpty then []
          else Marked.lit " = " ++ Marked.separated (Marked.exprs env locals level values)) := by
      rw [given.isEmpty_eq]
      split
      · exact .nil
      · exact (Opens.lit " = ").append given.separated
    exact ((((Opens.lit "var ").append (.lit _)).append (typeSuffix_opens env ty)).append assigned).append
      (.binds _)

theorem clause_opens {env : Env} (through : ThroughReceiver env) (locals : Locals) (level : Nat) :
    (s : Option SimpleStmt) →
    Opens env.runtime (Marked.clause env.opened locals level s) (Marked.clause env locals level s)
  | none => by
    rw [Marked.clause, Marked.clause]
    exact .nil
  | some s => by
    rw [Marked.clause, Marked.clause]
    exact simple_opens through locals level s

theorem leading_opens {env : Env} (through : ThroughReceiver env) (locals : Locals) (level : Nat) :
    (s : Option SimpleStmt) →
    Opens env.runtime (Marked.leading env.opened locals level s) (Marked.leading env locals level s)
  | none => by
    rw [Marked.leading, Marked.leading]
    exact .nil
  | some s => by
    rw [Marked.leading, Marked.leading]
    exact (simple_opens through locals level s).append (.lit "; ")

theorem ifStmt_opens {env : Env} (through : ThroughReceiver env) (locals : Locals) (level : Nat)
    (opening : String) : (s : IfStmt) →
    Opens env.runtime (Marked.ifStmt env.opened locals level opening s) (Marked.ifStmt env locals level opening s)
  | ⟨init, cond, body, otherwise, _⟩ => by
    rw [Marked.ifStmt, Marked.ifStmt]
    have head := (((Opens.lit opening).append (leading_opens through locals level init)).append
      (expr_opens through (locals.extend (Lexical.declaredByClause init)) level cond)).append (.lit " \x7b")
    exact (((head.line level).append (block_opens through _ (level + 1) body)).append
      (elseBranch_opens through _ level otherwise)).scope

theorem elseBranch_opens {env : Env} (through : ThroughReceiver env) (locals : Locals) (level : Nat) :
    (s : Else) → Opens env.runtime (Marked.elseBranch env.opened locals level s) (Marked.elseBranch env locals level s)
  | .none => by
    rw [Marked.elseBranch, Marked.elseBranch]
    exact .nil
  | .block b => by
    rw [Marked.elseBranch, Marked.elseBranch]
    exact (Opens.line (.lit _) level).append (block_opens through locals (level + 1) b)
  | .chain s => by
    rw [Marked.elseBranch, Marked.elseBranch]
    exact ifStmt_opens through locals level _ s

theorem loopHead_opens {env : Env} (through : ThroughReceiver env) (locals : Locals) (level : Nat) :
    (header : LoopHeader) →
    Opens env.runtime (Marked.loopHead env.opened locals level header) (Marked.loopHead env locals level header)
  | .infinite => by
    rw [Marked.loopHead, Marked.loopHead]
    exact .lit _
  | .cond e => by
    rw [Marked.loopHead, Marked.loopHead]
    exact ((Opens.lit "for ").append (expr_opens through locals level e)).append (.lit " \x7b")
  | .classic init cond post => by
    rw [Marked.loopHead, Marked.loopHead]
    exact ((((((Opens.lit "for ").append (clause_opens through locals level init)).append (.lit "; ")).append
      (optional_opens through _ level cond)).append (.lit "; ")).append
      (clause_opens through _ level post)).append (.lit " \x7b")
  | .range key value iterable => by
    rw [Marked.loopHead, Marked.loopHead]
    exact (((((Opens.lit "for ").append (.lit (Lower.rangeVars key value))).append (.lit "range ")).append
      (expr_opens through locals level iterable)).append (.lit " \x7b")).append (.binds _)

end

section

variable {env : Env}

theorem textChild_opens (e : Expr) {value filled : Marked} (given : Opens env.runtime value filled) :
    Opens env.runtime (Marked.textChild env.opened e value) (Marked.textChild env e filled) := by
  have plain := (((runtime_opens env "Text").append (.lit "(")).append given).append (.lit ")")
  have printed := (((runtime_opens env "Text").append .sprint).append given).append (.lit "))")
  rw [Marked.textChild, Marked.textChild]
  cases e.primary? with
  | none => exact printed
  | some p =>
    cases p with
    | string _ => exact plain
    | template _ => exact plain
    | _ => exact printed

theorem call_opens {runtime : String} {head front : Marked} {children filled : List Marked} (level : Nat)
    (separator : String) (headed : Opens runtime head front) (all : AllOpen runtime children filled) :
    Opens runtime (Marked.call level head separator children) (Marked.call level front separator filled) := by
  have lines : Opens runtime
      (children.flatMap fun c => Marked.lit (Lower.pad (level + 1)) ++ c ++ Marked.lit ",\n")
      (filled.flatMap fun c => Marked.lit (Lower.pad (level + 1)) ++ c ++ Marked.lit ",\n") := by
    induction all with
    | nil => exact .nil
    | cons first _ ih =>
      rw [List.flatMap_cons, List.flatMap_cons]
      exact (((Opens.lit _).append first).append (.lit ",\n")).append ih
  rw [Marked.call, Marked.call, all.isEmpty_eq]
  split
  · exact headed.append (.lit ")")
  · exact ((((headed.append (.lit _)).append (.lit "\n")).append lines).append (.lit _)).append (.lit ")")

theorem listText_opens {codes filled : List Marked} (level : Nat) (all : AllOpen env.runtime codes filled) :
    Opens env.runtime (Marked.listText env.opened level codes) (Marked.listText env level filled) := by
  match all with
  | .nil => exact .own (by decide) (by decide)
  | .cons first .nil => exact first
  | .cons first (.cons second rest) =>
    exact call_opens level "" ((runtime_opens env "Fragment").append (.lit "(")) (.cons first (.cons second rest))

theorem props_opens {entries filled : List Marked} (all : AllOpen env.runtime entries filled) :
    Opens env.runtime (Marked.props env.opened entries) (Marked.props env filled) := by
  rw [Marked.props, Marked.props, all.isEmpty_eq]
  split
  · exact .own (by decide) (by decide)
  · exact (((runtime_opens env "Props").append (.lit "\x7b")).append all.separated).append (.lit "\x7d")

theorem gather_opens {runtime : String} {codes filled : List Marked} (level : Nat)
    (all : AllOpen runtime codes filled) :
    Opens runtime (Marked.gather level codes) (Marked.gather level filled) := by
  have nodes : Opens runtime (Marked.refer "nodes") (Marked.refer "nodes") := .own (by decide) (by decide)
  have append : Opens runtime (Marked.refer "append") (Marked.refer "append") := .own (by decide) (by decide)
  have target := nodes.append (.lit " = ")
  match all with
  | .nil => exact .nil
  | .cons first .nil =>
    have opened := (((target.append append).append (.lit "(")).append nodes).append (.lit ", ")
    exact (((Opens.lit (Lower.pad level)).append opened).append first).append (.lit ")\n")
  | .cons first (.cons second rest) =>
    have gathered := call_opens level "," ((append.append (.lit "(")).append nodes) (.cons first (.cons second rest))
    exact (((Opens.lit _).append target).append gathered).append (.lit "\n")

theorem conditional_opens {cond body otherwise test taken other : Marked} (level : Nat)
    (tested : Opens env.runtime cond test) (thenCode : Opens env.runtime body taken)
    (elseCode : Opens env.runtime otherwise other) :
    Opens env.runtime (Marked.conditional env.opened level cond body otherwise)
      (Marked.conditional env level test taken other) := by
  have opened := ((Opens.lit "func() ").append (runtime_opens env "Node")).append (.lit " \x7b\n")
  have head := (((opened.append (.lit (Lower.pad (level + 1)))).append (.lit "if ")).append tested).append
    (.lit " \x7b\n")
  have first := (((head.append (.lit (Lower.pad (level + 2)))).append (.lit "return ")).append thenCode).append
    (.lit "\n")
  have closed := (first.append (.lit (Lower.pad (level + 1)))).append (.lit "\x7d\n")
  have second := (((closed.append (.lit (Lower.pad (level + 1)))).append (.lit "return ")).append elseCode).append
    (.lit "\n")
  exact (second.append (.lit (Lower.pad level))).append (.lit "\x7d()")

theorem loop_opens {iterable ranged : Marked} {children filled : List Marked} (level : Nat) (key value : Option Name)
    (opens : Opens env.runtime iterable ranged) (all : AllOpen env.runtime children filled) :
    Opens env.runtime (Marked.loop env.opened level key value iterable children)
      (Marked.loop env level key value ranged filled) := by
  have type := runtime_opens env "Node"
  have opened := ((Opens.lit "func() ").append type).append (.lit " \x7b\n")
  have declared := (((Opens.lit "var nodes []").append type).line (level + 1)).append (.bind ⟨.generator, "nodes"⟩)
  have head := ((((Opens.lit "for ").append (.lit (Lower.rangeVars key value))).append (.lit "range ")).append
    opens).append (.lit " \x7b")
  have repeated := (((head.line (level + 1)).append (.binds ((key.toList ++ value.toList).map (·.value)))).append
    (gather_opens (level + 2) all)).scope
  have nodes : Opens env.runtime (Marked.refer "nodes") (Marked.refer "nodes") := .own (by decide) (by decide)
  have returned := ((((Opens.lit "return ").append (runtime_opens env "Fragment")).append (.lit "(")).append
    nodes).append (.lit "...)")
  have inside := (((declared.append repeated).append (Opens.line (.lit "\x7d") (level + 1))).append
    (returned.line (level + 1))).scope
  exact ((opened.append inside).append (.lit (Lower.pad level))).append (.lit "\x7d()")

theorem option_opens {runtime : String} (tag : String) (p : Param) {value filled : Marked}
    (given : Opens runtime value filled) :
    Opens runtime (Marked.option tag p value) (Marked.option tag p filled) := by
  have named : Opens runtime (Marked.refer (tag ++ "With" ++ exported p.name.value)) _ :=
    .refer (Marked.with_ne_word (by decide) tag _) (Marked.with_ne_word (by decide) tag _)
  exact ((named.append (.lit "(")).append given).append (.lit ")")

section

variable (through : ThroughReceiver env) (locals : Locals) (level : Nat)

include through

theorem elementArgs_open (args : List Entry) :
    let codes := Marked.elementArgs env.opened locals level args
    let filled := Marked.elementArgs env locals level args
    AllOpen env.runtime codes.1 filled.1 ∧ AllOpen env.runtime codes.2 filled.2 := by
  induction args with
  | nil => exact ⟨.nil, .nil⟩
  | cons arg args ih =>
    obtain ⟨key, value⟩ := arg
    have given := expr_opens through locals level value
    cases key with
    | some k => exact ⟨.cons (((Opens.lit _).append (.lit ": ")).append given) ih.1, ih.2⟩
    | none => exact ⟨ih.1, .cons (textChild_opens value given) ih.2⟩

theorem propChildren_open (ns : List Node) :
    AllOpen env.runtime (ns.filterMap (Marked.propChild env.opened locals level))
      (ns.filterMap (Marked.propChild env locals level)) := by
  induction ns with
  | nil => exact .nil
  | cons n ns ih =>
    rw [List.filterMap_cons, List.filterMap_cons]
    cases n with
    | element e =>
      obtain ⟨tag, args, children, span⟩ := e
      rw [Marked.propChild, Marked.propChild]
      dsimp only
      cases Vocabulary.prop? tag.value with
      | none => exact ih
      | some key =>
        cases args with
        | nil => exact ih
        | cons arg args =>
          exact .cons (((Opens.lit _).append (.lit ": ")).append (expr_opens through locals level arg.value)) ih
    | text _ => exact ih
    | template _ => exact ih
    | cond _ => exact ih
    | loop _ => exact ih

theorem optionArgs_open (tag : String) (ps positional : List Param) (args : List Entry) :
    AllOpen env.runtime (Marked.optionArgs env.opened locals level tag ps positional args)
      (Marked.optionArgs env locals level tag ps positional args) := by
  induction args generalizing positional with
  | nil =>
    rw [Marked.optionArgs, Marked.optionArgs]
    exact .nil
  | cons arg args ih =>
    obtain ⟨key, value⟩ := arg
    have given := expr_opens through locals level value
    cases key with
    | some name =>
      rw [Marked.optionArgs, Marked.optionArgs]
      cases ps.find? (·.name.value == name.value) with
      | none => exact ih positional
      | some p => exact .cons (option_opens tag p given) (ih positional)
    | none =>
      cases positional with
      | nil =>
        rw [Marked.optionArgs, Marked.optionArgs]
        exact ih []
      | cons p positional =>
        rw [Marked.optionArgs, Marked.optionArgs]
        exact .cons (option_opens tag p given) (ih positional)

theorem paramArgs_open (args positional : List Entry) (ps : List Param) :
    AllOpen env.runtime (Marked.paramArgs env.opened locals level args positional ps)
      (Marked.paramArgs env locals level args positional ps) := by
  induction ps generalizing positional with
  | nil => exact .nil
  | cons p ps ih =>
    rw [Marked.paramArgs.eq_def, Marked.paramArgs.eq_def]
    dsimp only
    cases Lower.namedArg? args p with
    | some a =>
      have given := expr_opens through locals level a.value
      cases p.variadic with
      | true => exact .cons (given.append (.lit "...")) (ih positional)
      | false => exact .cons given (ih positional)
    | none =>
      cases p.variadic with
      | true => exact (exprs_open through locals level _).append (ih [])
      | false =>
        cases positional with
        | nil =>
          have new : Opens env.runtime (Marked.refer "new") (Marked.refer "new") := .own (by decide) (by decide)
          have fresh := ((Opens.lit "*").append new).append (.lit "(")
          exact .cons ((fresh.append (type_opens env p.ty.value)).append (.lit ")")) (ih [])
        | cons a positional => exact .cons (expr_opens through locals level a.value) (ih positional)

theorem embedArgs_open (tag : String) (args : List Entry) :
    AllOpen env.runtime (Marked.embedArgs env.opened locals level tag args)
      (Marked.embedArgs env locals level tag args) := by
  have known : env.opened.components = env.components := rfl
  rw [Marked.embedArgs, Marked.embedArgs, known]
  cases env.components.find? (·.name.value == tag) with
  | none => exact exprs_open through locals level _
  | some c =>
    dsimp only
    cases c.isRenderable with
    | false => exact exprs_open through locals level _
    | true =>
      cases c.autoProps with
      | true => exact optionArgs_open through locals level tag c.params c.params args
      | false => exact paramArgs_open through locals level args _ c.params

theorem embed_opens (tag : String) (args : List Entry) :
    Opens env.runtime (Marked.embed env.opened locals level tag args) (Marked.embed env locals level tag args) := by
  have built : Opens env.runtime (Marked.refer ("New" ++ tag)) (Marked.refer ("New" ++ tag)) :=
    .refer (Marked.new_ne_word (by decide) tag) (Marked.new_ne_word (by decide) tag)
  exact (((((runtime_opens env "Embed").append (.lit "(")).append built).append (.lit "(")).append
    (embedArgs_open through locals level tag args).separated).append (.lit "))")

end

end

mutual

theorem node_opens {env : Env} (through : ThroughReceiver env) (locals : Locals) (level : Nat) :
    (n : Node) → Opens env.runtime (Marked.node env.opened locals level n) (Marked.node env locals level n)
  | .element e => by
    rw [Marked.node, Marked.node]
    exact element_opens through locals level e
  | .text _ => by
    rw [Marked.node, Marked.node]
    exact (((runtime_opens env "Text").append (.lit "(")).append (.lit _)).append (.lit ")")
  | .template t => by
    rw [Marked.node, Marked.node]
    exact (((runtime_opens env "Text").append (.lit "(")).append (template_opens through locals level t)).append
      (.lit ")")
  | .cond c => by
    rw [Marked.node, Marked.node]
    exact nodeIf_opens through locals level c
  | .loop l => by
    rw [Marked.node, Marked.node]
    exact nodeFor_opens through locals level l

theorem nodes_open {env : Env} (through : ThroughReceiver env) (locals : Locals) (level : Nat) :
    (ns : List Node) → AllOpen env.runtime (Marked.nodes env.opened locals level ns) (Marked.nodes env locals level ns)
  | [] => by
    rw [Marked.nodes, Marked.nodes]
    exact .nil
  | n :: ns => by
    rw [Marked.nodes, Marked.nodes]
    split
    · exact nodes_open through locals level ns
    · exact .cons (node_opens through locals level n) (nodes_open through locals level ns)

theorem element_opens {env : Env} (through : ThroughReceiver env) (locals : Locals) (level : Nat) :
    (e : Element) → Opens env.runtime (Marked.element env.opened locals level e) (Marked.element env locals level e)
  | ⟨tag, args, children, _⟩ => by
    rw [Marked.element, Marked.element]
    cases Vocabulary.tag? tag.value with
    | none => exact embed_opens through locals level tag.value args
    | some html =>
      obtain ⟨entries, texts⟩ := elementArgs_open through locals level args
      have given := props_opens (entries.append (propChildren_open through locals level children))
      have head := ((((runtime_opens env "Element").append (.lit "(")).append (.lit (quote html))).append
        (.lit ", ")).append given
      exact call_opens level "," head (texts.append (nodes_open through locals (level + 1) children))

theorem nodeIf_opens {env : Env} (through : ThroughReceiver env) (locals : Locals) (level : Nat) :
    (c : NodeIf) → Opens env.runtime (Marked.nodeIf env.opened locals level c) (Marked.nodeIf env locals level c)
  | ⟨cond, body, otherwise, _⟩ => by
    rw [Marked.nodeIf, Marked.nodeIf]
    exact conditional_opens level (expr_opens through locals (level + 1) cond)
      (listText_opens _ (nodes_open through locals _ body))
      (listText_opens _ (nodes_open through locals _ otherwise))

theorem nodeFor_opens {env : Env} (through : ThroughReceiver env) (locals : Locals) (level : Nat) :
    (l : NodeFor) → Opens env.runtime (Marked.nodeFor env.opened locals level l) (Marked.nodeFor env locals level l)
  | ⟨key, value, iterable, children, _⟩ => by
    rw [Marked.nodeFor, Marked.nodeFor]
    exact loop_opens level key value (expr_opens through locals (level + 1) iterable)
      (nodes_open through _ _ children)

end

theorem nodeList_opens {env : Env} (through : ThroughReceiver env) (locals : Locals) (level : Nat) (ns : List Node) :
    Opens env.runtime (Marked.nodeList env.opened locals level ns) (Marked.nodeList env locals level ns) :=
  listText_opens level (nodes_open through locals _ ns)

end ViewLang.Go
