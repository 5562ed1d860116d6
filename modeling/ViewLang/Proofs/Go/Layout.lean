import ViewLang.Go.Component
import ViewLang.Proofs.Go.Lexical
import ViewLang.Proofs.Go.Pieces
import ViewLang.Proofs.Go.TypeText

namespace ViewLang.Go.Layout

open Grammar (AllFlat kinds)
open Lexical (Locals)

abbrev sym (s : Symbol) : Piece := .token (.symbol s)

abbrev word (k : Keyword) : Piece := .token (.keyword k)

abbrev name (n : Name) : Piece := .token (.ident n.value)

def commaSep : List (List Piece) → List Piece
  | [] => []
  | [ps] => ps
  | ps :: qs :: more => ps ++ sym .comma :: .blank :: commaSep (qs :: more)

def typeName (n : String) : List Piece :=
  match n.toList.dropWhile (· != '.') with
  | [] => [.token (.ident n)]
  | _ :: member => [.token (.ident (.ofList (n.toList.takeWhile (· != '.')))), .field (.ofList member)]

def results : List (List Piece) → List Piece
  | [] => []
  | [ps] => .blank :: ps
  | pss => .blank :: sym .leftParen :: (commaSep pss ++ [sym .rightParen])

mutual

def type : TypeExpr → List Piece
  | .named n => typeName n
  | .generic n arg => typeName n ++ sym .leftBracket :: (type arg ++ [sym .rightBracket])
  | .chan true elem => sym .arrow :: word .chan :: .blank :: type elem
  | .chan false elem => word .chan :: .blank :: type elem
  | .slice elem => sym .leftBracket :: sym .rightBracket :: type elem
  | .pointer elem => sym .star :: type elem
  | .func ps rs => word .func :: sym .leftParen :: (commaSep (types ps) ++ sym .rightParen :: results (types rs))

def types : List TypeExpr → List (List Piece)
  | [] => []
  | t :: ts => type t :: types ts

end

def fields (path : List Name) : List Piece := path.map fun f => .field f.value

mutual

/-- The pieces of an expression. Templates and function literals have none here. -/
def expr : Expr → List Piece
  | ⟨head, tail, _⟩ => primary head ++ links tail

def links : List Link → List Piece
  | [] => []
  | ⟨op, operand⟩ :: ls => .blank :: sym op.value.symbol :: .blank :: (primary operand ++ links ls)

def exprs : List Expr → List (List Piece)
  | [] => []
  | e :: es => expr e :: exprs es

def optional : Option Expr → List Piece
  | none => []
  | some e => expr e

def entries : List Entry → List (List Piece)
  | [] => []
  | ⟨some key, value⟩ :: es => (name key :: sym .colon :: .blank :: expr value) :: entries es
  | ⟨none, value⟩ :: es => expr value :: entries es

def primary : Primary → List Piece
  | .int text => [.token (.int text.value)]
  | .float text => [.token (.float text.value)]
  | .string text => [.token (.string text.value)]
  | .template _ => []
  | .composite ty es _ => type ty.value ++ sym .leftBrace :: (commaSep (entries es) ++ [sym .rightBrace])
  | .make ty args _ =>
    word .make :: sym .leftParen :: (commaSep (type ty.value :: exprs args) ++ [sym .rightParen])
  | .index target index _ => primary target ++ sym .leftBracket :: (expr index ++ [sym .rightBracket])
  | .slice target low high _ =>
    primary target ++ sym .leftBracket :: (optional low ++ sym .colon :: (optional high ++ [sym .rightBracket]))
  | .select b path _ => base b ++ fields path
  | .call b path args _ =>
    base b ++ (fields path ++ sym .leftParen :: (commaSep (exprs args) ++ [sym .rightParen]))
  | .func .. => []
  | .receive channel _ => [sym .arrow, name channel]
  | .unary op operand _ => sym op.symbol :: primary operand
  | .paren inner => sym .leftParen :: (expr inner ++ [sym .rightParen])

def base : Base → List Piece
  | .name n => [name n]
  | .operand p => primary p

end

mutual

def bareNames : TypeExpr → List String
  | .named n => [n]
  | .generic _ arg => bareNames arg
  | .chan _ elem => bareNames elem
  | .slice elem => bareNames elem
  | .pointer elem => bareNames elem
  | .func ps rs => bareNamesEach ps ++ bareNamesEach rs

def bareNamesEach : List TypeExpr → List String
  | [] => []
  | t :: ts => bareNames t ++ bareNamesEach ts

end

def PlainOperand : Primary → Prop
  | .string text => PlainText text.value
  | .template _ => False
  | .composite ty _ _ => "Node" ∉ bareNames ty.value
  | .make ty _ _ => "Node" ∉ bareNames ty.value
  | .func .. => False
  | _ => True

def Plain : Phrase → Prop
  | .operand p => PlainOperand p
  | _ => True

def AllQuotable (ps : List Piece) : Prop := ∀ t ∈ tokens ps, Quotable t

@[simp] theorem allQuotable_nil : AllQuotable [] := nofun

@[simp] theorem allQuotable_cons (p : Piece) (ps : List Piece) :
    AllQuotable (p :: ps) ↔ (∀ t ∈ p.tokens, Quotable t) ∧ AllQuotable ps := by
  simp only [AllQuotable, tokens_cons, List.forall_mem_append]

@[simp] theorem allQuotable_append (ps qs : List Piece) :
    AllQuotable (ps ++ qs) ↔ AllQuotable ps ∧ AllQuotable qs := by
  simp only [AllQuotable, tokens_append, List.forall_mem_append]

structure Lays (text : String) (ts : Tokens) (ps : List Piece) : Prop where
  chars : text.toList = render ps
  kinds : ts.map (·.value) = tokens ps
  quotable : AllQuotable ps

inductive LayEach : List String → List Tokens → List (List Piece) → Prop
  | nil : LayEach [] [] []
  | cons {text : String} {ts : Tokens} {ps : List Piece} {texts : List String} {tss : List Tokens}
    {pss : List (List Piece)} (first : Lays text ts ps) (more : LayEach texts tss pss) :
    LayEach (text :: texts) (ts :: tss) (ps :: pss)

theorem LayEach.separated {texts : List String} {tss : List Tokens} {pss : List (List Piece)}
    (each : LayEach texts tss pss) : Lays (", ".intercalate texts) (Canonical.commaSep tss) (commaSep pss) := by
  induction each with
  | nil => exact ⟨rfl, rfl, allQuotable_nil⟩
  | @cons text ts ps texts tss pss first more ih =>
    cases more with
    | nil => simpa [commaSep] using first
    | cons second others =>
      refine ⟨?_, ?_, ?_⟩
      · simp [String.intercalate_cons_cons, commaSep, first.chars, ih.chars, Piece.chars, Lexer.spell, Symbol.text]
      · simp [commaSep, first.kinds, ih.kinds, Piece.tokens]
      · simp [first.quotable, ih.quotable, commaSep, Piece.tokens, Quotable]

theorem LayEach.results {texts : List String} {tss : List Tokens} {pss : List (List Piece)}
    (each : LayEach texts tss pss) :
    Lays (TypeExpr.resultSuffix texts) (Canonical.funcResults .spare tss) (results pss) := by
  have inside := each.separated
  rcases each with _ | ⟨first, _ | ⟨second, more⟩⟩
  · exact ⟨rfl, rfl, allQuotable_nil⟩
  · refine ⟨?_, ?_, ?_⟩
    · simp [TypeExpr.resultSuffix, Layout.results, first.chars, Piece.chars]
    · simp [Canonical.funcResults, Layout.results, first.kinds, Piece.tokens]
    · simp [first.quotable, Layout.results, Piece.tokens, Quotable]
  · refine ⟨?_, ?_, ?_⟩
    · simp only [TypeExpr.resultSuffix, String.toList_append, inside.chars]
      simp [Layout.results, Piece.chars, Lexer.spell, Symbol.text]
    · simp only [Canonical.funcResults, List.map_cons, List.map_append, inside.kinds]
      simp [Layout.results, Piece.tokens]
    · simp [Layout.results, inside.quotable, Piece.tokens, Quotable]

theorem typeName_lays (n : String) : Lays n (Canonical.typeName .spare n) (typeName n) := by
  have whole := List.takeWhile_append_dropWhile (p := (· != '.')) (l := n.toList)
  unfold typeName Canonical.typeName
  cases rest : n.toList.dropWhile (· != '.') with
  | nil => exact ⟨by simp [Piece.chars, Lexer.spell], rfl, by simp [Piece.tokens, Quotable]⟩
  | cons c member =>
    have point : c = '.' := by
      have first := List.head?_dropWhile_not (· != '.') n.toList
      rw [rest] at first
      simpa using first
    refine ⟨?_, rfl, by simp [Piece.tokens, Quotable]⟩
    rw [rest, point] at whole
    simp [Piece.chars, Lexer.spell, whole]

mutual

theorem render_lays : (ty : TypeExpr) → Lays ty.render (Canonical.type .spare ty) (type ty)
  | .named n => typeName_lays n
  | .generic n arg => by
    have outer := typeName_lays n
    have inner := render_lays arg
    rw [TypeExpr.render, Canonical.type, type]
    refine ⟨?_, ?_, ?_⟩
    · simp [outer.chars, inner.chars, Piece.chars, Lexer.spell, Symbol.text]
    · simp [outer.kinds, inner.kinds, Piece.tokens]
    · simp [outer.quotable, inner.quotable, Piece.tokens, Quotable]
  | .chan true elem => by
    have inner := render_lays elem
    rw [TypeExpr.render, Canonical.type, type]
    refine ⟨?_, ?_, ?_⟩
    · simp [inner.chars, Piece.chars, Lexer.spell, Symbol.text, Keyword.text]
    · simp [inner.kinds, Piece.tokens]
    · simp [inner.quotable, Piece.tokens, Quotable]
  | .chan false elem => by
    have inner := render_lays elem
    rw [TypeExpr.render, Canonical.type, type]
    refine ⟨?_, ?_, ?_⟩
    · simp [inner.chars, Piece.chars, Lexer.spell, Keyword.text]
    · simp [inner.kinds, Piece.tokens]
    · simp [inner.quotable, Piece.tokens, Quotable]
  | .slice elem => by
    have inner := render_lays elem
    rw [TypeExpr.render, Canonical.type, type]
    refine ⟨?_, ?_, ?_⟩
    · simp [inner.chars, Piece.chars, Lexer.spell, Symbol.text]
    · simp [inner.kinds, Piece.tokens]
    · simp [inner.quotable, Piece.tokens, Quotable]
  | .pointer elem => by
    have inner := render_lays elem
    rw [TypeExpr.render, Canonical.type, type]
    refine ⟨?_, ?_, ?_⟩
    · simp [inner.chars, Piece.chars, Lexer.spell, Symbol.text]
    · simp [inner.kinds, Piece.tokens]
    · simp [inner.quotable, Piece.tokens, Quotable]
  | .func ps rs => by
    have params := (renderEach_lay ps).separated
    have suffix := (renderEach_lay rs).results
    rw [TypeExpr.render, Canonical.type, type]
    refine ⟨?_, ?_, ?_⟩
    · simp [params.chars, suffix.chars, Piece.chars, Lexer.spell, Symbol.text, Keyword.text]
    · simp [params.kinds, suffix.kinds, Piece.tokens]
    · simp [params.quotable, suffix.quotable, Piece.tokens, Quotable]

theorem renderEach_lay :
    (ts : List TypeExpr) → LayEach (TypeExpr.renderEach ts) (Canonical.types .spare ts) (types ts)
  | [] => .nil
  | t :: ts => .cons (render_lays t) (renderEach_lay ts)

end

mutual

theorem qualified_eq (runtime : String) : (ty : TypeExpr) → "Node" ∉ bareNames ty → ty.qualified runtime = ty
  | .named n, foreign => by
    rw [bareNames, List.mem_singleton, eq_comm] at foreign
    rw [TypeExpr.qualified, if_neg foreign]
  | .generic _ arg, foreign => by rw [TypeExpr.qualified, qualified_eq runtime arg foreign]
  | .chan _ elem, foreign => by rw [TypeExpr.qualified, qualified_eq runtime elem foreign]
  | .slice elem, foreign => by rw [TypeExpr.qualified, qualified_eq runtime elem foreign]
  | .pointer elem, foreign => by rw [TypeExpr.qualified, qualified_eq runtime elem foreign]
  | .func ps rs, foreign => by
    rw [bareNames, List.mem_append, not_or] at foreign
    rw [TypeExpr.qualified, qualifiedEach_eq runtime ps foreign.1, qualifiedEach_eq runtime rs foreign.2]

theorem qualifiedEach_eq (runtime : String) :
    (ts : List TypeExpr) → "Node" ∉ bareNamesEach ts → TypeExpr.qualifiedEach runtime ts = ts
  | [], _ => rfl
  | t :: ts, foreign => by
    rw [bareNamesEach, List.mem_append, not_or] at foreign
    rw [TypeExpr.qualifiedEach, qualified_eq runtime t foreign.1, qualifiedEach_eq runtime ts foreign.2]

end

theorem type_lays (runtime : String) (ty : TypeExpr) (foreign : "Node" ∉ bareNames ty) :
    Lays (Go.type runtime ty).1 (Canonical.type .spare ty) (type ty) := by
  rw [type_text, qualified_eq runtime ty foreign]
  exact render_lays ty

abbrev AllPlain (whole : Phrase) : Prop := whole.Throughout Plain

theorem AllPlain.child {whole part : Phrase} (plain : AllPlain whole) (child : part ∈ whole.children) : AllPlain part :=
  (Phrase.throughout_iff.mp plain).2 part child

theorem AllPlain.operand {p : Primary} (plain : AllPlain (.operand p)) : PlainOperand p := plain _ .refl

section

variable (runtime : String) (u : SourceUnit) (locals : Locals) (level : Nat)

theorem name_eq (n : String) : Lexical.name (plainEnv runtime u) locals n = n := by
  unfold Lexical.name Lexical.field?
  split <;> rfl

theorem receive_eq (n : String) : Lexical.receive (plainEnv runtime u) locals n = "<-" ++ n := by
  unfold Lexical.receive Lexical.latest?
  split
  · rename_i found
    split at found <;> cases found
  · rw [name_eq]

theorem path_lays {text : String} {ts : Tokens} {ps : List Piece} (lays : Lays text ts ps) (path : List Name) :
    Lays (Lexical.path text path) (ts ++ Canonical.path path) (ps ++ fields path) := by
  induction path generalizing text ts ps with
  | nil => simpa [Lexical.path, Canonical.path, fields] using lays
  | cons f path ih =>
    have longer : Lays (text ++ "." ++ f.value) (ts ++ [Canonical.sym .dot, Canonical.name f])
        (ps ++ [.field f.value]) := by
      refine ⟨?_, ?_, ?_⟩
      · simp [lays.chars, Piece.chars]
      · simp [lays.kinds, Piece.tokens]
      · simp [lays.quotable, Piece.tokens, Quotable]
    have whole := ih longer
    simpa [Canonical.path, fields, Lexical.path] using whole

mutual

/-- Generated for a plain expression with no state around it are the pieces of the expression. -/
theorem expr_lays : (e : Expr) → AllPlain (.expr e) →
    Lays (Lexical.expr (plainEnv runtime u) locals level e) (Canonical.expr .spare e) (expr e)
  | ⟨head, tail, s⟩, plain => by
    obtain ⟨-, plainHead, plainTail⟩ := Phrase.throughout_expr.mp plain
    have first := primary_lays head plainHead
    have more := links_lay tail fun l member => (plainTail l member).2
    rw [Lexical.expr, Canonical.expr, expr]
    refine ⟨?_, ?_, ?_⟩
    · simp [first.chars, more.chars]
    · simp [first.kinds, more.kinds]
    · simp [first.quotable, more.quotable]

theorem links_lay : (ls : List Link) → (∀ l ∈ ls, AllPlain (.operand l.operand)) →
    Lays (Lexical.links (plainEnv runtime u) locals level ls) (Canonical.links .spare ls) (links ls)
  | [], _ => ⟨rfl, rfl, allQuotable_nil⟩
  | ⟨op, operand⟩ :: ls, plain => by
    obtain ⟨here, later⟩ := List.forall_mem_cons.mp plain
    have first := primary_lays operand here
    have more := links_lay ls later
    have operator : op.value.text = op.value.symbol.text := by cases op.value <;> rfl
    rw [Lexical.links, Canonical.links, links]
    refine ⟨?_, ?_, ?_⟩
    · simp [first.chars, more.chars, operator, Piece.chars, Lexer.spell]
    · simp [first.kinds, more.kinds, Piece.tokens]
    · simp [first.quotable, more.quotable, Piece.tokens, Quotable]

theorem exprs_lay : (es : List Expr) → (∀ e ∈ es, AllPlain (.expr e)) →
    LayEach (Lexical.exprs (plainEnv runtime u) locals level es) (Canonical.exprs .spare es) (exprs es)
  | [], _ => .nil
  | e :: es, plain => by
    obtain ⟨here, later⟩ := List.forall_mem_cons.mp plain
    exact .cons (expr_lays e here) (exprs_lay es later)

theorem optional_lays : (o : Option Expr) → (∀ e ∈ o, AllPlain (.expr e)) →
    Lays (Lexical.optional (plainEnv runtime u) locals level o) (Canonical.optional .spare o) (optional o)
  | none, _ => ⟨rfl, rfl, allQuotable_nil⟩
  | some e, plain => expr_lays e (plain e rfl)

theorem entries_lay : (es : List Entry) → (∀ e ∈ es, AllPlain (.expr e.value)) →
    LayEach (Lexical.entries (plainEnv runtime u) locals level es) (Canonical.entries .spare es) (entries es)
  | [], _ => .nil
  | ⟨none, value⟩ :: es, plain => by
    obtain ⟨here, later⟩ := List.forall_mem_cons.mp plain
    exact .cons (expr_lays value here) (entries_lay es later)
  | ⟨some key, value⟩ :: es, plain => by
    obtain ⟨here, later⟩ := List.forall_mem_cons.mp plain
    have inner := expr_lays value here
    refine .cons ⟨?_, ?_, ?_⟩ (entries_lay es later)
    · simp [inner.chars, Piece.chars, Lexer.spell, Symbol.text]
    · simp [inner.kinds, Piece.tokens]
    · simp [inner.quotable, Piece.tokens, Quotable]

theorem primary_lays : (p : Primary) → AllPlain (.operand p) →
    Lays (Lexical.primary (plainEnv runtime u) locals level p) (Canonical.primary .spare p) (primary p)
  | .int text, _ =>
    ⟨by simp [Lexical.primary, primary, Piece.chars, Lexer.spell], rfl, by simp [primary, Piece.tokens, Quotable]⟩
  | .float text, _ =>
    ⟨by simp [Lexical.primary, primary, Piece.chars, Lexer.spell], rfl, by simp [primary, Piece.tokens, Quotable]⟩
  | .string text, plain => by
    have plainText : PlainText text.value := plain.operand
    exact ⟨by simp [Lexical.primary, primary, Piece.chars], rfl, by simp [primary, Piece.tokens, Quotable, plainText]⟩
  | .template t, plain => absurd plain.operand id
  | .composite ty es s, plain => by
    have named : Lays (Lexical.type (plainEnv runtime u) ty.value) _ _ := type_lays runtime ty.value plain.operand
    have inside := (entries_lay es fun e member => plain.child (List.mem_map.mpr ⟨e, member, rfl⟩)).separated
    rw [Lexical.primary, Canonical.primary, primary]
    refine ⟨?_, ?_, ?_⟩
    · simp [named.chars, inside.chars, Piece.chars, Lexer.spell, Symbol.text]
    · simp [named.kinds, inside.kinds, Piece.tokens]
    · simp [named.quotable, inside.quotable, Piece.tokens, Quotable]
  | .make ty args s, plain => by
    have named : Lays (Lexical.type (plainEnv runtime u) ty.value) _ _ := type_lays runtime ty.value plain.operand
    have inside :=
      (LayEach.cons named (exprs_lay args fun e member => plain.child (List.mem_map_of_mem member))).separated
    rw [Lexical.primary, Canonical.primary, primary, ← List.append_assoc]
    refine ⟨?_, ?_, ?_⟩
    · simp [inside.chars, Piece.chars, Lexer.spell, Symbol.text, Keyword.text]
    · rw [List.map_cons, List.map_cons, List.map_append]
      simp [← inside.kinds, Canonical.commaSep, Piece.tokens]
    · simp [inside.quotable, Piece.tokens, Quotable]
  | .index target i s, plain => by
    have before := primary_lays target (plain.child List.mem_cons_self)
    have inside := expr_lays i (plain.child (List.mem_cons_of_mem _ List.mem_cons_self))
    rw [Lexical.primary, Canonical.primary, primary]
    refine ⟨?_, ?_, ?_⟩
    · simp [before.chars, inside.chars, Piece.chars, Lexer.spell, Symbol.text]
    · simp [before.kinds, inside.kinds, Piece.tokens]
    · simp [before.quotable, inside.quotable, Piece.tokens, Quotable]
  | .slice target low high s, plain => by
    obtain ⟨-, plainTarget, plainLow, plainHigh⟩ := Phrase.throughout_slice.mp plain
    have before := primary_lays target plainTarget
    have first := optional_lays low plainLow
    have second := optional_lays high plainHigh
    rw [Lexical.primary, Canonical.primary, primary]
    refine ⟨?_, ?_, ?_⟩
    · simp [before.chars, first.chars, second.chars, Piece.chars, Lexer.spell, Symbol.text]
    · simp [before.kinds, first.kinds, second.kinds, Piece.tokens]
    · simp [before.quotable, first.quotable, second.quotable, Piece.tokens, Quotable]
  | .select b path s, plain => by
    have before := base_lays b fun part member => plain.child member
    rw [Lexical.primary, Canonical.primary, primary]
    exact path_lays before path
  | .call b path args s, plain => by
    have before := path_lays (base_lays b fun part member => plain.child (List.mem_append_left _ member)) path
    have inside := (exprs_lay args fun e member => plain.child
      (List.mem_append_right _ (List.mem_map_of_mem member))).separated
    rw [Lexical.primary, Canonical.primary, primary, ← List.append_assoc, ← List.append_assoc]
    refine ⟨?_, ?_, ?_⟩
    · rw [String.toList_append, String.toList_append, String.toList_append, before.chars, inside.chars]
      simp [Piece.chars, Lexer.spell, Symbol.text]
    · rw [List.map_append, before.kinds]
      simp [inside.kinds, Piece.tokens]
    · rw [allQuotable_append]
      exact ⟨before.quotable, by simp [inside.quotable, Piece.tokens, Quotable]⟩
  | .func .., plain => absurd plain.operand id
  | .receive channel s, _ => by
    rw [Lexical.primary, Canonical.primary, primary, receive_eq]
    refine ⟨?_, rfl, by simp [Piece.tokens, Quotable]⟩
    simp [Piece.chars, Lexer.spell, Symbol.text]
  | .unary op operand s, plain => by
    have inner := primary_lays operand (plain.child List.mem_cons_self)
    have operator : op.text = op.symbol.text := by cases op <;> rfl
    rw [Lexical.primary, Canonical.primary, primary]
    refine ⟨?_, ?_, ?_⟩
    · simp [inner.chars, operator, Piece.chars, Lexer.spell]
    · simp [inner.kinds, Piece.tokens]
    · simp [inner.quotable, Piece.tokens, Quotable]
  | .paren inner, plain => by
    have inside := expr_lays inner (plain.child List.mem_cons_self)
    rw [Lexical.primary, Canonical.primary, primary]
    refine ⟨?_, ?_, ?_⟩
    · simp [inside.chars, Piece.chars, Lexer.spell, Symbol.text]
    · simp [inside.kinds, Piece.tokens]
    · simp [inside.quotable, Piece.tokens, Quotable]

theorem base_lays : (b : Base) → (∀ part ∈ b.phrases, AllPlain part) →
    Lays (Lexical.base (plainEnv runtime u) locals level b) (Canonical.base .spare b) (base b)
  | .name n, _ => by
    rw [Lexical.base, Canonical.base, base, name_eq]
    exact ⟨by simp [Piece.chars, Lexer.spell], rfl, by simp [Piece.tokens, Quotable]⟩
  | .operand p, plain => by
    rw [Lexical.base, Canonical.base, base]
    exact primary_lays p (plain _ List.mem_cons_self)

end

end

end ViewLang.Go.Layout
