import ViewLang.Proofs.Go.Joints
import ViewLang.Proofs.Grammar.Agreement
import ViewLang.Proofs.Syntax.Words

namespace ViewLang

theorem Lexer.legal_of_checked {n : String} (checked : (n.toList.head?.any Lexer.isIdentStart &&
    n.toList.all Lexer.isIdentChar && Keyword.all.all (·.text != n)) = true) : Lexer.Legal (.ident n) := by
  simp only [Bool.and_eq_true, Option.any_eq_true, List.all_eq_true, bne_iff_ne] at checked
  obtain ⟨⟨⟨c, first, starts⟩, inside⟩, other⟩ := checked
  exact ⟨⟨c, first, starts⟩, inside, fun k => other k (by cases k <;> decide)⟩

/-- A name that a type can have: an identifier, or two with a point between them. -/
inductive TypeName : String → Prop
  | plain {n : String} (legal : Lexer.Legal (.ident n)) : TypeName n
  | member {n m : String} (legal : Lexer.Legal (.ident n)) (field : Lexer.Legal (.ident m)) : TypeName (n ++ "." ++ m)

namespace Go.Layout

open Grammar (kinds)

variable {P : Token → Prop}

theorem forall_commaSep (symbol : ∀ s, P (.symbol s)) {pss : List (List Piece)} :
    (∀ u ∈ tokens (commaSep pss), P u) ↔ ∀ ps ∈ pss, ∀ u ∈ tokens ps, P u := by
  induction pss with
  | nil => simp [commaSep]
  | cons ps pss ih =>
    cases pss with
    | nil => simp [commaSep]
    | cons qs more =>
      rw [commaSep, tokens_append, List.forall_mem_append, List.forall_mem_cons, ← ih]
      simp [Piece.tokens, symbol]

theorem forall_results (symbol : ∀ s, P (.symbol s)) {pss : List (List Piece)} :
    (∀ u ∈ tokens (results pss), P u) ↔ ∀ ps ∈ pss, ∀ u ∈ tokens ps, P u := by
  rcases pss with _ | ⟨ps, _ | ⟨qs, more⟩⟩
  · simp [results]
  · simp [results, Piece.tokens]
  · rw [← forall_commaSep symbol]
    simp [results, Piece.tokens, symbol, or_imp, forall_and]

mutual

/-- Apart from symbols and keywords, the tokens of a type are those of its names. -/
theorem forall_type (symbol : ∀ s, P (.symbol s)) (keyword : ∀ k, P (.keyword k)) : (t : TypeExpr) →
    ((∀ u ∈ tokens (type t), P u) ↔ ∀ n ∈ t.names, ∀ u ∈ tokens (typeName n), P u)
  | .named n => by simp [type, TypeExpr.names]
  | .generic n arg => by
    have inner := forall_type symbol keyword arg
    rw [type, tokens_append, List.forall_mem_append, TypeExpr.names, List.forall_mem_cons, ← inner]
    simp [Piece.tokens, symbol, or_imp, forall_and]
  | .chan true elem => by
    rw [type, TypeExpr.names, ← forall_type symbol keyword elem]
    simp [Piece.tokens, symbol, keyword]
  | .chan false elem => by
    rw [type, TypeExpr.names, ← forall_type symbol keyword elem]
    simp [Piece.tokens, keyword]
  | .slice elem => by
    rw [type, TypeExpr.names, ← forall_type symbol keyword elem]
    simp [Piece.tokens, symbol]
  | .pointer elem => by
    rw [type, TypeExpr.names, ← forall_type symbol keyword elem]
    simp [Piece.tokens, symbol]
  | .func ps rs => by
    rw [type, TypeExpr.names, List.forall_mem_append, ← forall_types symbol keyword ps,
      ← forall_types symbol keyword rs, ← forall_commaSep symbol, ← forall_results symbol]
    simp [Piece.tokens, symbol, keyword, or_imp, forall_and]

theorem forall_types (symbol : ∀ s, P (.symbol s)) (keyword : ∀ k, P (.keyword k)) : (ts : List TypeExpr) →
    ((∀ ps ∈ types ts, ∀ u ∈ tokens ps, P u) ↔ ∀ n ∈ TypeExpr.namesEach ts, ∀ u ∈ tokens (typeName n), P u)
  | [] => by simp [types, TypeExpr.namesEach]
  | t :: ts => by
    rw [types, List.forall_mem_cons, forall_type symbol keyword t, forall_types symbol keyword ts, TypeExpr.namesEach,
      List.forall_mem_append]

end

theorem typeName_tokens (n : String) : tokens (typeName n) = kinds (Canonical.typeName .spare n) :=
  (typeName_lays n).kinds.symm

theorem not_mem_of_legal {n : String} (legal : Lexer.Legal (.ident n)) : '.' ∉ n.toList := by
  intro point
  have inWord := legal.2.1 '.' point
  cases inWord

theorem typeName_readable {n : String} (named : TypeName n) : AllReadable (typeName n) := by
  rw [AllReadable, typeName_tokens]
  cases named with
  | plain legal =>
    rw [Grammar.typeName_single (not_mem_of_legal legal)]
    simpa [kinds, Readable, Quotable] using legal
  | member legal field =>
    rw [Grammar.typeName_joined (not_mem_of_legal legal)]
    simpa [kinds, Readable, Quotable] using ⟨legal, trivial, field⟩

theorem type_readable {t : TypeExpr} (named : ∀ n ∈ t.names, TypeName n) : AllReadable (type t) :=
  (forall_type (fun _ => ⟨trivial, trivial⟩) (fun _ => ⟨trivial, trivial⟩) t).mpr fun n member =>
    typeName_readable (named n member)

theorem render_tokenizes {t : TypeExpr} (readable : AllReadable (type t)) :
    ∃ ts, tokenize t.render = .ok ts ∧ kinds ts = kinds (Canonical.type .spare t) := by
  have lays := render_lays t
  obtain ⟨ts, lexed, same⟩ := tokenize_joined (type_joined t readable) readable
  refine ⟨ts, ?_, same.trans lays.kinds.symm⟩
  rw [← lexed, ← lays.chars, String.ofList_toList]

end Go.Layout

open Go.Layout in
/-- A type whose names can be read is read back from its text, and nothing is left of it. -/
theorem type_reread (t : TypeExpr) (named : ∀ n ∈ t.names, TypeName n) :
    ∃ ts s, tokenize t.render = .ok ts ∧ Grammar.type ts = .ok (⟨t, s⟩, []) := by
  obtain ⟨ts, lexed, same⟩ := render_tokenizes (type_readable named)
  have read := Grammar.type_reads .spare t [] rfl
  rw [List.append_nil] at read
  obtain ⟨⟨t', s⟩, rest, read', alike, left⟩ := Grammar.agree_type _ ts same.symm _ _ read
  obtain rfl : rest = [] := List.map_eq_nil_iff.mp left.symm
  obtain rfl : t' = t := (congrArg Located.value alike).symm
  exact ⟨ts, s, lexed, read'⟩

/-- A function of a channel of channels and of a list of functions. -/
def nestedType : TypeExpr :=
  .func [.chan false (.chan true (.pointer (.slice (.named "geo.Point")))),
    .generic "List" (.func [] [.func [.named "int"] []])] [.named "int", .chan true (.func [] [])]

theorem type_reread_nested : nestedType.render =
    "func(chan <-chan *[]geo.Point, List[func() func(int)]) (int, <-chan func())" ∧
      (∀ n ∈ nestedType.names, TypeName n) ∧
      ∃ ts s, tokenize nestedType.render = .ok ts ∧ Grammar.type ts = .ok (⟨nestedType, s⟩, []) := by
  have geo : Lexer.Legal (.ident "geo") := Lexer.legal_of_checked rfl
  have point : Lexer.Legal (.ident "Point") := Lexer.legal_of_checked rfl
  have list : Lexer.Legal (.ident "List") := Lexer.legal_of_checked rfl
  have int : Lexer.Legal (.ident "int") := Lexer.legal_of_checked rfl
  have named : ∀ n ∈ nestedType.names, TypeName n := by
    simp only [nestedType, TypeExpr.names, TypeExpr.namesEach, List.append_nil, List.nil_append, List.cons_append,
      List.forall_mem_cons]
    exact ⟨.member geo point, .plain list, .plain int, .plain int, List.forall_mem_nil _⟩
  exact ⟨by decide +kernel, named, type_reread nestedType named⟩

end ViewLang
