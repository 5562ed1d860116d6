import ViewLang.Proofs.Go.Joints

namespace ViewLang.Go.Layout

open Grammar (AllFlat)

def Joint (R : Piece → Piece → Prop) : Primary → Prop
  | .unary op operand _ => ∀ q ∈ (primary operand).head?, R (sym op.symbol) q
  | .select b path _ => ∀ p ∈ (base b).getLast?, ∀ f ∈ path.head?, R p (.field f.value)
  | .call b path _ _ => ∀ p ∈ (base b).getLast?, ∀ f ∈ path.head?, R p (.field f.value)
  | _ => True

def OnOperands (S : Primary → Prop) : Phrase → Prop
  | .operand p => S p
  | _ => True

abbrev Everywhere (S : Primary → Prop) (whole : Phrase) : Prop := whole.Throughout (OnOperands S)

theorem everywhere_operand {S : Primary → Prop} {p : Primary} :
    Everywhere S (.operand p) ↔ S p ∧ ∀ part ∈ p.phrases, Everywhere S part := Phrase.throughout_iff

theorem everywhere_expr {S : Primary → Prop} {e : Expr} :
    Everywhere S (.expr e) ↔ Everywhere S (.operand e.head) ∧ ∀ l ∈ e.tail, Everywhere S (.operand l.operand) := by
  rw [Everywhere, Phrase.throughout_expr]
  simp [OnOperands, Phrase.throughout_operator]

theorem path_ends {ps : List Piece} {point : Bool} (ends : Ends point ps) (path : List Name) :
    ∃ point, Ends point (ps ++ fields path) := by
  cases path with
  | nil => exact ⟨point, (List.append_nil ps).symm ▸ ends⟩
  | cons f path => exact ⟨false, (fields_ends f path).behind ps⟩

section

variable {R : Piece → Piece → Prop} (joined : ∀ p q, p.Joins q → R p q)

include joined

theorem path_chain {ps : List Piece} (path : List Name) :
    (ps ++ fields path).IsChain R ↔
      ps.IsChain R ∧ ∀ p ∈ ps.getLast?, ∀ f ∈ path.head?, R p (.field f.value) := by
  have alone : (fields path).IsChain R := by
    induction path with
    | nil => exact .nil
    | cons f path ih =>
      refine List.isChain_cons.mpr ⟨?_, ih⟩
      intro q head
      cases path with
      | nil => cases head
      | cons g path =>
        cases head
        refine joined _ _ ?_
        rintro rest _ ⟨⟩
        rfl
  rw [List.isChain_append]
  refine and_congr_right fun _ => ?_
  rw [and_iff_right alone]
  cases path with
  | nil => simp [fields]
  | cons f path => simp [fields]

theorem optional_chain {o : Option Expr} (flat : ∀ e ∈ o, AllFlat (.expr e)) (readable : AllReadable (optional o))
    {p d : Piece} (admits : Admits p) (empty : p.Joins d) (delimits : Delimits d) (qs : List Piece) :
    (p :: (optional o ++ d :: qs)).IsChain R ↔ (∀ e ∈ o, (expr e).IsChain R) ∧ (d :: qs).IsChain R := by
  cases o with
  | none => simp [optional, List.isChain_cons_cons, joined _ _ empty]
  | some e =>
    rw [optional, (expr_edged (flat e rfl) readable).enclosed joined admits delimits]
    simp

end

structure Judges (R : Piece → Piece → Prop) (S : Primary → Prop) : Prop where
  joined : ∀ p q, p.Joins q → R p q
  joint : ∀ p, AllFlat (.operand p) → AllReadable (primary p) → (Joint R p ↔ S p)

section

variable {R : Piece → Piece → Prop} {S : Primary → Prop}

mutual

/-- An expression is written in related pieces exactly if its operands are right throughout. -/
theorem expr_chain (judges : Judges R S) : (e : Expr) → AllFlat (.expr e) → AllReadable (expr e) →
    ((expr e).IsChain R ↔ Everywhere S (.expr e))
  | ⟨head, tail, s⟩, flat, readable => by
    obtain ⟨-, flatHead, flatTail⟩ := Phrase.throughout_expr.mp flat
    rw [expr, allReadable_append] at readable
    have first := primary_chain judges head flatHead readable.1
    have more := links_chain judges tail (fun l member => (flatTail l member).2) readable.2 (primary_ends head flatHead)
    rw [expr, more, first, everywhere_expr]

theorem links_chain (judges : Judges R S) : (ls : List Link) → (∀ l ∈ ls, AllFlat (.operand l.operand)) →
    AllReadable (links ls) → {ps : List Piece} → {point : Bool} → Ends point ps →
      ((ps ++ links ls).IsChain R ↔ ps.IsChain R ∧ ∀ l ∈ ls, Everywhere S (.operand l.operand))
  | [], _, _, ps, _, _ => by simp [links]
  | ⟨op, operand⟩ :: ls, flat, readable, ps, _, ends => by
    obtain ⟨here, later⟩ := List.forall_mem_cons.mp flat
    rw [links, allReadable_cons, allReadable_cons, allReadable_cons, allReadable_append] at readable
    obtain ⟨-, -, -, inner, rest⟩ := readable
    have starts := (primary_starts operand here inner).append (links ls)
    rw [links, ends.before judges.joined (.inl rfl), List.isChain_cons_cons, List.isChain_cons_cons,
      starts.behind judges.joined admits_blank, links_chain judges ls later rest (primary_ends operand here),
      primary_chain judges operand here inner, List.forall_mem_cons]
    simp [judges.joined _ _ (sym_joins_blank _), judges.joined _ _ (blank_joins_sym _)]

theorem exprs_chain (judges : Judges R S) : (es : List Expr) → (∀ e ∈ es, AllFlat (.expr e)) →
    (∀ ps ∈ exprs es, AllReadable ps) → ((∀ ps ∈ exprs es, ps.IsChain R) ↔ ∀ e ∈ es, Everywhere S (.expr e))
  | [], _, _ => by simp [exprs]
  | e :: es, flat, readable => by
    obtain ⟨flatHere, flatLater⟩ := List.forall_mem_cons.mp flat
    obtain ⟨here, later⟩ := List.forall_mem_cons.mp readable
    rw [exprs, List.forall_mem_cons, List.forall_mem_cons, expr_chain judges e flatHere here,
      exprs_chain judges es flatLater later]

theorem entries_chain (judges : Judges R S) : (es : List Entry) → (∀ e ∈ es, AllFlat (.expr e.value)) →
    (∀ ps ∈ entries es, AllReadable ps) →
      ((∀ ps ∈ entries es, ps.IsChain R) ↔ ∀ e ∈ es, Everywhere S (.expr e.value))
  | [], _, _ => by simp [entries]
  | ⟨none, value⟩ :: es, flat, readable => by
    obtain ⟨flatHere, flatLater⟩ := List.forall_mem_cons.mp flat
    obtain ⟨here, later⟩ := List.forall_mem_cons.mp readable
    rw [entries, List.forall_mem_cons, List.forall_mem_cons, expr_chain judges value flatHere here,
      entries_chain judges es flatLater later]
  | ⟨some key, value⟩ :: es, flat, readable => by
    obtain ⟨flatHere, flatLater⟩ := List.forall_mem_cons.mp flat
    obtain ⟨here, later⟩ := List.forall_mem_cons.mp readable
    have inner := (allReadable_cons.mp (allReadable_cons.mp (allReadable_cons.mp here).2).2).2
    obtain ⟨⟨sign, starts⟩, -⟩ := expr_edged flatHere inner
    have colon : (name key).Joins (sym .colon) := Closes.joins trivial (.inr ⟨_, by decide, rfl⟩)
    rw [entries, List.forall_mem_cons, List.forall_mem_cons, List.isChain_cons_cons, List.isChain_cons_cons,
      starts.behind judges.joined admits_blank, expr_chain judges value flatHere inner,
      entries_chain judges es flatLater later]
    simp [judges.joined _ _ colon, judges.joined _ _ (sym_joins_blank _)]

theorem optional_everywhere (judges : Judges R S) : (o : Option Expr) → (∀ e ∈ o, AllFlat (.expr e)) →
    AllReadable (optional o) → ((∀ e ∈ o, (expr e).IsChain R) ↔ ∀ e ∈ o, Everywhere S (.expr e))
  | none, _, _ => by simp
  | some e, flat, readable => by simpa using expr_chain judges e (flat e rfl) readable

theorem primary_chain (judges : Judges R S) : (p : Primary) → AllFlat (.operand p) → AllReadable (primary p) →
    ((primary p).IsChain R ↔ Everywhere S (.operand p))
  | .int text, flat, readable => by
    rw [everywhere_operand, ← judges.joint _ flat readable]
    simp [primary, Joint, Primary.phrases]
  | .float text, flat, readable => by
    rw [everywhere_operand, ← judges.joint _ flat readable]
    simp [primary, Joint, Primary.phrases]
  | .string text, flat, readable => by
    rw [everywhere_operand, ← judges.joint _ flat readable]
    simp [primary, Joint, Primary.phrases]
  | .template _, flat, _ => absurd (flat _ .refl) id
  | .composite ty es s, flat, readable => by
    rw [everywhere_operand, ← judges.joint _ flat readable]
    rw [primary, allReadable_append, allReadable_cons, allReadable_append] at readable
    have inside := allReadable_commaSep readable.2.2.1
    have flatEach : ∀ e ∈ es, AllFlat (.expr e.value) := fun e member =>
      flat.child (List.mem_map.mpr ⟨e, member, rfl⟩)
    have braces : (sym .leftBrace).Joins (sym .rightBrace) := by
      rintro rest _ ⟨⟩
      rfl
    rw [primary, (type_ends ty.value).before judges.joined (.inr ⟨_, by decide, rfl⟩),
      listed_chain judges.joined (entries_edged flatEach inside) (admits_sym (by decide)) braces (by decide),
      entries_chain judges es flatEach inside]
    simp [Joint, Primary.phrases, (type_joined ty.value readable.1).imp judges.joined]
  | .make ty args s, flat, readable => by
    rw [everywhere_operand, ← judges.joint _ flat readable]
    rw [primary, allReadable_cons, allReadable_cons, allReadable_append] at readable
    obtain ⟨typed, inside⟩ := List.forall_mem_cons.mp (allReadable_commaSep readable.2.2.1)
    have flatEach : ∀ e ∈ args, AllFlat (.expr e) := fun e member => flat.child (List.mem_map_of_mem member)
    have edged := List.forall_mem_cons.mpr ⟨type_edged typed, exprs_edged flatEach inside⟩
    have paren : (word .make).Joins (sym .leftParen) := Closes.joins trivial (.inr ⟨_, by decide, rfl⟩)
    rw [primary, List.isChain_cons_cons,
      listed_chain judges.joined edged (admits_sym (by decide)) parens_join (by decide), List.forall_mem_cons,
      exprs_chain judges args flatEach inside]
    simp [Joint, Primary.phrases, judges.joined _ _ paren, (type_joined ty.value typed).imp judges.joined]
  | .index target i s, flat, readable => by
    rw [everywhere_operand, ← judges.joint _ flat readable]
    rw [primary, allReadable_append, allReadable_cons, allReadable_append] at readable
    have flatTarget : AllFlat (.operand target) := flat.child List.mem_cons_self
    have flatIndex : AllFlat (.expr i) := flat.child (List.mem_cons_of_mem _ List.mem_cons_self)
    rw [primary, (primary_ends target flatTarget).before judges.joined (.inr ⟨_, by decide, rfl⟩),
      (expr_edged flatIndex readable.2.2.1).enclosed judges.joined (admits_sym (by decide)) (.inr ⟨_, by decide, rfl⟩),
      primary_chain judges target flatTarget readable.1, expr_chain judges i flatIndex readable.2.2.1]
    simp [Joint, Primary.phrases]
  | .slice target low high s, flat, readable => by
    rw [everywhere_operand, ← judges.joint _ flat readable]
    rw [primary, allReadable_append, allReadable_cons, allReadable_append, allReadable_cons, allReadable_append]
      at readable
    obtain ⟨before, -, first, -, second, -⟩ := readable
    obtain ⟨-, flatTarget, flatLow, flatHigh⟩ := Phrase.throughout_slice.mp flat
    have colon : (sym .leftBracket).Joins (sym .colon) := by
      rintro rest _ ⟨⟩
      rfl
    have close : (sym .colon).Joins (sym .rightBracket) := by
      rintro rest _ ⟨⟩
      rfl
    rw [primary, (primary_ends target flatTarget).before judges.joined (.inr ⟨_, by decide, rfl⟩),
      optional_chain judges.joined flatLow first (admits_sym (by decide)) colon (.inr ⟨_, by decide, rfl⟩),
      optional_chain judges.joined flatHigh second (admits_sym (by decide)) close (.inr ⟨_, by decide, rfl⟩),
      primary_chain judges target flatTarget before, optional_everywhere judges low flatLow first,
      optional_everywhere judges high flatHigh second]
    simp [Joint, Primary.phrases, or_imp, forall_and]
  | .select b path s, flat, readable => by
    rw [everywhere_operand, ← judges.joint _ flat readable]
    have flatBase : ∀ part ∈ b.phrases, AllFlat part := fun _ child => flat.child child
    rw [primary, path_chain judges.joined, base_chain judges b flatBase (allReadable_append.mp readable).1, and_comm]
    rfl
  | .call b path args s, flat, readable => by
    rw [everywhere_operand, ← judges.joint _ flat readable]
    rw [primary, allReadable_append, allReadable_append, allReadable_cons, allReadable_append] at readable
    obtain ⟨before, -, -, listed, -⟩ := readable
    have inside := allReadable_commaSep listed
    have flatBase : ∀ part ∈ b.phrases, AllFlat part := fun _ child => flat.child (List.mem_append_left _ child)
    have flatEach : ∀ e ∈ args, AllFlat (.expr e) := fun e member =>
      flat.child (List.mem_append_right _ (List.mem_map_of_mem member))
    obtain ⟨point, ends⟩ := path_ends (base_ends b flatBase) path
    rw [primary, ← List.append_assoc, ends.before judges.joined (.inr ⟨_, by decide, rfl⟩),
      listed_chain judges.joined (exprs_edged flatEach inside) (admits_sym (by decide)) parens_join (by decide),
      path_chain judges.joined, base_chain judges b flatBase before, exprs_chain judges args flatEach inside]
    rw [Primary.phrases, List.forall_mem_append, List.forall_mem_map, and_assoc, and_left_comm]
    simp [Joint]
  | .func .., flat, _ => absurd (flat _ .refl) id
  | .receive channel s, flat, readable => by
    rw [everywhere_operand, ← judges.joint _ flat readable]
    have arrow : (sym .arrow).Joins (name channel) := fun _ _ _ => rfl
    simp [primary, Joint, Primary.phrases, judges.joined _ _ arrow]
  | .unary op operand s, flat, readable => by
    rw [everywhere_operand, ← judges.joint _ flat readable]
    have flatOperand : AllFlat (.operand operand) := flat.child List.mem_cons_self
    rw [primary, List.isChain_cons, primary_chain judges operand flatOperand (allReadable_cons.mp readable).2]
    simp [Joint, Primary.phrases]
  | .paren inner, flat, readable => by
    rw [everywhere_operand, ← judges.joint _ flat readable]
    rw [primary, allReadable_cons, allReadable_append] at readable
    have flatInner : AllFlat (.expr inner) := flat.child List.mem_cons_self
    rw [primary, (expr_edged flatInner readable.2.1).enclosed judges.joined (admits_sym (by decide))
      (.inr ⟨_, by decide, rfl⟩), expr_chain judges inner flatInner readable.2.1]
    simp [Joint, Primary.phrases]

theorem base_chain (judges : Judges R S) : (b : Base) → (∀ part ∈ b.phrases, AllFlat part) → AllReadable (base b) →
    ((base b).IsChain R ↔ ∀ part ∈ b.phrases, Everywhere S part)
  | .name n, _, _ => by simp [base, Base.phrases]
  | .operand p, flat, readable => by
    rw [base, primary_chain judges p (flat _ List.mem_cons_self) readable]
    simp [Base.phrases]

end

end

def RunsTogether : Primary → Prop
  | .unary op operand _ => ((sign? operand).bind (glue? op)).isSome = true
  | .select b path _ => path ≠ [] ∧ basePointed b = true
  | .call b path _ _ => path ≠ [] ∧ basePointed b = true
  | _ => False

theorem operator_meets (op : UnaryOp) {sign : Option UnaryOp} {q : Piece} (first : First sign q) :
    (¬ (sign.bind (glue? op)).isSome = true ∧ (sym op.symbol).Joins q) ∨
      ((sign.bind (glue? op)).isSome = true ∧ (sym op.symbol).Glues q) := by
  cases first with
  | plain chars opens => exact .inl ⟨nofun, operator_joins op (.plain chars opens)⟩
  | sign sign =>
    cases found : glue? op sign with
    | none => exact .inl ⟨by simp [found], operators_join found⟩
    | some longer => exact .inr ⟨by simp [found], operators_glue found⟩

/-- The last piece of a base and the first name behind it. -/
theorem selector_meets {b : Base} {f : Name} {path : List Name} (flat : ∀ part ∈ b.phrases, AllFlat part)
    (readable : AllReadable (base b ++ fields (f :: path))) : ∃ p, (base b).getLast? = some p ∧
      (∀ t ∈ p.tokens, Readable t) ∧ ((¬ basePointed b = true ∧ p.Joins (.field f.value)) ∨
        (basePointed b = true ∧ p.Glues (.field f.value))) := by
  obtain ⟨p, last, closes, same⟩ := base_ends b flat
  obtain ⟨before, behind⟩ := allReadable_append.mp readable
  have readable : ∀ t ∈ p.tokens, Readable t := fun t inside =>
    before t (List.mem_flatMap_of_mem (List.mem_of_mem_getLast? last) inside)
  have legal : Lexer.Legal (.ident f.value) := (behind (.ident f.value) (.tail _ (.head _))).2
  refine ⟨p, last, readable, ?_⟩
  by_cases point : EndsInPoint p
  · exact .inr ⟨same.mp point, Closes.glues_field point readable f.value⟩
  · exact .inl ⟨fun pointed => point (same.mpr pointed), closes.joins_field point legal⟩

theorem path_joins_iff {b : Base} {path : List Name} (flat : ∀ part ∈ b.phrases, AllFlat part)
    (readable : AllReadable (base b ++ fields path)) :
    (∀ p ∈ (base b).getLast?, ∀ f ∈ path.head?, p.Joins (.field f.value)) ↔
      ¬ (path ≠ [] ∧ basePointed b = true) := by
  cases path with
  | nil => simp
  | cons f path =>
    obtain ⟨p, last, can, ⟨apart, joins⟩ | ⟨point, glues⟩⟩ := selector_meets flat readable
    · simp [last, apart, joins]
    · simp [last, point, glues.not_joins can]

theorem path_meets {b : Base} {path : List Name} (flat : ∀ part ∈ b.phrases, AllFlat part)
    (readable : AllReadable (base b ++ fields path)) :
    ∀ p ∈ (base b).getLast?, ∀ f ∈ path.head?, p.Meets (.field f.value) := by
  intro p last f first
  obtain ⟨more, rfl⟩ := List.head?_eq_some_iff.mp first
  obtain ⟨q, last', -, ⟨-, joins⟩ | ⟨-, glues⟩⟩ := selector_meets flat readable
  · exact Option.mem_unique last' last ▸ .inl joins
  · exact Option.mem_unique last' last ▸ .inr glues

/-- The pieces that an operand puts side by side join exactly if it does not run together. -/
theorem judges_joins : Judges Piece.Joins fun p => ¬ RunsTogether p := by
  refine ⟨fun _ _ => id, fun p flat readable => ?_⟩
  cases p with
  | unary op operand s =>
    have inner := (allReadable_cons.mp readable).2
    obtain ⟨q, head, first⟩ := primary_starts operand (flat.child List.mem_cons_self) inner
    have operator := (allReadable_cons.mp readable).1
    rw [Joint, RunsTogether]
    rcases operator_meets op first with ⟨apart, joins⟩ | ⟨glue, glues⟩
    · simp [Option.mem_def.mp head, joins, apart]
    · simp [Option.mem_def.mp head, glue, glues.not_joins operator]
  | select b path s => exact path_joins_iff (fun _ child => flat.child child) readable
  | call b path args s =>
    rw [primary, ← List.append_assoc, allReadable_append] at readable
    exact path_joins_iff (fun _ child => flat.child (List.mem_append_left _ child)) readable.1
  | _ => simp [Joint, RunsTogether]

theorem judges_meets : Judges Piece.Meets fun _ => True := by
  refine ⟨fun _ _ => .inl, fun p flat readable => iff_true_intro ?_⟩
  cases p with
  | unary op operand s =>
    obtain ⟨p, head, first⟩ :=
      primary_starts operand (flat.child List.mem_cons_self) (allReadable_cons.mp readable).2
    intro q found
    obtain rfl : p = q := Option.mem_unique head found
    exact (operator_meets op first).imp And.right And.right
  | select b path s => exact path_meets (fun _ child => flat.child child) readable
  | call b path args s =>
    rw [primary, ← List.append_assoc, allReadable_append] at readable
    exact path_meets (fun _ child => flat.child (List.mem_append_left _ child)) readable.1
  | _ => trivial

theorem expr_meets {e : Expr} (flat : AllFlat (.expr e)) (readable : AllReadable (expr e)) :
    (expr e).IsChain Piece.Meets := by
  refine (expr_chain judges_meets e flat readable).mpr fun part _ => ?_
  cases part <;> trivial

/-- The pieces of an expression join exactly if no operand in it runs together. -/
theorem expr_joins_iff {e : Expr} (flat : AllFlat (.expr e)) (readable : AllReadable (expr e)) :
    (expr e).IsChain Piece.Joins ↔ ∀ p, Phrase.Within (.expr e) (.operand p) → ¬ RunsTogether p := by
  rw [expr_chain judges_joins e flat readable]
  constructor
  · exact fun holds p within => holds (.operand p) within
  · intro holds part within
    cases part with
    | operand p => exact holds p within
    | _ => trivial

end ViewLang.Go.Layout
