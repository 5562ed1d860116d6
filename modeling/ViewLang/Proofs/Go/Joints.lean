import ViewLang.Proofs.Go.Layout

namespace ViewLang.Go.Layout

open Grammar (AllFlat)

mutual

def sign? : Primary → Option UnaryOp
  | .unary op _ _ => some op
  | .index target _ _ => sign? target
  | .slice target _ _ _ => sign? target
  | .select b _ _ => baseSign? b
  | .call b _ _ _ => baseSign? b
  | _ => none

def baseSign? : Base → Option UnaryOp
  | .name _ => none
  | .operand p => sign? p

end

mutual

def pointed : Primary → Bool
  | .float text => text.value.toList.getLast? == some '.'
  | .unary _ operand _ => pointed operand
  | .select b [] _ => basePointed b
  | _ => false

def basePointed : Base → Bool
  | .name _ => false
  | .operand p => pointed p

end

def glue? : UnaryOp → UnaryOp → Option Symbol
  | .neg, .neg => some .minusMinus
  | .plus, .plus => some .plusPlus
  | .ref, .ref => some .andAnd
  | .ref, .bitNot => some .andNot
  | _, _ => none

def AllReadable (ps : List Piece) : Prop := ∀ t ∈ tokens ps, Readable t

theorem allReadable_append {ps qs : List Piece} : AllReadable (ps ++ qs) ↔ AllReadable ps ∧ AllReadable qs := by
  simp only [AllReadable, tokens_append, List.forall_mem_append]

theorem allReadable_cons {p : Piece} {ps : List Piece} :
    AllReadable (p :: ps) ↔ (∀ t ∈ p.tokens, Readable t) ∧ AllReadable ps := by
  simp only [AllReadable, tokens_cons, List.forall_mem_append]

theorem allReadable_commaSep {pss : List (List Piece)} (readable : AllReadable (commaSep pss)) :
    ∀ ps ∈ pss, AllReadable ps := by
  induction pss with
  | nil => nofun
  | cons ps pss ih =>
    cases pss with
    | nil => simpa [commaSep] using readable
    | cons qs more =>
      rw [commaSep, allReadable_append, allReadable_cons, allReadable_cons] at readable
      exact List.forall_mem_cons.mpr ⟨readable.1, ih readable.2.2.2⟩

def opener (c : Char) : Bool := Lexer.isIdentChar c || ['"', '(', '[', '*', '<'].contains c

inductive First : Option UnaryOp → Piece → Prop
  | sign (op : UnaryOp) : First (some op) (sym op.symbol)
  | plain {p : Piece} {c : Char} {cs : List Char} (chars : p.chars = c :: cs) (opens : opener c = true) : First none p

def Closes : Piece → Prop
  | .field _ => True
  | .token (.keyword _) => True
  | .token (.ident _) => True
  | .token (.int _) => True
  | .token (.float _) => True
  | .token (.string _) => True
  | .token (.symbol s) => s = .rightParen ∨ s = .rightBracket ∨ s = .rightBrace
  | _ => False

def EndsInPoint : Piece → Prop
  | .token (.float text) => text.toList.getLast? = some '.'
  | _ => False

def delimiters : List Symbol :=
  [.leftParen, .rightParen, .leftBracket, .rightBracket, .leftBrace, .rightBrace, .comma, .colon]

def Delimits (p : Piece) : Prop := p = .blank ∨ ∃ s ∈ delimiters, p = sym s

def Starts (sign : Option UnaryOp) (ps : List Piece) : Prop := ∃ p ∈ ps.head?, First sign p

def Ends (point : Bool) (ps : List Piece) : Prop := ∃ p ∈ ps.getLast?, Closes p ∧ (EndsInPoint p ↔ point = true)

theorem Starts.append {sign : Option UnaryOp} {ps : List Piece} (starts : Starts sign ps) (qs : List Piece) :
    Starts sign (ps ++ qs) := by
  obtain ⟨p, head, first⟩ := starts
  exact ⟨p, List.mem_head?_append_of_mem_head? head, first⟩

theorem Ends.behind {point : Bool} {qs : List Piece} (ends : Ends point qs) (ps : List Piece) :
    Ends point (ps ++ qs) := by
  obtain ⟨p, last, closes⟩ := ends
  exact ⟨p, List.mem_getLast?_append_of_mem_getLast? last, closes⟩

theorem Ends.cons {point : Bool} {qs : List Piece} (ends : Ends point qs) (p : Piece) : Ends point (p :: qs) :=
  ends.behind [p]

theorem ends_single {p : Piece} {point : Bool} (closes : Closes p) (same : EndsInPoint p ↔ point = true) :
    Ends point [p] :=
  ⟨p, rfl, closes, same⟩

theorem head_symbol {s : Symbol} {rest : List Char} {c : Char} (head : c ∈ ((sym s).chars ++ rest).head?) :
    c ∈ s.text.toList.head? := by
  change c ∈ (s.text.toList ++ rest).head? at head
  rwa [List.head?_append_of_ne_nil _ (Lexer.text_ne_nil s)] at head

theorem sym_joins_blank (s : Symbol) : (sym s).Joins .blank := by
  rintro rest _ ⟨⟩
  exact Lexer.runsInto_gap s (.inl rfl)

theorem blank_joins_sym (s : Symbol) : Piece.blank.Joins (sym s) := by
  intro rest c head
  exact (Lexer.symbol_head s (head_symbol head)).2.2.1

/-- What is checked of the first character of a symbol holds where the symbol is written. -/
theorem head_of_check {P : Char → Prop} [DecidablePred P] {s : Symbol} {rest : List Char} {c : Char}
    (check : s.text.toList.head?.all (decide <| P ·) = true) (head : c ∈ ((sym s).chars ++ rest).head?) : P c :=
  of_decide_eq_true (Option.all_eq_true _ _ |>.mp check c (head_symbol head))

theorem Closes.joins {p q : Piece} (closes : Closes p) (delimits : Delimits q) : p.Joins q := by
  intro rest
  have next : ∀ c ∈ (q.chars ++ rest).head?, Lexer.isIdentChar c = false ∧ c ≠ '.' ∧
      ∀ s ∈ [Symbol.rightParen, .rightBracket, .rightBrace], Lexer.runsInto s c = false := by
    obtain rfl | ⟨s, member, rfl⟩ := delimits
    · rintro _ ⟨⟩
      decide
    · have apart : ∀ s ∈ delimiters, s.text.toList.head?.all fun c => Lexer.isIdentChar c = false ∧ c ≠ '.' ∧
          ∀ s' ∈ [Symbol.rightParen, .rightBracket, .rightBrace], Lexer.runsInto s' c = false := by decide +kernel
      exact fun c head => head_of_check (apart s member) head
  have ends : Lexer.EndsWord (q.chars ++ rest) := fun c head => (next c head).1
  have noPoint : ∀ c ∈ (q.chars ++ rest).head?, c ≠ '.' := fun c head => (next c head).2.1
  cases p with
  | blank => exact absurd closes id
  | field _ => exact ends
  | token t =>
    cases t with
    | keyword _ => exact ends
    | ident _ => exact ends
    | int _ => exact ⟨ends, Lexer.fractionWidth_none noPoint⟩
    | float _ => exact ⟨ends, fun _ => noPoint⟩
    | string _ => trivial
    | symbol s => exact fun c head => (next c head).2.2 s (by simpa [Closes] using closes)
    | _ => exact absurd closes id

def unaryOps : List UnaryOp := [.neg, .plus, .not, .ref, .deref, .bitNot]

theorem mem_unaryOps (op : UnaryOp) : op ∈ unaryOps := by
  cases op <;> decide

def openers : List Symbol := [.leftParen, .leftBracket, .leftBrace, .rightBracket, .colon]

theorem opener_joined {c : Char} (opens : opener c = true) :
    Text.isBlank c = false ∧ (∀ op : UnaryOp, Lexer.runsInto op.symbol c = false) ∧
      ∀ s ∈ openers, Lexer.runsInto s c = false := by
  rw [opener, Bool.or_eq_true] at opens
  rcases opens with inWord | special
  · exact ⟨Lexer.not_blank_of_isIdentChar inWord, fun op => runsInto_identChar _ inWord,
      fun s _ => runsInto_identChar s inWord⟩
  · have apart : ['"', '(', '[', '*', '<'].all fun c => Text.isBlank c = false ∧
        (∀ op ∈ unaryOps, Lexer.runsInto op.symbol c = false) ∧
        ∀ s ∈ openers, Lexer.runsInto s c = false := by
      decide +kernel
    obtain ⟨blank, ops, symbols⟩ :=
      of_decide_eq_true (List.all_eq_true.mp apart c (List.contains_iff_mem.mp special))
    exact ⟨blank, fun op => ops op (mem_unaryOps op), symbols⟩

def Admits (p : Piece) : Prop := ∀ sign q, First sign q → p.Joins q

theorem admits_blank : Admits .blank := by
  rintro sign q (op | ⟨chars, opens⟩) rest c head
  · exact blank_joins_sym op.symbol rest c head
  · rw [chars] at head
    cases head
    exact (opener_joined opens).1

theorem admits_sym {s : Symbol} (member : s ∈ openers) : Admits (sym s) := by
  rintro sign q (op | ⟨chars, opens⟩) rest c head
  · have apart : ∀ s ∈ openers, ∀ op ∈ unaryOps,
        op.symbol.text.toList.head?.all fun c => Lexer.runsInto s c = false := by decide +kernel
    exact head_of_check (apart s member op (mem_unaryOps op)) head
  · rw [chars] at head
    cases head
    exact (opener_joined opens).2.2 s member

theorem operator_joins (op : UnaryOp) {q : Piece} (first : First none q) : (sym op.symbol).Joins q := by
  obtain - | ⟨chars, opens⟩ := first
  intro rest c head
  rw [chars] at head
  cases head
  exact (opener_joined opens).2.1 op

theorem operators_join {op sign : UnaryOp} (apart : glue? op sign = none) :
    (sym op.symbol).Joins (sym sign.symbol) := by
  have each : ∀ op ∈ unaryOps, ∀ sign ∈ unaryOps, glue? op sign = none →
      sign.symbol.text.toList.head?.all fun c => Lexer.runsInto op.symbol c = false := by decide +kernel
  intro rest c head
  exact head_of_check (each op (mem_unaryOps op) sign (mem_unaryOps sign) apart) head

theorem operators_glue {op sign : UnaryOp} {longer : Symbol} (glue : glue? op sign = some longer) :
    (sym op.symbol).Glues (sym sign.symbol) := by
  have facts : op.symbol.text.toList ++ sign.symbol.text.toList = longer.text.toList ∧
      (∀ c, Lexer.runsInto longer c = false) ∧ Grammar.essential (.symbol longer) = true := by
    cases op <;> cases sign <;> cases glue <;> exact ⟨rfl, fun _ => rfl, rfl⟩
  exact glues_symbols facts.1 facts.2.1 (Grammar.essential_unary op) facts.2.2

/-- Words and brackets that do not end with a point join a selector. -/
theorem Closes.joins_field {p : Piece} (closes : Closes p) (noPoint : ¬ EndsInPoint p) {name : String}
    (legal : Lexer.Legal (.ident name)) : p.Joins (.field name) := by
  obtain ⟨⟨c, first, letter⟩, -⟩ := legal
  obtain ⟨cs, same⟩ := List.head?_eq_some_iff.mp first
  intro rest
  have ends : Lexer.EndsWord ('.' :: (name.toList ++ rest)) := by
    rintro _ ⟨⟩
    rfl
  have whole : Lexer.fractionWidth ('.' :: (name.toList ++ rest)) = 0 := by
    have inside := Lexer.isIdentChar_of_start letter
    simp [same, Lexer.fractionWidth, Lexer.not_digit_of_start letter, inside]
  cases p with
  | blank => exact absurd closes id
  | field _ => exact ends
  | token t =>
    cases t with
    | keyword _ => exact ends
    | ident _ => exact ends
    | int _ => exact ⟨ends, whole⟩
    | float _ => exact ⟨ends, fun point => absurd point noPoint⟩
    | string _ => trivial
    | symbol s =>
      rintro _ ⟨⟩
      rcases closes with rfl | rfl | rfl <;> rfl
    | _ => exact absurd closes id

theorem Closes.glues_field {p : Piece} (point : EndsInPoint p) (readable : ∀ t ∈ p.tokens, Readable t)
    (name : String) : p.Glues (.field name) := by
  cases p with
  | token t =>
    cases t with
    | float text => exact glues_point (readable _ List.mem_cons_self).2 point name
    | _ => exact absurd point id
  | _ => exact absurd point id

def Edged (ps : List Piece) : Prop := (∃ sign, Starts sign ps) ∧ ∃ point, Ends point ps

section

variable {R : Piece → Piece → Prop} (joined : ∀ p q, p.Joins q → R p q)

include joined

theorem Ends.before {point : Bool} {ps qs : List Piece} {d : Piece} (ends : Ends point ps) (delimits : Delimits d) :
    (ps ++ d :: qs).IsChain R ↔ ps.IsChain R ∧ (d :: qs).IsChain R := by
  obtain ⟨p, last, closes, -⟩ := ends
  rw [List.isChain_append]
  refine and_congr_right fun _ => and_iff_left ?_
  rintro x final _ ⟨⟩
  obtain rfl : p = x := Option.mem_unique last final
  exact joined p d (closes.joins delimits)

theorem Starts.behind {sign : Option UnaryOp} {ps : List Piece} {o : Piece} (starts : Starts sign ps)
    (admits : Admits o) : (o :: ps).IsChain R ↔ ps.IsChain R := by
  obtain ⟨p, head, first⟩ := starts
  rw [List.isChain_cons]
  refine and_iff_right fun x found => ?_
  obtain rfl : p = x := Option.mem_unique head found
  exact joined o p (admits sign p first)

theorem Edged.enclosed {ps : List Piece} (edged : Edged ps) {o d : Piece} (admits : Admits o) (delimits : Delimits d)
    (qs : List Piece) : (o :: (ps ++ d :: qs)).IsChain R ↔ ps.IsChain R ∧ (d :: qs).IsChain R := by
  obtain ⟨⟨sign, starts⟩, ⟨point, ends⟩⟩ := edged
  rw [(starts.append _).behind joined admits, ends.before joined delimits]

/-- A list in brackets is joined if each of its items is. -/
theorem listed_chain {pss : List (List Piece)} (edged : ∀ ps ∈ pss, Edged ps) {o : Piece} {close : Symbol}
    (admits : Admits o) (empty : o.Joins (sym close)) (delimits : close ∈ delimiters) (qs : List Piece) :
    (o :: (commaSep pss ++ sym close :: qs)).IsChain R ↔
      (∀ ps ∈ pss, ps.IsChain R) ∧ (sym close :: qs).IsChain R := by
  induction pss generalizing o with
  | nil =>
    rw [commaSep, List.nil_append, List.isChain_cons_cons]
    simp [joined _ _ empty]
  | cons ps pss ih =>
    obtain ⟨⟨⟨sign, starts⟩, ⟨point, ends⟩⟩, later⟩ := List.forall_mem_cons.mp edged
    cases pss with
    | nil =>
      rw [commaSep, (starts.append _).behind joined admits, ends.before joined (.inr ⟨close, delimits, rfl⟩)]
      simp
    | cons ps' more =>
      rw [commaSep, List.append_assoc, List.cons_append, List.cons_append, (starts.append _).behind joined admits,
        ends.before joined (.inr ⟨.comma, by decide, rfl⟩), List.isChain_cons_cons,
        ih later admits_blank (blank_joins_sym close)]
      simp only [joined _ _ (sym_joins_blank .comma), true_and, List.forall_mem_cons, and_assoc]

end

theorem parens_join : (sym .leftParen).Joins (sym .rightParen) := by
  rintro rest _ ⟨⟩
  rfl

theorem first_token {t : Token} (readable : Readable t) (word : ∀ s, t ≠ .symbol s) : First none (.token t) := by
  have start {cs : List Char} (digits : Lexer.Digits cs) (tail : List Char) :
      ∃ c more, cs ++ tail = c :: more ∧ opener c = true := by
    obtain ⟨c, more, rfl, digit⟩ := digits.head
    exact ⟨c, more ++ tail, rfl, by rw [opener, Lexer.isIdentChar_of_digit digit]; rfl⟩
  have lettered {cs : List Char} (starts : ∃ c ∈ cs.head?, Lexer.isIdentStart c = true) :
      ∃ c more, cs = c :: more ∧ opener c = true := by
    obtain ⟨c, first, letter⟩ := starts
    obtain ⟨more, same⟩ := List.head?_eq_some_iff.mp first
    exact ⟨c, more, same, by rw [opener, Lexer.isIdentChar_of_start letter]; rfl⟩
  suffices ∃ c cs, (Piece.token t).chars = c :: cs ∧ opener c = true by
    obtain ⟨c, cs, chars, opens⟩ := this
    exact .plain chars opens
  cases t with
  | keyword k => exact lettered (Lexer.keyword_head k)
  | ident n => exact lettered readable.2.1
  | int text =>
    have legal : Lexer.IntText text.toList := readable.2
    change ∃ c cs, text.toList = c :: cs ∧ opener c = true
    generalize text.toList = cs at legal
    cases legal with
    | decimal whole => exact List.append_nil cs ▸ start whole []
    | hex => exact ⟨_, _, rfl, rfl⟩
  | float text =>
    have legal : Lexer.FloatText text.toList := readable.2
    change ∃ c cs, text.toList = c :: cs ∧ opener c = true
    generalize text.toList = cs at legal
    cases legal with
    | point whole => exact start whole _
    | fraction whole _ => exact start whole _
    | exponent whole _ => exact start whole _
    | both whole _ _ => exact start whole _
  | string text => exact ⟨'"', _, by rw [Piece.chars, quote, String.toList_ofList]; rfl, rfl⟩
  | symbol s => exact absurd rfl (word s)
  | _ => exact absurd readable.1 id

theorem word_starts {t : Token} {ps : List Piece} (readable : AllReadable (.token t :: ps))
    (word : ∀ s, t ≠ .symbol s) : Starts none (.token t :: ps) :=
  ⟨_, rfl, first_token ((allReadable_cons.mp readable).1 t List.mem_cons_self) word⟩

theorem keyword_starts (k : Keyword) (ps : List Piece) : Starts none (word k :: ps) :=
  ⟨_, rfl, first_token ⟨trivial, trivial⟩ nofun⟩

theorem close_ends {s : Symbol} (close : s = .rightParen ∨ s = .rightBracket ∨ s = .rightBrace) :
    Ends false [sym s] :=
  ends_single close (by simp [EndsInPoint])

theorem typeName_starts {n : String} (readable : AllReadable (typeName n)) : Starts none (typeName n) := by
  unfold typeName at readable ⊢
  split at readable
  · exact word_starts readable nofun
  · exact word_starts readable nofun

theorem typeName_ends (n : String) : Ends false (typeName n) := by
  unfold typeName
  split
  · exact ends_single (p := .token (.ident n)) trivial (by simp [EndsInPoint])
  · exact (ends_single (p := .field _) trivial (by simp [EndsInPoint])).cons _

theorem typeName_joined (n : String) : (typeName n).IsChain Piece.Joins := by
  unfold typeName
  split
  · exact .singleton _
  · refine .cons_cons ?_ (.singleton _)
    rintro rest _ ⟨⟩
    rfl

theorem type_starts (t : TypeExpr) (readable : AllReadable (type t)) : Starts none (type t) := by
  have symbol {s : Symbol} {c : Char} {cs : List Char} (ps : List Piece) (chars : s.text.toList = c :: cs)
      (opens : opener c = true) : Starts none (sym s :: ps) := ⟨_, rfl, .plain chars opens⟩
  cases t with
  | named n => exact typeName_starts readable
  | generic n arg =>
    rw [type] at readable ⊢
    exact (typeName_starts (allReadable_append.mp readable).1).append _
  | chan recvOnly elem =>
    cases recvOnly with
    | true => exact symbol _ rfl rfl
    | false => exact keyword_starts .chan _
  | slice elem => exact symbol _ rfl rfl
  | pointer elem => exact symbol _ rfl rfl
  | func ps rs => exact keyword_starts .func _

theorem type_ends : (t : TypeExpr) → Ends false (type t)
  | .named n => typeName_ends n
  | .generic _ _ => (((close_ends (.inr (.inl rfl))).behind _).cons _).behind _
  | .chan true elem => (((type_ends elem).cons _).cons _).cons _
  | .chan false elem => ((type_ends elem).cons _).cons _
  | .slice elem => ((type_ends elem).cons _).cons _
  | .pointer elem => (type_ends elem).cons _
  | .func _ [] => (((close_ends (.inl rfl)).behind _).cons _).cons _
  | .func _ [r] => (((((type_ends r).cons _).cons _).behind _).cons _).cons _
  | .func _ (_ :: _ :: _) =>
    (((((((close_ends (.inl rfl)).behind _).cons _).cons _).cons _).behind _).cons _).cons _

theorem type_edged {t : TypeExpr} (readable : AllReadable (type t)) : Edged (type t) :=
  ⟨⟨none, type_starts t readable⟩, false, type_ends t⟩

theorem allReadable_results {pss : List (List Piece)} (readable : AllReadable (results pss)) :
    ∀ ps ∈ pss, AllReadable ps := by
  rcases pss with _ | ⟨ps, _ | ⟨qs, more⟩⟩
  · nofun
  · exact List.forall_mem_singleton.mpr (allReadable_cons.mp readable).2
  · have inside := (allReadable_cons.mp (allReadable_cons.mp readable).2).2
    exact allReadable_commaSep (allReadable_append.mp inside).1

theorem results_chain {pss : List (List Piece)} (edged : ∀ ps ∈ pss, Edged ps)
    (chains : ∀ ps ∈ pss, ps.IsChain Piece.Joins) : (sym .rightParen :: results pss).IsChain Piece.Joins := by
  have blank : (sym .rightParen).Joins .blank := by
    rintro rest _ ⟨⟩
    rfl
  rcases pss with _ | ⟨ps, _ | ⟨qs, more⟩⟩
  · exact .singleton _
  · obtain ⟨⟨sign, starts⟩, -⟩ := edged ps List.mem_cons_self
    exact .cons_cons blank ((starts.behind (fun _ _ => id) admits_blank).mpr (chains ps List.mem_cons_self))
  · have paren : Piece.blank.Joins (sym .leftParen) := by
      rintro rest _ ⟨⟩
      rfl
    refine .cons_cons blank (.cons_cons paren ?_)
    exact (listed_chain (fun _ _ => id) edged (admits_sym (by decide)) parens_join (by decide) []).mpr
      ⟨chains, .singleton _⟩

theorem types_edged {ts : List TypeExpr} (readable : ∀ ps ∈ types ts, AllReadable ps) : ∀ ps ∈ types ts, Edged ps := by
  induction ts with
  | nil => nofun
  | cons t ts ih =>
    obtain ⟨here, later⟩ := List.forall_mem_cons.mp readable
    exact List.forall_mem_cons.mpr ⟨type_edged here, ih later⟩

mutual

theorem type_joined : (t : TypeExpr) → AllReadable (type t) → (type t).IsChain Piece.Joins
  | .named n, _ => typeName_joined n
  | .generic n arg, readable => by
    rw [type, allReadable_append, allReadable_cons, allReadable_append] at readable
    have inner := readable.2.2.1
    have close : Delimits (sym .rightBracket) := .inr ⟨.rightBracket, by decide, rfl⟩
    rw [type, (typeName_ends n).before (fun _ _ => id) (.inr ⟨.leftBracket, by decide, rfl⟩),
      (type_edged inner).enclosed (fun _ _ => id) (admits_sym (by decide)) close]
    exact ⟨typeName_joined n, type_joined arg inner, .singleton _⟩
  | .chan true elem, readable => by
    have inner := (allReadable_cons.mp (allReadable_cons.mp (allReadable_cons.mp readable).2).2).2
    have arrow : (sym .arrow).Joins (word .chan) := by
      rintro rest _ ⟨⟩
      rfl
    exact .cons_cons arrow (.cons_cons (Closes.joins trivial (.inl rfl))
      (((type_starts elem inner).behind (fun _ _ => id) admits_blank).mpr (type_joined elem inner)))
  | .chan false elem, readable => by
    have inner := (allReadable_cons.mp (allReadable_cons.mp readable).2).2
    exact .cons_cons (Closes.joins trivial (.inl rfl))
      (((type_starts elem inner).behind (fun _ _ => id) admits_blank).mpr (type_joined elem inner))
  | .slice elem, readable => by
    have inner := (allReadable_cons.mp (allReadable_cons.mp readable).2).2
    have brackets : (sym .leftBracket).Joins (sym .rightBracket) := by
      rintro rest _ ⟨⟩
      rfl
    exact .cons_cons brackets
      (((type_starts elem inner).behind (fun _ _ => id) (admits_sym (by decide))).mpr (type_joined elem inner))
  | .pointer elem, readable => by
    have inner := (allReadable_cons.mp readable).2
    refine List.isChain_cons.mpr ⟨?_, type_joined elem inner⟩
    obtain ⟨p, head, first⟩ := type_starts elem inner
    intro q found
    obtain rfl : p = q := Option.mem_unique head found
    exact operator_joins .deref first
  | .func ps rs, readable => by
    rw [type, allReadable_cons, allReadable_cons, allReadable_append, allReadable_cons] at readable
    have params := allReadable_commaSep readable.2.2.1
    have answers := allReadable_results readable.2.2.2.2
    rw [type]
    refine .cons_cons (Closes.joins trivial (.inr ⟨_, by decide, rfl⟩)) ?_
    rw [listed_chain (fun _ _ => id) (types_edged params) (admits_sym (by decide)) parens_join (by decide)]
    exact ⟨types_joined ps params, results_chain (types_edged answers) (types_joined rs answers)⟩

theorem types_joined : (ts : List TypeExpr) → (∀ ps ∈ types ts, AllReadable ps) →
    ∀ ps ∈ types ts, ps.IsChain Piece.Joins
  | [], _ => nofun
  | t :: ts, readable => by
    obtain ⟨here, later⟩ := List.forall_mem_cons.mp readable
    exact List.forall_mem_cons.mpr ⟨type_joined t here, types_joined ts later⟩

end

mutual

theorem primary_starts : (p : Primary) → AllFlat (.operand p) → AllReadable (primary p) →
    Starts (sign? p) (primary p)
  | .int _, _, readable => word_starts readable nofun
  | .float _, _, readable => word_starts readable nofun
  | .string _, _, readable => word_starts readable nofun
  | .template _, flat, _ => absurd (flat _ .refl) id
  | .composite ty _ _, _, readable => (type_starts ty.value (allReadable_append.mp readable).1).append _
  | .make _ _ _, _, _ => keyword_starts .make _
  | .index target _ _, flat, readable =>
    (primary_starts target (flat.child List.mem_cons_self) (allReadable_append.mp readable).1).append _
  | .slice target _ _ _, flat, readable =>
    (primary_starts target (flat.child List.mem_cons_self) (allReadable_append.mp readable).1).append _
  | .select b _ _, flat, readable =>
    (base_starts b (fun _ child => flat.child child) (allReadable_append.mp readable).1).append _
  | .call b _ _ _, flat, readable =>
    (base_starts b (fun _ child => flat.child (List.mem_append_left _ child))
      (allReadable_append.mp readable).1).append _
  | .func .., flat, _ => absurd (flat _ .refl) id
  | .receive _ _, _, _ => ⟨_, rfl, .plain rfl rfl⟩
  | .unary op _ _, _, _ => ⟨_, rfl, .sign op⟩
  | .paren _, _, _ => ⟨_, rfl, .plain rfl rfl⟩

theorem base_starts : (b : Base) → (∀ part ∈ b.phrases, AllFlat part) → AllReadable (base b) →
    Starts (baseSign? b) (base b)
  | .name _, _, readable => word_starts readable nofun
  | .operand p, flat, readable => primary_starts p (flat _ List.mem_cons_self) readable

end

theorem fields_ends (f : Name) (path : List Name) : Ends false (fields (f :: path)) := by
  induction path generalizing f with
  | nil => exact ends_single (p := .field _) trivial (by simp [EndsInPoint])
  | cons g path ih => exact (ih g).cons _

mutual

theorem primary_ends : (p : Primary) → AllFlat (.operand p) → Ends (pointed p) (primary p)
  | .int text, _ => ends_single (p := .token (.int text.value)) trivial (by simp [EndsInPoint, pointed])
  | .float text, _ => ends_single (p := .token (.float text.value)) trivial (by simp [EndsInPoint, pointed])
  | .string text, _ => ends_single (p := .token (.string text.value)) trivial (by simp [EndsInPoint, pointed])
  | .template _, flat => absurd (flat _ .refl) id
  | .composite _ _ _, _ => (((close_ends (.inr (.inr rfl))).behind _).cons _).behind _
  | .make _ _ _, _ => (((close_ends (.inl rfl)).behind _).cons _).cons _
  | .index _ _ _, _ => (((close_ends (.inr (.inl rfl))).behind _).cons _).behind _
  | .slice _ _ _ _, _ => (((((close_ends (.inr (.inl rfl))).behind _).cons _).behind _).cons _).behind _
  | .select b [] _, flat => by
    rw [primary, fields, List.map_nil, List.append_nil, pointed]
    exact base_ends b fun _ child => flat.child child
  | .select _ (f :: path) _, _ => (fields_ends f path).behind _
  | .call _ _ _ _, _ => ((((close_ends (.inl rfl)).behind _).cons _).behind _).behind _
  | .func .., flat => absurd (flat _ .refl) id
  | .receive channel _, _ =>
    (ends_single (p := .token (.ident channel.value)) trivial (by simp [EndsInPoint, pointed])).cons _
  | .unary _ operand _, flat => (primary_ends operand (flat.child List.mem_cons_self)).cons _
  | .paren _, _ => ((close_ends (.inl rfl)).behind _).cons _

theorem base_ends : (b : Base) → (∀ part ∈ b.phrases, AllFlat part) → Ends (basePointed b) (base b)
  | .name n, _ => ends_single (p := .token (.ident n.value)) trivial (by simp [EndsInPoint, basePointed])
  | .operand p, flat => primary_ends p (flat _ List.mem_cons_self)

end

theorem links_end {ls : List Link} (flat : ∀ l ∈ ls, AllFlat (.operand l.operand)) {ps : List Piece} {point : Bool}
    (ends : Ends point ps) : ∃ point, Ends point (ps ++ links ls) := by
  induction ls generalizing ps point with
  | nil => exact ⟨point, (List.append_nil ps).symm ▸ ends⟩
  | cons l ls ih =>
    obtain ⟨here, later⟩ := List.forall_mem_cons.mp flat
    obtain ⟨op, operand⟩ := l
    obtain ⟨last, ends'⟩ := ih later (primary_ends operand here)
    exact ⟨last, (((ends'.cons _).cons _).cons _).behind ps⟩

theorem expr_edged {e : Expr} (flat : AllFlat (.expr e)) (readable : AllReadable (expr e)) : Edged (expr e) := by
  obtain ⟨head, tail, s⟩ := e
  obtain ⟨-, flatHead, flatTail⟩ := Phrase.throughout_expr.mp flat
  rw [expr] at readable ⊢
  have starts := primary_starts head flatHead (allReadable_append.mp readable).1
  exact ⟨⟨_, starts.append _⟩, links_end (fun l member => (flatTail l member).2) (primary_ends head flatHead)⟩

theorem exprs_edged {es : List Expr} (flat : ∀ e ∈ es, AllFlat (.expr e))
    (readable : ∀ ps ∈ exprs es, AllReadable ps) : ∀ ps ∈ exprs es, Edged ps := by
  induction es with
  | nil => nofun
  | cons e es ih =>
    obtain ⟨flatHere, flatLater⟩ := List.forall_mem_cons.mp flat
    obtain ⟨here, later⟩ := List.forall_mem_cons.mp readable
    exact List.forall_mem_cons.mpr ⟨expr_edged flatHere here, ih flatLater later⟩

theorem entries_edged {es : List Entry} (flat : ∀ e ∈ es, AllFlat (.expr e.value))
    (readable : ∀ ps ∈ entries es, AllReadable ps) : ∀ ps ∈ entries es, Edged ps := by
  induction es with
  | nil => nofun
  | cons e es ih =>
    obtain ⟨flatHere, flatLater⟩ := List.forall_mem_cons.mp flat
    obtain ⟨_ | key, value⟩ := e
    · obtain ⟨here, later⟩ := List.forall_mem_cons.mp readable
      exact List.forall_mem_cons.mpr ⟨expr_edged flatHere here, ih flatLater later⟩
    · obtain ⟨here, later⟩ := List.forall_mem_cons.mp readable
      obtain ⟨-, point, ends⟩ :=
        expr_edged flatHere (allReadable_cons.mp (allReadable_cons.mp (allReadable_cons.mp here).2).2).2
      exact List.forall_mem_cons.mpr
        ⟨⟨⟨none, word_starts here nofun⟩, point, ((ends.cons _).cons _).cons _⟩, ih flatLater later⟩

end ViewLang.Go.Layout
