import ViewLang.Go.Literal
import ViewLang.Proofs.Grammar.Consumed
import ViewLang.Proofs.Token.Legality
import ViewLang.Proofs.Token.Respelling

namespace ViewLang.Go.Layout

open Lexer (EndsWord Legal codeFront)
open Grammar (core essential kinds)

inductive Piece
  | blank
  | token (t : Token)
  | field (name : String)

namespace Piece

/-- The piece as it is written. Strings have Go's escapes. -/
def chars : Piece → List Char
  | blank => [' ']
  | token (.string s) => (quote s).toList
  | token t => Lexer.spell t
  | field name => '.' :: name.toList

def tokens : Piece → List Token
  | blank => []
  | token t => [t]
  | field name => [.symbol .dot, .ident name]

/-- What may be written behind the piece so that it is read no further. -/
def Stops : Piece → List Char → Prop
  | blank, rest => ∀ c ∈ rest.head?, Text.isBlank c = false
  | token t, rest => Lexer.Stops t rest
  | field _, rest => EndsWord rest

def Joins (p q : Piece) : Prop := ∀ rest, p.Stops (q.chars ++ rest)

def Glues (p q : Piece) : Prop :=
  ∃ t, p = token t ∧ essential t = true ∧ ∀ rest, ∃ u width,
    codeFront (p.chars ++ (q.chars ++ rest)) = .token u width ∧ u ≠ t ∧ essential u = true ∧ u ≠ .templateStart

def Meets (p q : Piece) : Prop := p.Joins q ∨ p.Glues q

end Piece

def render (ps : List Piece) : List Char := ps.flatMap Piece.chars

def tokens (ps : List Piece) : List Token := ps.flatMap Piece.tokens

@[simp] theorem render_nil : render [] = [] := rfl

@[simp] theorem render_cons (p : Piece) (ps : List Piece) : render (p :: ps) = p.chars ++ render ps := rfl

@[simp] theorem render_append (ps qs : List Piece) : render (ps ++ qs) = render ps ++ render qs := List.flatMap_append

@[simp] theorem tokens_nil : tokens [] = [] := rfl

@[simp] theorem tokens_cons (p : Piece) (ps : List Piece) : tokens (p :: ps) = p.tokens ++ tokens ps := rfl

@[simp] theorem tokens_append (ps qs : List Piece) : tokens (ps ++ qs) = tokens ps ++ tokens qs := List.flatMap_append

def isControl (c : Char) : Bool := c.toNat < 0x20 || 0x7F ≤ c.toNat && c.toNat < 0xA0

def PlainText (s : String) : Prop := ∀ c ∈ s.toList, isControl c = true → c = '\n' ∨ c = '\r' ∨ c = '\t'

def Quotable : Token → Prop
  | .string s => PlainText s
  | .templateStart => False
  | .templateText _ => False
  | .interpOpen => False
  | .interpClose => False
  | .templateEnd => False
  | _ => True

def Readable (t : Token) : Prop := Quotable t ∧ Legal t

theorem quoteChar_plain {c : Char} (plain : isControl c = true → c = '\n' ∨ c = '\r' ∨ c = '\t') :
    (∃ e, quoteChar c = ['\\', e] ∧ Lexer.stringEscape? e = some c) ∨
      (quoteChar c = [c] ∧ Lexer.isStringChar c = true) := by
  unfold quoteChar
  split
  · exact .inl ⟨_, rfl, rfl⟩
  · exact .inl ⟨_, rfl, rfl⟩
  · exact .inl ⟨_, rfl, rfl⟩
  · exact .inl ⟨_, rfl, rfl⟩
  · exact .inl ⟨_, rfl, rfl⟩
  · rename_i quote slash line back tab
    have visible : isControl c = false := by
      rw [← Bool.not_eq_true]
      intro control
      rcases plain control with same | same | same
      · exact line same
      · exact back same
      · exact tab same
    simp only [isControl, Bool.or_eq_false_iff, Bool.and_eq_false_iff, decide_eq_false_iff_not] at visible
    rw [if_neg (by omega), if_neg (by omega)]
    refine .inr ⟨rfl, ?_⟩
    simp only [Lexer.isStringChar, Bool.and_eq_true, bne_iff_ne]
    exact ⟨⟨⟨quote, slash⟩, line⟩, back⟩

theorem codeFront_quote {s : String} (plain : PlainText s) (rest : List Char) :
    codeFront ((quote s).toList ++ rest) = .token (.string s) (quote s).toList.length := by
  have written : Lexer.Written Lexer.stringEscape? Lexer.isStringChar (s.toList.flatMap quoteChar) s.toList :=
    Lexer.written_flatMap fun c member => quoteChar_plain (plain c member)
  have read := Lexer.stringRest_written written rest
  rw [quote, String.toList_ofList, List.cons_append, List.cons_append, List.append_assoc, List.singleton_append,
    codeFront, read]
  simp [Nat.add_comm 1]

theorem codeFront_token {t : Token} {rest : List Char} (readable : Readable t) (stops : Lexer.Stops t rest) :
    codeFront ((Piece.token t).chars ++ rest) = .token t (Piece.token t).chars.length := by
  cases t with
  | keyword k => exact Lexer.codeFront_keyword k stops
  | ident name => exact Lexer.codeFront_ident readable.2 stops
  | int text => exact Lexer.codeFront_int readable.2 stops.1 stops.2
  | float text => exact Lexer.codeFront_float readable.2 stops.1 stops.2
  | string s => exact codeFront_quote readable.1 rest
  | symbol s => exact Lexer.codeFront_symbol s stops
  | _ => exact absurd readable.1 id

theorem transition_outside {pos : Nat} {n : Lexer.Nesting} {t : Token} (outside : n.modes = [])
    (other : t ≠ .templateStart) : Lexer.transition pos n t = (t, n) := by
  obtain ⟨modes, starts⟩ := n
  obtain rfl : modes = [] := outside
  cases t with
  | symbol s => cases s <;> rfl
  | templateStart => exact absurd rfl other
  | _ => rfl

/-- Outside templates, a token at the front of the text is read, and nothing is opened. -/
theorem step_outside {s : Lexer.State} {t : Token} {width : Nat} (outside : s.nesting.modes = [])
    (found : codeFront s.rest = .token t width) (other : t ≠ .templateStart) :
    s.rest ≠ [] ∧ ∃ span s', Lexer.step s = .ok (some ⟨t, span⟩, s') ∧ s'.rest = s.rest.drop width ∧
      s'.nesting = s.nesting := by
  have inhabited : s.rest ≠ [] := by
    intro empty
    rw [empty] at found
    cases found
  have front : Lexer.front s.nesting.modes s.rest = .token t width := by
    rw [Lexer.front_code (by rw [outside]; nofun), found]
  have fits := Lexer.front_fits s.nesting.modes inhabited
  rw [front] at fits
  refine ⟨inhabited, ?_⟩
  unfold Lexer.step
  rw [front]
  dsimp only
  rw [transition_outside outside other, Lexer.advance_eq inhabited fits.1]
  exact ⟨_, _, rfl, rfl, rfl⟩

/-- Steps outside templates read the tokens and come to the rest of the text. -/
def Passes (s : Lexer.State) (ts : List Token) (rest : List Char) : Prop :=
  ∃ out s', Lexer.Reaches s out s' ∧ s'.rest = rest ∧ s'.nesting = s.nesting ∧ kinds out = ts

theorem Passes.start {s : Lexer.State} : Passes s [] s.rest := ⟨[], s, .start, rfl, rfl, rfl⟩

theorem Passes.trans {s : Lexer.State} {ts us : List Token} {mid rest : List Char} (first : Passes s ts mid)
    (second : ∀ s', s'.rest = mid → s'.nesting = s.nesting → Passes s' us rest) : Passes s (ts ++ us) rest := by
  obtain ⟨out, s', reaches, left, kept, rfl⟩ := first
  obtain ⟨out', s'', reaches', left', kept', rfl⟩ := second s' left kept
  exact ⟨out ++ out', s'', reaches.trans reaches', left', kept'.trans kept, List.map_append⟩

theorem Passes.token {s : Lexer.State} {t : Token} {text rest : List Char} (outside : s.nesting.modes = [])
    (here : s.rest = text ++ rest) (found : codeFront (text ++ rest) = .token t text.length)
    (other : t ≠ .templateStart) : Passes s [t] rest := by
  rw [← here] at found
  obtain ⟨inhabited, span, s', stepped, left, kept⟩ := step_outside outside found other
  refine ⟨[⟨t, span⟩], s', .step .start inhabited stepped, ?_, kept, rfl⟩
  rw [left, here, List.drop_left]

/-- No symbol goes on with a letter, a digit or a line below. -/
theorem runsInto_identChar (s : Symbol) {c : Char} (inWord : Lexer.isIdentChar c = true) :
    Lexer.runsInto s c = false := by
  have outside : ∀ s' ∈ Symbol.all, s'.text.toList.all (!Lexer.isIdentChar ·) = true := by decide
  rw [← Bool.not_eq_true, Lexer.runsInto, Bool.or_eq_true, List.any_eq_true]
  rintro (⟨s', member, longer⟩ | comment)
  · have inside : c ∈ s'.text.toList := (List.isPrefixOf_iff_prefix.mp longer).subset (by simp)
    have apart := List.all_eq_true.mp (outside s' member) c inside
    rw [inWord] at apart
    cases apart
  · simp only [Bool.and_eq_true, Bool.or_eq_true, beq_iff_eq] at comment
    obtain ⟨-, rfl | rfl⟩ := comment <;> cases inWord

theorem Readable.ne_templateStart {t : Token} (readable : Readable t) : t ≠ .templateStart := by
  rintro rfl
  exact readable.1

theorem Piece.passes {p : Piece} {s : Lexer.State} {rest : List Char} (readable : ∀ t ∈ p.tokens, Readable t)
    (stops : p.Stops rest) (outside : s.nesting.modes = []) (here : s.rest = p.chars ++ rest) :
    Passes s p.tokens rest := by
  cases p with
  | blank =>
    obtain ⟨s', stepped, left, kept⟩ := Lexer.step_blank (by rw [outside]; nofun) here stops
    exact ⟨[], s', .step .start (by rw [here]; exact List.cons_ne_nil _ _) stepped, left, kept, rfl⟩
  | token t =>
    have can := readable t List.mem_cons_self
    exact .token outside here (codeFront_token can stops) can.ne_templateStart
  | field name =>
    have legal : Legal (.ident name) := (readable _ (List.mem_cons_of_mem _ List.mem_cons_self)).2
    have behind : ∀ c ∈ (name.toList ++ rest).head?, Lexer.runsInto .dot c = false := by
      obtain ⟨c, first, letter⟩ := legal.1
      obtain ⟨more, same⟩ := List.head?_eq_some_iff.mp first
      rw [same]
      rintro _ ⟨⟩
      exact runsInto_identChar .dot (Lexer.isIdentChar_of_start letter)
    have dot : Passes s [.symbol .dot] (name.toList ++ rest) :=
      .token outside here (Lexer.codeFront_symbol .dot behind) nofun
    refine dot.trans fun s' left kept => ?_
    exact .token (kept ▸ outside) left (Lexer.codeFront_ident legal stops) nofun

/-- Pieces that join, with something behind them that does not run into the last one, are read as their tokens. -/
theorem pieces_pass {ps : List Piece} {s : Lexer.State} {rest : List Char} (chain : ps.IsChain Piece.Joins)
    (readable : ∀ t ∈ tokens ps, Readable t) (ends : ∀ p ∈ ps.getLast?, p.Stops rest) (outside : s.nesting.modes = [])
    (here : s.rest = render ps ++ rest) : Passes s (tokens ps) rest := by
  induction ps generalizing s with
  | nil =>
    rw [render_nil, List.nil_append] at here
    exact here ▸ .start
  | cons p ps ih =>
    rw [tokens_cons, List.forall_mem_append] at readable
    rw [render_cons, List.append_assoc] at here
    have stops : p.Stops (render ps ++ rest) := by
      cases ps with
      | nil => exact ends p rfl
      | cons q qs =>
        rw [render_cons, List.append_assoc]
        exact (List.isChain_cons_cons.mp chain).1 _
    refine (Piece.passes readable.1 stops outside here).trans fun s' left kept => ?_
    refine ih chain.of_cons readable.2 (fun q last => ends q ?_) (kept ▸ outside) left
    exact List.mem_getLast?_cons last

theorem Piece.stops_nil (p : Piece) : p.Stops [] := by
  cases p with
  | blank => nofun
  | token t =>
    have nothing : Lexer.Apart [] := by simp [Lexer.Apart]
    exact nothing.stops t
  | field name => nofun

theorem tokenize_joined {ps : List Piece} (chain : ps.IsChain Piece.Joins) (readable : ∀ t ∈ tokens ps, Readable t) :
    ∃ ts, tokenize (String.ofList (render ps)) = .ok ts ∧ kinds ts = tokens ps := by
  have here : (Lexer.State.start (String.ofList (render ps))).rest = render ps ++ [] := by
    rw [Lexer.State.start, String.toList_ofList, List.append_nil]
  obtain ⟨ts, s, reaches, ended, kept, same⟩ := pieces_pass chain readable (fun p _ => p.stops_nil) rfl here
  refine ⟨ts, ?_, same⟩
  rw [tokenize, reaches.run_eq, Lexer.run_of_end ended, kept]
  simp [Lexer.State.start, Except.map]

theorem exists_break {α : Type} {R : α → α → Prop} {xs : List α} (broken : ¬ xs.IsChain R) :
    ∃ before x y behind, xs = before ++ x :: y :: behind ∧ (before ++ [x]).IsChain R ∧ ¬ R x y := by
  induction xs with
  | nil => exact absurd .nil broken
  | cons x xs ih =>
    cases xs with
    | nil => exact absurd (.singleton x) broken
    | cons y ys =>
      by_cases here : R x y
      · have later : ¬ (y :: ys).IsChain R := fun chain => broken (.cons_cons here chain)
        obtain ⟨before, a, b, behind, split, chain, apart⟩ := ih later
        refine ⟨x :: before, a, b, behind, by rw [split, List.cons_append], ?_, apart⟩
        cases before with
        | nil =>
          obtain ⟨rfl, -⟩ := List.cons.inj split
          exact .cons_cons here chain
        | cons z before =>
          obtain ⟨rfl, -⟩ := List.cons.inj split
          exact .cons_cons here chain
      · exact ⟨[], x, y, ys, rfl, .singleton x, here⟩

/-- Where pieces do not join they are glued, and then other tokens are read than theirs. -/
theorem tokenize_glued {ps : List Piece} {ts : List (Located Token)}
    (meets : ps.IsChain Piece.Meets) (broken : ¬ ps.IsChain Piece.Joins)
    (readable : ∀ t ∈ tokens ps, Readable t) (read : tokenize (String.ofList (render ps)) = .ok ts) :
    core ts ≠ (tokens ps).filter essential := by
  -- The pieces in front of the first break are read as their tokens, and the next token is another one.
  obtain ⟨before, p, q, behind, rfl, chain, apart⟩ := exists_break broken
  have glued : p.Glues q := by
    have both := (List.isChain_append.mp meets).2.1
    exact (List.isChain_cons_cons.mp both).1.resolve_left apart
  obtain ⟨t, rfl, needed, reads⟩ := glued
  obtain ⟨u, width, found, other, needed', noTemplate⟩ := reads (render behind)
  obtain ⟨chain, -, joins⟩ := List.isChain_append.mp chain
  rw [tokens_append, List.forall_mem_append] at readable
  have here : (Lexer.State.start (String.ofList (render (before ++ .token t :: q :: behind)))).rest =
      render before ++ ((Piece.token t).chars ++ (q.chars ++ render behind)) := by
    rw [Lexer.State.start, String.toList_ofList, render_append, render_cons, render_cons]
  obtain ⟨out, s, reaches, left, kept, same⟩ :=
    pieces_pass chain readable.1 (fun p last => joins p last _ rfl _) rfl here
  rw [← left] at found
  obtain ⟨inhabited, span, s', stepped, -, -⟩ := step_outside (by rw [kept]; rfl) found noTemplate
  rw [tokenize, reaches.run_eq, Lexer.run_step inhabited stepped] at read
  cases final : Lexer.run s' with
  | error d =>
    rw [final] at read
    cases read
  | ok more =>
    rw [final] at read
    cases read
    rw [Grammar.core_append, Grammar.core, same, tokens_append, List.filter_append]
    intro equal
    have tails := List.append_cancel_left equal
    simp [Piece.tokens, needed, needed', other] at tails

theorem Piece.Glues.not_joins {p q : Piece} (glues : p.Glues q) (readable : ∀ t ∈ p.tokens, Readable t) :
    ¬ p.Joins q := by
  obtain ⟨t, rfl, -, reads⟩ := glues
  intro joins
  obtain ⟨u, width, found, other, -⟩ := reads []
  rw [codeFront_token (readable t List.mem_cons_self) (joins [])] at found
  cases found
  exact other rfl

theorem glues_symbols {s s' longer : Symbol} (joined : s.text.toList ++ s'.text.toList = longer.text.toList)
    (last : ∀ c, Lexer.runsInto longer c = false) (needed : essential (.symbol s) = true)
    (needed' : essential (.symbol longer) = true) : (Piece.token (.symbol s)).Glues (.token (.symbol s')) := by
  have other : Token.symbol longer ≠ .symbol s := by
    rintro ⟨⟩
    have short := congrArg List.length joined
    have positive := List.length_pos_iff.mpr (Lexer.text_ne_nil s')
    rw [List.length_append] at short
    omega
  refine ⟨_, rfl, needed, fun rest => ⟨.symbol longer, longer.text.toList.length, ?_, other, needed', nofun⟩⟩
  rw [← List.append_assoc]
  change codeFront (s.text.toList ++ s'.text.toList ++ rest) = _
  rw [joined]
  exact Lexer.codeFront_symbol longer fun c _ => last c

theorem exponent_digits {es : List Char} (exponent : Lexer.ExponentText es) :
    ∃ cs, Lexer.Digits cs ∧ cs <:+ es := by
  cases exponent with
  | plain _ digits => exact ⟨_, digits, List.suffix_cons _ _⟩
  | signed _ _ digits => exact ⟨_, digits, (List.suffix_cons _ _).trans (List.suffix_cons _ _)⟩

/-- A float that ends with a point has digits in front of it and nothing else. -/
theorem digits_of_pointed {text : List Char} (legal : Lexer.FloatText text) (pointed : text.getLast? = some '.') :
    ∃ whole, Lexer.Digits whole ∧ text = whole ++ ['.'] := by
  -- All other forms end with digits.
  have ended {cs : List Char} (digits : Lexer.Digits cs) (ends : cs <:+ text) : False := by
    obtain ⟨front, rfl⟩ := ends
    rw [List.getLast?_append_of_ne_nil _ digits.1] at pointed
    have digit := digits.2 '.' (List.mem_of_getLast? pointed)
    cases digit
  cases legal with
  | point digits => exact ⟨_, digits, rfl⟩
  | fraction _ fraction => exact (ended fraction ((List.suffix_cons _ _).trans (List.suffix_append _ _))).elim
  | exponent _ exponent =>
    obtain ⟨cs, digits, ends⟩ := exponent_digits exponent
    exact (ended digits (ends.trans (List.suffix_append _ _))).elim
  | @both whole fraction es _ _ exponent =>
    obtain ⟨cs, digits, ends⟩ := exponent_digits exponent
    have last : es <:+ '.' :: (fraction ++ es) := (List.suffix_append _ _).trans (List.suffix_cons _ _)
    exact (ended digits (ends.trans (last.trans (List.suffix_append _ _)))).elim

/-- A float that ends with its point is cut short if a selector follows it. -/
theorem glues_point {text : String} (legal : Lexer.FloatText text.toList) (pointed : text.toList.getLast? = some '.')
    (name : String) : (Piece.token (.float text)).Glues (.field name) := by
  obtain ⟨whole, digits, same⟩ := digits_of_pointed legal pointed
  refine ⟨_, rfl, rfl, fun rest => ⟨.int (String.ofList whole), whole.length, ?_, nofun, rfl, nofun⟩⟩
  have legal : Lexer.IntText (String.ofList whole).toList := by
    rw [String.toList_ofList]
    exact .decimal digits
  have ends : EndsWord ('.' :: '.' :: (name.toList ++ rest)) := by
    rintro _ ⟨⟩
    rfl
  have read := Lexer.codeFront_int legal ends rfl
  rw [String.toList_ofList] at read
  change codeFront (text.toList ++ ('.' :: name.toList ++ rest)) = _
  rw [same, List.append_assoc]
  exact read

end ViewLang.Go.Layout
