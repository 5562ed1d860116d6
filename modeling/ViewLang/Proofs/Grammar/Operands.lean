import ViewLang.Proofs.Grammar.Exprs

namespace ViewLang.Grammar

open Reader
open Canonical (NameStyle plain sym word name commaEach commaSep)

section

variable {r r' : Rules} {m : Nat} {c : Bool} (again : Rereads r r' m) (style : NameStyle) {rest : Tokens}

def FragmentYields (r : Rules) : Fragment → Prop
  | .text _ => True
  | .interp e => Yields (exprWith r true) e

def OperandYields (r : Rules) : Primary → Prop
  | .int _ => True
  | .float _ => True
  | .string _ => True
  | .template t => ∀ f ∈ t.fragments, FragmentYields r f
  | .composite ty es _ => (∃ elem, ty.value = .slice elem) ∧ ∀ e ∈ es, Yields (exprWith r true) e.value
  | .make _ args _ => ∀ e ∈ args, Yields (exprWith r true) e
  | .func ps _ body _ => VariadicLast ps ∧ Yields r.block body
  | .paren inner => Yields (exprWith r true) inner
  | _ => False

theorem fragment_yields {f : Fragment} (h : Yields (fragment r) f) : FragmentYields r f := by
  obtain ⟨ts, rest, h⟩ := h
  obtain ⟨first, mid, -, h⟩ := bind_ok.mp h
  split at h
  · cases fail_ok.mp h
  · obtain ⟨_, mid', -, h⟩ := bind_ok.mp h
    obtain ⟨rfl, rfl⟩ := pure_ok.mp h
    trivial
  · obtain ⟨_, mid', -, h⟩ := bind_ok.mp h
    obtain ⟨value, mid'', read, h⟩ := bind_ok.mp h
    obtain ⟨_, mid₃, -, h⟩ := bind_ok.mp h
    obtain ⟨rfl, rfl⟩ := pure_ok.mp h
    exact ⟨_, _, read⟩
  · cases fail_ok.mp h

theorem templateWith_yields {t : Template} (h : Yields (templateWith r) t) : ∀ f ∈ t.fragments, FragmentYields r f := by
  obtain ⟨ts, rest, h⟩ := h
  obtain ⟨start, mid, -, h⟩ := bind_ok.mp h
  obtain ⟨⟨fragments, close⟩, mid', listed, h⟩ := bind_ok.mp (within_ok.mp h)
  obtain ⟨rfl, rfl⟩ := pure_ok.mp h
  exact fun f member => fragment_yields (itemsUpTo_yields listed f member)

theorem makeArg?_yields {e : Expr} (h : Yields (makeArg? r) (some e)) : Yields (exprWith r true) e := by
  obtain ⟨ts, rest, h⟩ := h
  obtain ⟨comma, mid, -, h⟩ := bind_ok.mp h
  cases comma with
  | none => cases h
  | some _ => exact unlessAt_yields h e rfl

theorem makeExpr_yields {p : Primary} (h : Yields (makeExpr r) p) : OperandYields r p := by
  obtain ⟨ts, rest, h⟩ := h
  obtain ⟨start, mid, -, h⟩ := bind_ok.mp h
  obtain ⟨_, mid', -, h⟩ := bind_ok.mp (within_ok.mp h)
  obtain ⟨ty, mid₂, -, h⟩ := bind_ok.mp h
  obtain ⟨args, mid₃, listed, h⟩ := bind_ok.mp h
  obtain ⟨close, mid₄, -, h⟩ := bind_ok.mp h
  obtain ⟨rfl, rfl⟩ := pure_ok.mp h
  exact fun e member => makeArg?_yields (whileSomeUpTo_yields listed e member)

theorem funcLiteral_yields {p : Primary} (h : Yields (funcLiteral r) p) : OperandYields r p := by
  obtain ⟨ts, rest, h⟩ := h
  obtain ⟨start, mid, -, h⟩ := bind_ok.mp h
  obtain ⟨ps, mid', params, h⟩ := bind_ok.mp (within_ok.mp h)
  obtain ⟨rs, mid₂, -, h⟩ := bind_ok.mp h
  obtain ⟨body, mid₃, block, h⟩ := bind_ok.mp h
  obtain ⟨rfl, rfl⟩ := pure_ok.mp h
  exact ⟨plainParams_variadicLast ⟨_, _, params⟩, ⟨_, _, block⟩⟩

theorem compositeBody_yields {ty : Located TypeExpr} {p : Primary} (h : Yields (compositeBody r ty) p) :
    ∃ es s, p = .composite ty es s ∧ ∀ e ∈ es, Yields (exprWith r true) e.value := by
  obtain ⟨ts, rest, h⟩ := h
  obtain ⟨_, mid, -, h⟩ := bind_ok.mp h
  obtain ⟨⟨es, close⟩, mid', listed, h⟩ := bind_ok.mp h
  obtain ⟨rfl, rfl⟩ := pure_ok.mp h
  exact ⟨es, _, rfl, fun e member => entry_yields (commaListUpTo_yields listed e member)⟩

theorem type_slice {ts : Tokens} {s : Span} {ty : Located TypeExpr}
    (h : type (⟨.symbol .leftBracket, s⟩ :: ts) = .ok (ty, rest)) : ∃ elem, ty.value = .slice elem := by
  replace h : typeStep (typeUpTo (ts.length + 1)) (⟨.symbol .leftBracket, s⟩ :: ts) = .ok (ty, rest) := h
  rw [typeStep, bind_of_ok next?_apply] at h
  obtain ⟨_, mid, -, h⟩ := bind_ok.mp h
  obtain ⟨_, mid', -, h⟩ := bind_ok.mp h
  obtain ⟨elem, -, rfl⟩ := map_ok.mp h
  exact ⟨elem.value, rfl⟩

theorem operandWith_yields {t : Located Token} {ts : Tokens} {p : Primary}
    (h : operandWith r t (t :: ts) = .ok (p, rest)) :
    (∃ n : Name, t.value = .ident n.value ∧ p = .ident n) ∨ OperandYields r p := by
  obtain ⟨t, s⟩ := t
  unfold operandWith at h
  dsimp only at h
  by_cases named : ∃ n, t = .ident n
  · obtain ⟨n, rfl⟩ := named
    obtain ⟨_, read, rfl⟩ := map_ok.mp h
    cases ident_ok.mp read
    exact .inl ⟨_, rfl, rfl⟩
  refine .inr ?_
  split at h
  · obtain ⟨_, mid, -, h⟩ := bind_ok.mp h
    obtain ⟨rfl, rfl⟩ := pure_ok.mp h
    trivial
  · obtain ⟨_, mid, -, h⟩ := bind_ok.mp h
    obtain ⟨rfl, rfl⟩ := pure_ok.mp h
    trivial
  · obtain ⟨_, mid, -, h⟩ := bind_ok.mp h
    obtain ⟨rfl, rfl⟩ := pure_ok.mp h
    trivial
  · obtain ⟨t, read, rfl⟩ := map_ok.mp h
    exact templateWith_yields ⟨_, _, read⟩
  · exact funcLiteral_yields ⟨_, _, h⟩
  · exact makeExpr_yields ⟨_, _, h⟩
  · obtain ⟨_, mid, -, h⟩ := bind_ok.mp h
    obtain ⟨inner, mid', read, h⟩ := bind_ok.mp h
    obtain ⟨_, mid₂, -, h⟩ := bind_ok.mp h
    obtain ⟨rfl, rfl⟩ := pure_ok.mp h
    exact ⟨_, _, within_ok.mp read⟩
  · obtain ⟨ty, mid, read, h⟩ := bind_ok.mp h
    obtain ⟨es, s, rfl, each⟩ := compositeBody_yields ⟨_, _, within_ok.mp h⟩
    exact ⟨type_slice read, each⟩
  · exact absurd ⟨_, rfl⟩ named
  · cases fail_ok.mp h

include again

theorem Rereads.template {t : Template} (h : ∀ f ∈ t.fragments, FragmentYields r f)
    (short : (Canonical.template style t).length ≤ m) :
    templateWith r' (Canonical.template style t ++ rest) = .ok (Bare.template t, rest) := by
  obtain ⟨fs, s⟩ := t
  rw [Canonical.template, List.length_cons, List.length_append, Canonical.fragments_eq_flatMap] at short
  have each : ∀ f ∈ fs, Reads (fragment r') (Canonical.fragment style f) (Bare.fragment f) fun _ => true := by
    intro f member rest _
    have shorter := length_le_flatMap_of_mem (Canonical.fragment style) member
    cases f with
    | text s => simp [fragment, Canonical.fragment, Bare.fragment]
    | interp e =>
      rw [Canonical.fragment, List.length_cons, List.length_append] at shorter
      have read := again.expr style (h _ member) (by omega) (plain .interpClose :: rest) rfl
      simp [fragment, Canonical.fragment, Bare.fragment, read]
  have opens : ∀ f ∈ fs, ∃ t, front (Canonical.fragment style f) = some t ∧ true = true ∧ t ≠ .templateEnd := by
    intro f _
    cases f with
    | text s => exact ⟨_, rfl, rfl, by simp⟩
    | interp e => exact ⟨_, rfl, rfl, by simp⟩
  have read : items (pure ()) .templateEnd (fragment r')
      (fs.flatMap (fun f => Canonical.fragment style f ++ []) ++ plain .templateEnd :: rest) =
        .ok ((fs.map Bare.fragment, Span.none), rest) :=
    items_reads (fun _ => true) each opens rfl (fun _ _ => rfl) (fun _ _ => rfl) (fun _ _ => rfl)
  simp only [List.append_nil] at read
  simp [templateWith, Canonical.template, Bare.template, Canonical.fragments_eq_flatMap, Bare.fragments_eq_map, read]

theorem Rereads.make {args : List Expr} (h : ∀ e ∈ args, Yields (exprWith r true) e) {ty : Located TypeExpr} {s : Span}
    (short : (Canonical.primary style (.make ty args s)).length ≤ m) :
    makeExpr r' (Canonical.primary style (.make ty args s) ++ rest) = .ok (Bare.primary (.make ty args s), rest) := by
  simp only [Canonical.primary, List.length_cons, List.length_append] at short
  have each : ∀ e ∈ args, Reads (makeArg? r') (sym .comma :: Canonical.expr style e) (some (Bare.expr e))
      (endsExpr true) := by
    intro e member rest ended
    have shorter := length_le_commaEach_of_mem (List.mem_map_of_mem (f := Canonical.expr style) member)
    rw [Canonical.exprs_eq_map] at short
    obtain ⟨t, first, starts⟩ := again.expr_opens style (h e member) (by omega)
    have notParen : t ≠ .symbol .rightParen := ne_of_allowed starts rfl
    have read := again.expr style (h e member) (by omega) rest ended
    simp [makeArg?, front_append first, notParen, read]
  have listed : whileSome (makeArg? r') (args.flatMap (fun e => sym .comma :: Canonical.expr style e) ++
      sym .rightParen :: rest) = .ok (args.map Bare.expr, sym .rightParen :: rest) :=
    whileSome_reads each (fun e _ => ⟨_, rfl, rfl⟩) rfl rfl
  have tyRead := type_reads style ty.value (args.flatMap (fun e => sym .comma :: Canonical.expr style e) ++
    sym .rightParen :: rest) (front_flatMap (fun e _ => ⟨_, rfl, rfl⟩) rfl)
  simp [makeExpr, Canonical.primary, Canonical.exprs_eq_map, commaEach, List.flatMap_map, Bare.primary,
    Bare.exprs_eq_map, Located.bare, tyRead, listed]

theorem Rereads.func {ps : List Param} {body : Block} (variadicLast : VariadicLast ps) (h : Yields r.block body)
    {rs : List (Located TypeExpr)} {s : Span} (short : (Canonical.primary style (.func ps rs body s)).length ≤ m) :
    funcLiteral r' (Canonical.primary style (.func ps rs body s) ++ rest) =
      .ok (Bare.primary (.func ps rs body s), rest) := by
  simp only [Canonical.primary, List.length_cons, List.length_append] at short
  have read := again.block h style (by omega) rest rfl
  simp [funcLiteral, Canonical.primary, Bare.primary, plainParams_reads style variadicLast, resultList_reads style rs,
    read]

end

section

variable {r r' : Rules} {m : Nat} {c : Bool} (again : Rereads r r' m) {style : NameStyle} {rest : Tokens}

attribute [local simp] Canonical.primary Bare.primary

/-- After the tokens of the operand, the reader is in its loop over suffixes, with rounds enough for what is left. -/
def Continues (r : Rules) (c : Bool) (style : NameStyle) (p : Primary) : Prop :=
  ∀ rest : Tokens, ∃ n, rest.length < n ∧
    primaryStep r c (Canonical.primary style p ++ rest) = suffixesUpTo r c n (Bare.primary p) rest

theorem compositeType?_named {p : Primary} {ty : Located TypeExpr} (h : compositeType? p = some ty) :
    ∃ n s, ty = ⟨.named n, s⟩ := by
  unfold compositeType? at h
  split at h
  · split at h
    · obtain ⟨n, -, rfl⟩ := Option.map_eq_some_iff.mp h
      exact ⟨n, _, rfl⟩
    · cases h
  · cases h

theorem suffix?_stops {p : Primary} (ended : endsPrimary c (front rest) = true) :
    suffix? r c p rest = .ok (none, rest) := by
  unfold suffix?
  rw [bind_of_ok peek?_apply]
  generalize front rest = first at ended ⊢
  split
  · cases ended
  · cases ended
  · cases ended
  · cases c with
    | true => cases ended
    | false => cases compositeType? p <;> rfl
  · rfl

theorem Continues.reads {p : Primary} (h : Continues r' c style p) :
    Reads (primaryStep r' c) (Canonical.primary style p) (Bare.primary p) (endsPrimary c) := by
  intro rest ended
  obtain ⟨n, rounds, same⟩ := h rest
  obtain ⟨n, rfl⟩ := Nat.exists_eq_add_one.mpr (Nat.zero_lt_of_lt rounds)
  rw [same, suffixesUpTo, bind_of_ok (suffix?_stops ended)]
  rfl

theorem Continues.step {p longer : Primary} (h : Continues r' c style p) {t : Located Token} {more : Tokens}
    (tokens : Canonical.primary style longer = Canonical.primary style p ++ t :: more)
    (read : ∀ rest, suffix? r' c (Bare.primary p) (t :: (more ++ rest)) = .ok (some (Bare.primary longer), rest)) :
    Continues r' c style longer := by
  intro rest
  obtain ⟨n, rounds, same⟩ := h (t :: (more ++ rest))
  obtain ⟨n, rfl⟩ := Nat.exists_eq_add_one.mpr (Nat.zero_lt_of_lt rounds)
  refine ⟨n, ?_, ?_⟩
  · rw [List.length_cons, List.length_append] at rounds
    omega
  · rw [tokens, List.append_assoc, List.cons_append, same, suffixesUpTo, bind_of_ok (read rest)]

theorem primaryStep_operand {t : Located Token} {ts : Tokens} {p : Primary} (notUnary : unaryOp? t.value = none)
    (notArrow : t.value ≠ .symbol .arrow) (read : operandWith r t (t :: ts) = .ok (p, rest)) :
    primaryStep r c (t :: ts) = suffixesUpTo r c (rest.length + 1) p rest := by
  simp [primaryStep, notUnary, notArrow, read, suffixes]

theorem ident_continues (n : Name) : Continues r c style (.ident n) := fun rest =>
  ⟨rest.length + 1, Nat.lt_succ_self _, primaryStep_operand rfl nofun rfl⟩

theorem tokens_selectField (p : Primary) (f : Name) :
    Canonical.primary style (selectField p f) = Canonical.primary style p ++ [sym .dot, name f] := by
  cases p <;> simp [selectField, Canonical.base, Canonical.path]

theorem bare_selectField (p : Primary) (f : Name) :
    Bare.primary (selectField p f) = selectField (Bare.primary p) f.bare := by
  cases p <;> simp [selectField, Bare.base, Primary.span]

theorem tokens_callOperand (p : Primary) (args : List Expr) (close : Span) :
    Canonical.primary style (callOperand p args close) =
      Canonical.primary style p ++ sym .leftParen :: (commaSep (Canonical.exprs style args) ++ [sym .rightParen]) := by
  cases p <;> simp [callOperand, Canonical.base, Canonical.path]

theorem bare_callOperand (p : Primary) (args : List Expr) (close : Span) :
    Bare.primary (callOperand p args close) = callOperand (Bare.primary p) (Bare.exprs args) Span.none := by
  cases p <;> simp [callOperand, Bare.base, Primary.span]

theorem Continues.field {p : Primary} (h : Continues r' c style p) (f : Name) :
    Continues r' c style (selectField p f) := by
  refine h.step (tokens_selectField p f) fun rest => ?_
  rw [bare_selectField]
  simp [suffix?, Located.bare]

theorem suffix?_suffixed {p longer : Primary} {ts : Tokens} (h : suffix? r c p ts = .ok (some longer, rest)) :
    Suffixed r c p longer := by
  obtain ⟨first, mid, -, h⟩ := bind_ok.mp h
  split at h
  · obtain ⟨_, mid, -, h⟩ := bind_ok.mp h
    obtain ⟨f, mid', -, h⟩ := bind_ok.mp h
    obtain ⟨same, rfl⟩ := pure_ok.mp h
    cases same
    exact .field f
  · obtain ⟨_, mid, -, h⟩ := bind_ok.mp h
    obtain ⟨⟨args, close⟩, mid', listed, h⟩ := bind_ok.mp h
    obtain ⟨same, rfl⟩ := pure_ok.mp h
    cases same
    exact .call close (commaListUpTo_yields (within_ok.mp listed))
  · obtain ⟨_, mid, -, h⟩ := bind_ok.mp h
    obtain ⟨_, read, same⟩ := map_ok.mp h
    cases same
    exact indexRest_suffixed ⟨_, _, within_ok.mp read⟩
  · generalize isType : compositeType? p = found at h
    split at h
    · obtain ⟨_, read, same⟩ := map_ok.mp h
      cases same
      obtain ⟨es, s', rfl, each⟩ := compositeBody_yields ⟨_, _, within_ok.mp read⟩
      obtain ⟨n, s, rfl⟩ := compositeType?_named isType
      exact .composite s' rfl isType each
    · cases h
  · cases h

theorem suffixesUpTo_invariant {P : Primary → Prop} (step : ∀ p longer, Suffixed r c p longer → P p → P longer)
    {p longer : Primary} {n : Nat} {ts : Tokens} (h : suffixesUpTo r c n p ts = .ok (longer, rest)) (first : P p) :
    P longer := by
  induction n generalizing p ts with
  | zero =>
    obtain ⟨rfl, rfl⟩ := pure_ok.mp h
    exact first
  | succ n ih =>
    obtain ⟨found, mid, read, h⟩ := bind_ok.mp h
    cases found with
    | none =>
      obtain ⟨rfl, rfl⟩ := pure_ok.mp h
      exact first
    | some next => exact ih h (step p next (suffix?_suffixed read) first)

/-- A name of a type is an operand that a composite literal may follow. -/
theorem typeName_operand (r : Rules) (c : Bool) (style : NameStyle) (n : String) :
    ∃ p, Canonical.primary style p = Canonical.typeName style n ∧
      compositeType? (Bare.primary p) = some ⟨.named n, Span.none⟩ ∧ Continues r c style p := by
  unfold Canonical.typeName
  split
  · rename_i ch member found
    refine ⟨selectField (.ident ⟨_, Span.none⟩) ⟨_, Span.none⟩, tokens_selectField _ _, ?_, (ident_continues _).field _⟩
    rw [bare_selectField]
    simp [compositeType?, selectField, Primary.ident, Bare.base, Base.qualified?, Base.name?, Primary.span]
    exact joined_parts found
  · refine ⟨.ident ⟨n, Span.none⟩, rfl, ?_, ident_continues _⟩
    simp [compositeType?, Primary.ident, Bare.base, Base.qualified?, Base.name?]

/-- An operand is one behind an operator, a received value, or a first part and its suffixes. -/
theorem primaryStep_cases {p : Primary} {ts : Tokens} (h : primaryStep r c ts = .ok (p, rest)) :
    ∃ t us, ts = t :: us ∧
      ((∃ op operand s, unaryOp? t.value = some op ∧ p = .unary op operand s ∧ Yields (r.primary c) operand) ∨
        (∃ channel s, t.value = .symbol .arrow ∧ p = .receive channel s) ∨
        ∃ operand mid n, operandWith r t (t :: us) = .ok (operand, mid) ∧
          suffixesUpTo r c n operand mid = .ok (p, rest)) := by
  unfold primaryStep at h
  rw [bind_of_ok next?_apply] at h
  cases ts with
  | nil => cases fail_ok.mp h
  | cons t us =>
    refine ⟨t, us, rfl, ?_⟩
    dsimp only [List.head?_cons] at h
    cases unary : unaryOp? t.value with
    | some op =>
      rw [unary] at h
      obtain ⟨_, mid, -, h⟩ := bind_ok.mp h
      obtain ⟨operand, mid', read, h⟩ := bind_ok.mp h
      obtain ⟨rfl, rfl⟩ := pure_ok.mp h
      exact .inl ⟨op, operand, _, rfl, rfl, _, _, within_ok.mp read⟩
    | none =>
      rw [unary] at h
      dsimp only at h
      split at h
      · rename_i arrow
        obtain ⟨_, mid, -, h⟩ := bind_ok.mp h
        obtain ⟨channel, mid', -, h⟩ := bind_ok.mp h
        obtain ⟨rfl, rfl⟩ := pure_ok.mp h
        exact .inr (.inl ⟨channel, _, arrow, rfl⟩)
      · obtain ⟨operand, mid, read, h⟩ := bind_ok.mp h
        exact .inr (.inr ⟨operand, mid, _, read, h⟩)

include again

theorem Rereads.operand {p : Primary} (h : OperandYields r p) (short : (Canonical.primary style p).length ≤ m) :
    Continues r' c style p := by
  intro rest
  refine ⟨rest.length + 1, Nat.lt_succ_self _, ?_⟩
  cases p with
  | int text => exact primaryStep_operand rfl nofun rfl
  | float text => exact primaryStep_operand rfl nofun rfl
  | string text => exact primaryStep_operand rfl nofun rfl
  | template t =>
    obtain ⟨fs, s⟩ := t
    exact primaryStep_operand rfl nofun (map_of_ok _ (again.template style h short))
  | composite ty es s =>
    obtain ⟨⟨elem, isSlice⟩, each⟩ := h
    obtain ⟨ty, s'⟩ := ty
    cases isSlice
    simp only [Canonical.primary, List.length_cons, List.length_append] at short
    have ty := type_reads style (.slice elem) (sym .leftBrace ::
      (commaSep (Canonical.entries style es) ++ sym .rightBrace :: rest)) rfl
    have body := again.compositeBody style each (by omega) ⟨.slice elem, Span.none⟩ rest
    have tokens : Canonical.primary style (.composite ⟨.slice elem, s'⟩ es s) ++ rest =
        Canonical.type style (.slice elem) ++ sym .leftBrace ::
          (commaSep (Canonical.entries style es) ++ sym .rightBrace :: rest) := by
      simp
    rw [tokens]
    exact primaryStep_operand rfl nofun ((bind_of_ok ty).trans (within_ok.mpr body))
  | make ty args s => exact primaryStep_operand rfl nofun (again.make style h short)
  | func ps rs body s => exact primaryStep_operand rfl nofun (again.func style h.1 h.2 short)
  | paren inner =>
    simp only [Canonical.primary, List.length_cons, List.length_append] at short
    have read := again.expr style h (by omega) (sym .rightParen :: rest) rfl
    exact primaryStep_operand rfl nofun (by simp [operandWith, read])
  | select b path s => cases h
  | index target i s => cases h
  | slice target low high s => cases h
  | call b path args s => cases h
  | receive channel s => cases h
  | unary op operand s => cases h

theorem Rereads.suffixed {p longer : Primary} (h : Suffixed r c p longer)
    (before : (Canonical.primary style p).length ≤ m → Continues r' c style p)
    (short : (Canonical.primary style longer).length ≤ m) : Continues r' c style longer := by
  cases h with
  | field f =>
    rw [tokens_selectField, List.length_append] at short
    exact (before (by omega)).field f
  | @call args close each =>
    rw [tokens_callOperand] at short
    simp only [List.length_append, List.length_cons] at short
    refine (before (by omega)).step (tokens_callOperand p args close) fun rest => ?_
    have read := again.callArgs style each (by omega) rest
    rw [bare_callOperand]
    simp [suffix?, read]
  | @index i s each =>
    simp only [Canonical.primary, List.length_append, List.length_cons] at short
    refine (before (by omega)).step (by rw [Canonical.primary]) fun rest => ?_
    have read := again.index style each (by omega) (Bare.primary p) rest
    simp [suffix?, read]
  | @slice low high s lowRead highRead =>
    simp only [Canonical.primary, List.length_append, List.length_cons] at short
    refine (before (by omega)).step (by rw [Canonical.primary]) fun rest => ?_
    have read := again.slice style lowRead highRead (by omega) (by omega) (Bare.primary p) rest
    simp [suffix?, read]
  | @composite n es s s' allowed isType each =>
    subst allowed
    simp only [Canonical.primary, List.length_append, List.length_cons] at short
    -- The type may have been read as one name and be written in two parts: its operand is not `p`.
    obtain ⟨q, tokens, named, continues⟩ := typeName_operand r' true style n
    refine continues.step (by rw [Canonical.primary, Canonical.type, tokens]) fun rest => ?_
    have read := again.compositeBody style each (by omega) ⟨.named n, Span.none⟩ rest
    simp [suffix?, named, Located.bare, read]

theorem Rereads.primaryStep {p : Primary} (h : Yields (primaryStep r c) p)
    (short : (Canonical.primary style p).length ≤ m) :
    Reads (primaryStep r' c) (Canonical.primary style p) (Bare.primary p) (endsPrimary c) := by
  obtain ⟨ts, rest, h⟩ := h
  obtain ⟨t, us, rfl, ⟨op, operand, s, -, rfl, read⟩ | ⟨channel, s, -, rfl⟩ | ⟨operand, mid, n, read, h⟩⟩ :=
    primaryStep_cases h
  · intro rest ended
    simp only [Canonical.primary, List.length_cons] at short
    have read := again.primary read style (by omega) rest ended
    simp [Grammar.primaryStep, read]
  · intro rest ended
    simp [Grammar.primaryStep, unaryOp?, Located.bare]
  · have first : (Canonical.primary style operand).length ≤ m → Continues r' c style operand := by
      rcases operandWith_yields read with ⟨n, -, rfl⟩ | yields
      · exact fun _ => ident_continues n
      · exact again.operand yields
    exact (suffixesUpTo_invariant (fun _ _ next before => again.suffixed next before) h first short).reads

end

section

variable {r : Rules} {c : Bool} {rest : Tokens}

theorem startsExpr_of_unaryOp? {t : Token} {op : UnaryOp} (h : unaryOp? t = some op) : startsExpr (some t) = true := by
  unfold unaryOp? at h
  split at h <;> first | rfl | cases h

theorem startsExpr_of_operandWith {t : Located Token} {ts : Tokens} {x : Primary × Tokens}
    (h : operandWith r t ts = .ok x) : startsExpr (some t.value) = true := by
  obtain ⟨t, s⟩ := t
  unfold operandWith at h
  dsimp only at h
  split at h
  all_goals first | rfl | cases h

theorem primaryStep_starts {ts : Tokens} {p : Primary} (h : primaryStep r c ts = .ok (p, rest)) :
    startsExpr (front ts) = true := by
  obtain ⟨t, us, rfl, ⟨op, operand, s, unary, -⟩ | ⟨channel, s, arrow, -⟩ | ⟨operand, mid, n, read, -⟩⟩ :=
    primaryStep_cases h
  · exact startsExpr_of_unaryOp? unary
  · rw [front_cons, arrow]
    rfl
  · exact startsExpr_of_operandWith read

theorem primaryStep_name {n : String} {s : Span} {ts : Tokens} (ended : endsPrimary c (front ts) = true) :
    primaryStep r c (⟨.ident n, s⟩ :: ts) = .ok (.ident ⟨n, s⟩, ts) := by
  have step : primaryStep r c (⟨.ident n, s⟩ :: ts) = suffixesUpTo r c (ts.length + 1) (.ident ⟨n, s⟩) ts :=
    primaryStep_operand rfl nofun rfl
  rw [step, suffixesUpTo, bind_of_ok (suffix?_stops ended)]
  rfl

/-- The first token of the operand is no reserved name, if the names of types are not parted. -/
def Unreserved (p : Primary) : Prop :=
  ∃ t, front (Canonical.primary .whole p) = some t ∧ isReservedIdent (some t) = false

theorem isReserved_of_point {n : String} (point : '.' ∈ n.toList) : Vocabulary.isReserved n = false := by
  have tags : ∀ entry ∈ Vocabulary.tags, '.' ∉ entry.1.toList := by decide +kernel
  have props : ∀ entry ∈ Vocabulary.props, '.' ∉ entry.1.toList := by decide +kernel
  rw [Bool.eq_false_iff]
  intro reserved
  rcases Bool.or_eq_true_iff.mp reserved with found | found
  · obtain ⟨entry, member, same⟩ := List.lookup_isSome_iff.mp found
    exact tags entry member (eq_of_beq same ▸ point)
  · obtain ⟨entry, member, same⟩ := List.lookup_isSome_iff.mp found
    exact props entry member (eq_of_beq same ▸ point)

theorem OperandYields.unreserved {p : Primary} (h : OperandYields r p) : Unreserved p := by
  cases p with
  | int text => exact ⟨_, rfl, rfl⟩
  | float text => exact ⟨_, rfl, rfl⟩
  | string text => exact ⟨_, rfl, rfl⟩
  | template t =>
    cases t
    exact ⟨_, rfl, rfl⟩
  | composite ty es s =>
    obtain ⟨⟨elem, isSlice⟩, -⟩ := h
    obtain ⟨ty, s'⟩ := ty
    cases isSlice
    exact ⟨_, rfl, rfl⟩
  | make ty args s => exact ⟨_, rfl, rfl⟩
  | func ps rs body s => exact ⟨_, rfl, rfl⟩
  | paren inner => exact ⟨_, rfl, rfl⟩
  | select b path s => cases h
  | index target i s => cases h
  | slice target low high s => cases h
  | call b path args s => cases h
  | receive channel s => cases h
  | unary op operand s => cases h

theorem compositeType?_unreserved {p : Primary} {n : String} {s : Span} (h : compositeType? p = some ⟨.named n, s⟩)
    (before : Unreserved p) : Vocabulary.isReserved n = false := by
  unfold compositeType? at h
  split at h
  · rename_i b path _
    split at h
    · cases b with
      | operand p => simp [Base.qualified?, Base.name?] at h
      | name first =>
        obtain ⟨t, isFirst, free⟩ := before
        cases isFirst
        obtain ⟨q, named, same⟩ := Option.map_eq_some_iff.mp h
        cases same
        cases named
        cases path with
        | nil =>
          dsimp only
          rw [List.map_nil, String.intercalate_singleton]
          exact free
        | cons f path =>
          apply isReserved_of_point
          simp [String.intercalate_cons_cons]
    · cases h
  · cases h

theorem Suffixed.unreserved {p longer : Primary} (h : Suffixed r c p longer) (before : Unreserved p) :
    Unreserved longer := by
  obtain ⟨t, first, free⟩ := id before
  cases h with
  | field f => exact ⟨t, by rw [tokens_selectField, front_append first], free⟩
  | call close each => exact ⟨t, by rw [tokens_callOperand, front_append first], free⟩
  | index s each => exact ⟨t, by rw [Canonical.primary, front_append first], free⟩
  | slice s low high => exact ⟨t, by rw [Canonical.primary, front_append first], free⟩
  | composite s' allowed isType each => exact ⟨_, rfl, compositeType?_unreserved isType before⟩

theorem primaryStep_unreserved {ts : Tokens} {p : Primary} (h : primaryStep r c ts = .ok (p, rest))
    (free : isReservedIdent (front ts) = false) : Unreserved p := by
  obtain ⟨t, us, rfl, ⟨op, operand, s, -, rfl, -⟩ | ⟨channel, s, -, rfl⟩ | ⟨operand, mid, n, read, h⟩⟩ :=
    primaryStep_cases h
  · exact ⟨_, rfl, rfl⟩
  · exact ⟨_, rfl, rfl⟩
  · have first : Unreserved operand := by
      rcases operandWith_yields read with ⟨n, named, rfl⟩ | yields
      · rw [front_cons, named] at free
        exact ⟨_, rfl, free⟩
      · exact yields.unreserved
    exact suffixesUpTo_invariant (fun _ _ next before => next.unreserved before) h first

end

end ViewLang.Grammar
