import ViewLang.Proofs.Grammar.Reading

namespace ViewLang.Grammar

open Reader
open Canonical (NameStyle plain sym word commaSep)

variable (style : NameStyle) {rest : Tokens}

theorem joined_parts {n : String} {c : Char} {member : List Char}
    (found : n.toList.dropWhile (· != '.') = c :: member) :
    String.ofList (n.toList.takeWhile (· != '.')) ++ "." ++ String.ofList member = n := by
  have isPoint : c = '.' := by
    have := List.head?_dropWhile_not (· != '.') n.toList
    rw [found] at this
    simpa using this
  have whole : n.toList.takeWhile (· != '.') ++ n.toList.dropWhile (· != '.') = n.toList :=
    List.takeWhile_append_dropWhile
  rw [found, isPoint] at whole
  apply String.toList_inj.mp
  simpa using whole

theorem typeName_reads (n : String) (ended : front rest ≠ some (.symbol .dot)) :
    typeName (Canonical.typeName style n ++ rest) = .ok (⟨n, Span.none⟩, rest) := by
  unfold Canonical.typeName
  split
  · rename_i c member found
    simp [typeName, joined_parts found]
  · simp [typeName, ended]

theorem front_typeName (n : String) : ∃ m, front (Canonical.typeName style n) = some (.ident m) := by
  unfold Canonical.typeName
  split <;> exact ⟨_, rfl⟩

def endsType (t : Option Token) : Bool :=
  !startsType t && decide (t ≠ some (.symbol .dot)) && decide (t ≠ some (.symbol .leftParen))

theorem ne_of_endsType {t : Option Token} (ended : endsType t = true) :
    startsType t = false ∧ t ≠ some (.symbol .dot) ∧ t ≠ some (.symbol .leftParen) ∧
      t ≠ some (.symbol .leftBracket) := by
  simp only [endsType, Bool.and_eq_true, Bool.not_eq_true', decide_eq_true_eq] at ended
  obtain ⟨⟨noType, noDot⟩, noParen⟩ := ended
  refine ⟨noType, noDot, noParen, ?_⟩
  rintro rfl
  cases noType

theorem startsType_type (t : TypeExpr) : startsType (front (Canonical.type style t)) = true := by
  cases t with
  | named n =>
    obtain ⟨m, first⟩ := front_typeName style n
    rw [Canonical.type, first]
    rfl
  | generic n arg =>
    obtain ⟨m, first⟩ := front_typeName style n
    rw [Canonical.type, front_append first]
    rfl
  | chan recvOnly elem => cases recvOnly <;> rfl
  | slice elem => rfl
  | pointer elem => rfl
  | func params results => rfl

theorem typeList_reads {ts : List TypeExpr} (rest : Tokens) (what : String) {inner : Reader (Located TypeExpr)}
    (each : ∀ t ∈ ts, Reads inner (Canonical.type style t) ⟨t, Span.none⟩ endsType) :
    commaList (.symbol .rightParen) what inner
      (commaSep (ts.map (Canonical.type style)) ++ sym .rightParen :: rest) =
        .ok ((ts.map fun t => ⟨t, Span.none⟩, Span.none), rest) := by
  refine commaList_reads each ?_ rfl rfl (by decide)
  intro t _
  obtain ⟨u, first, starts⟩ := exists_of_allowed (startsType_type style t) rfl
  exact ⟨u, first, ne_of_allowed starts rfl⟩

theorem length_le_funcResults (pieces : List Tokens) :
    (commaSep pieces).length ≤ (Canonical.funcResults style pieces).length := by
  unfold Canonical.funcResults
  split
  · exact Nat.le_refl _
  · exact Nat.le_of_eq (congrArg List.length (Canonical.commaSep_singleton _))
  · simp only [List.length_cons, List.length_append]
    omega

theorem funcType_reads {params results : List TypeExpr} {inner : Reader (Located TypeExpr)}
    (eachParam : ∀ t ∈ params, Reads inner (Canonical.type style t) ⟨t, Span.none⟩ endsType)
    (eachResult : ∀ t ∈ results, Reads inner (Canonical.type style t) ⟨t, Span.none⟩ endsType)
    (ended : endsType (front rest) = true) :
    funcType inner Span.none (sym .leftParen :: (commaSep (params.map (Canonical.type style)) ++ sym .rightParen ::
      (Canonical.funcResults style (results.map (Canonical.type style)) ++ rest))) =
        .ok (⟨.func params results, Span.none⟩, rest) := by
  obtain ⟨noType, -, noParen, -⟩ := ne_of_endsType ended
  have first (us : Tokens) := typeList_reads style us "`)`" eachParam
  have second := typeList_reads style rest "`)`" eachResult
  unfold Canonical.funcResults
  split
  · rename_i none
    obtain rfl := List.map_eq_nil_iff.mp none
    simp [funcType, first, noParen, noType, Function.comp_def]
  · rename_i single
    obtain ⟨t, rfl, rfl⟩ := List.map_eq_singleton_iff.mp single
    have read := eachResult t List.mem_cons_self rest ended
    obtain ⟨u, opens, starts⟩ := exists_of_allowed (startsType_type .spare t) rfl
    have notParen : u ≠ .symbol .leftParen := ne_of_allowed starts rfl
    simp [funcType, first, front_append opens, notParen, starts, read, Function.comp_def]
  · simp [funcType, first, second, Function.comp_def]

theorem typeUpTo_succ (n : Nat) (ts : Tokens) : typeUpTo (n + 1) ts = typeStep (typeUpTo n) ts := rfl

theorem typeStep_named {inner : Reader (Located TypeExpr)} (n : String) (ts : Tokens) :
    typeStep inner (Canonical.typeName style n ++ ts) = namedType inner (Canonical.typeName style n ++ ts) := by
  unfold Canonical.typeName
  split <;> simp [typeStep]

/-- The bound goes down with each nested type, and so does the number of tokens. -/
theorem typeUpTo_reads {t : TypeExpr} {n : Nat} (short : (Canonical.type style t).length < n) :
    Reads (typeUpTo n) (Canonical.type style t) ⟨t, Span.none⟩ endsType := by
  induction n generalizing t with
  | zero => exact absurd short (Nat.not_lt_zero _)
  | succ n ih =>
    intro rest ended
    cases t with
    | named name =>
      obtain ⟨-, notDot, -, notBracket⟩ := ne_of_endsType ended
      rw [Canonical.type, typeUpTo_succ, typeStep_named style]
      simp [namedType, typeName_reads style name notDot, notBracket]
    | generic name arg =>
      simp only [Canonical.type, List.length_cons, List.length_append] at short
      have read := ih (t := arg) (by omega) (sym .rightBracket :: rest) rfl
      obtain ⟨t, first, starts⟩ := exists_of_allowed (startsType_type style arg) rfl
      have notBracket : t ≠ .symbol .rightBracket := ne_of_allowed starts rfl
      have named : front (sym .leftBracket :: (Canonical.type style arg ++ sym .rightBracket :: rest)) ≠
          some (.symbol .dot) := by simp
      rw [Canonical.type, typeUpTo_succ, List.append_assoc, typeStep_named style]
      simp [namedType, typeName_reads style name named, front_append first, notBracket, read]
    | chan recvOnly elem =>
      cases recvOnly with
      | true =>
        simp only [Canonical.type, List.length_cons] at short
        have read := ih (t := elem) (by omega) rest ended
        simp [Canonical.type, typeUpTo, typeStep, read, wrapType]
      | false =>
        simp only [Canonical.type, List.length_cons] at short
        have read := ih (t := elem) (by omega) rest ended
        simp [Canonical.type, typeUpTo, typeStep, read, wrapType]
    | slice elem =>
      simp only [Canonical.type, List.length_cons] at short
      have read := ih (t := elem) (by omega) rest ended
      simp [Canonical.type, typeUpTo, typeStep, read, wrapType]
    | pointer elem =>
      simp only [Canonical.type, List.length_cons] at short
      have read := ih (t := elem) (by omega) rest ended
      simp [Canonical.type, typeUpTo, typeStep, read, wrapType]
    | func params results =>
      simp only [Canonical.type, Canonical.types_eq_map, List.length_cons, List.length_append] at short
      have each : ∀ ts : List TypeExpr, (commaSep (ts.map (Canonical.type style))).length < n → ∀ t ∈ ts,
          Reads (typeUpTo n) (Canonical.type style t) ⟨t, Span.none⟩ endsType := fun ts shorter t member =>
        ih (Nat.lt_of_le_of_lt (length_le_commaSep_of_mem (List.mem_map_of_mem member)) shorter)
      have inside := length_le_funcResults style (results.map (Canonical.type style))
      have read := funcType_reads style (each params (by omega)) (each results (by omega)) ended
      simp [Canonical.type, Canonical.types_eq_map, typeUpTo, typeStep, read]

theorem type_reads (t : TypeExpr) : Reads type (Canonical.type style t) ⟨t, Span.none⟩ endsType := by
  intro rest ended
  rw [type, sized_apply]
  refine typeUpTo_reads style ?_ rest ended
  rw [List.length_append]
  omega

def VariadicLast (ps : List Param) : Prop := ∀ p ∈ ps.dropLast, p.variadic = false

theorem plainParams_variadicLast {ps : List Param} (h : Yields plainParams ps) : VariadicLast ps := by
  obtain ⟨ts, rest, h⟩ := h
  obtain ⟨decorated, mid, listed, h⟩ := bind_ok.mp h
  obtain ⟨rfl, rfl⟩ := pure_ok.mp h
  obtain ⟨_, mid', -, h⟩ := bind_ok.mp listed
  obtain ⟨⟨entries, _⟩, mid'', -, h⟩ := bind_ok.mp h
  dsimp only at h
  cases shared : shareTypes entries with
  | none =>
    rw [shared] at h
    cases fail_ok.mp h
  | some x =>
    rw [shared] at h
    dsimp only at h
    cases misplaced : misplacedVariadic? x.1 with
    | some d =>
      rw [misplaced] at h
      cases h
    | none =>
      rw [misplaced] at h
      obtain ⟨rfl, rfl⟩ := pure_ok.mp h
      intro p member
      rw [← List.map_dropLast, List.mem_map] at member
      obtain ⟨d, inFront, rfl⟩ := member
      simpa using List.find?_eq_none.mp misplaced d inFront

def ownEntry (p : Param) : ParamEntry := ⟨[], p.name.bare, some (p.ty.bare, p.variadic)⟩

theorem paramEntry_reads (p : Param) :
    Reads (paramEntry (pure [])) (Canonical.param style p) (ownEntry p) endsType := by
  intro rest ended
  have read := type_reads style p.ty.value rest ended
  obtain ⟨t, first, starts⟩ := exists_of_allowed (startsType_type style p.ty.value) rfl
  cases variadic : p.variadic with
  | true => simp [paramEntry, Canonical.param, ownEntry, variadic, read, Located.bare]
  | false =>
    have noEllipsis : eat? (.symbol .ellipsis) (Canonical.type style p.ty.value ++ rest) =
        .ok (none, Canonical.type style p.ty.value ++ rest) :=
      eat?_of_ne (front_append_ne first (ne_of_allowed starts rfl) rest)
    have notComma : t ≠ .symbol .comma := ne_of_allowed starts rfl
    have notParen : t ≠ .symbol .rightParen := ne_of_allowed starts rfl
    simp [paramEntry, Canonical.param, ownEntry, variadic, noEllipsis, front_append first, notComma, notParen, read,
      Located.bare]

theorem shareTypes_ownEntry (ps : List Param) :
    ∃ next, shareTypes (ps.map ownEntry) = some (ps.map fun p => ⟨[], Bare.param p⟩, next) := by
  induction ps with
  | nil => exact ⟨none, rfl⟩
  | cons p ps ih =>
    obtain ⟨next, others⟩ := ih
    exact ⟨some p.ty.bare, by simp [shareTypes, others, ownEntry, Bare.param]⟩

theorem misplacedVariadic?_bare {ps : List Param} (variadicLast : VariadicLast ps) :
    misplacedVariadic? (ps.map fun p => ⟨[], Bare.param p⟩) = none := by
  rw [misplacedVariadic?, ← List.map_dropLast, List.find?_eq_none]
  intro d member
  obtain ⟨p, inFront, rfl⟩ := List.mem_map.mp member
  simp [Bare.param, variadicLast p inFront]

theorem plainParams_reads {ps : List Param} (variadicLast : VariadicLast ps) :
    plainParams (Canonical.params style ps ++ rest) = .ok (ps.map Bare.param, rest) := by
  obtain ⟨next, shared⟩ := shareTypes_ownEntry ps
  have read : commaList (.symbol .rightParen) "`,` or `)`" (paramEntry (pure []))
      (commaSep (ps.map (Canonical.param style)) ++ sym .rightParen :: rest) =
        .ok ((ps.map ownEntry, Span.none), rest) :=
    commaList_reads (fun p _ => paramEntry_reads style p) (fun p _ => ⟨_, rfl, nofun⟩) rfl rfl (by decide)
  simp [plainParams, paramList, Canonical.params, read, shared, misplacedVariadic?_bare variadicLast,
    Function.comp_def]

theorem resultList_reads (ts : List (Located TypeExpr)) :
    resultList (Canonical.results style ts ++ rest) = .ok (ts.map Located.bare, rest) := by
  have read : commaList (.symbol .rightParen) "`,` or `)`" type
      (commaSep (ts.map fun t => Canonical.type style t.value) ++ sym .rightParen :: rest) =
        .ok ((ts.map Located.bare, Span.none), rest) := by
    refine commaList_reads (fun t _ => type_reads style t.value) ?_ rfl rfl (by decide)
    intro t _
    obtain ⟨u, first, starts⟩ := exists_of_allowed (startsType_type style t.value) rfl
    exact ⟨u, first, ne_of_allowed starts rfl⟩
  simp [resultList, Canonical.results, read]

end ViewLang.Grammar
