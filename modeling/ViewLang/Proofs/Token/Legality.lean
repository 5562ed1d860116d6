import ViewLang.Proofs.Token.MaximalMunch

namespace ViewLang.Lexer

theorem Numeral.text {isFloat : Bool} {piece rest : List Char} (numeral : Numeral isFloat piece rest) :
    if isFloat then FloatText piece else IntText piece := by
  cases numeral with
  | hex mark inhabited digits => exact .hex mark inhabited digits
  | @decimal _ whole fs es rest digits fraction exponent point float =>
    rcases fraction with rfl | ⟨ds, rfl, all⟩
    · rcases exponent with rfl | exponent
      · have int : isFloat = false := by simpa using float
        rw [int, List.append_nil, List.append_nil]
        exact .decimal digits
      · obtain ⟨e, es, rfl, -⟩ := exponent.head
        rw [if_pos (float.mpr (.inr (List.cons_ne_nil e es)))]
        exact .exponent digits exponent
    · rw [if_pos (float.mpr (.inl (List.cons_ne_nil '.' ds)))]
      rcases ds with _ | ⟨d, ds⟩
      · rcases exponent with rfl | exponent
        · exact .point digits
        · -- A point without digits does not belong to the number if a mark of an exponent comes next.
          obtain ⟨e, es, rfl, mark⟩ := exponent.head
          obtain ⟨_, ⟨⟩, takes⟩ := point.mp (List.cons_ne_nil _ _)
          rcases takes e rfl with digit | ⟨noName, -⟩
          · rcases mark with rfl | rfl <;> cases digit
          · rcases mark with rfl | rfl <;> cases noName
      · have fraction : Digits (d :: ds) := ⟨List.cons_ne_nil d ds, all⟩
        rcases exponent with rfl | exponent
        · rw [List.append_nil]
          exact .fraction digits fraction
        · exact .both digits fraction exponent

theorem Munched.legal {t : Token} {piece rest : List Char} (munched : Munched t piece rest)
    (spelled : Spells t piece) : Legal t := by
  cases t with
  | ident name =>
    cases spelled
    obtain ⟨word, other⟩ := munched
    exact ⟨word.start, word.inside, fun k same => other k (by rw [same])⟩
  | int text =>
    cases spelled
    exact munched.1.text
  | float text =>
    cases spelled
    exact munched.1.text
  | _ => trivial

theorem tokenize_legal {source : String} {ts : List (Located Token)} (read : tokenize source = .ok ts) :
    ∀ t ∈ ts, Legal t.value := by
  obtain ⟨s, reaches, -, -⟩ := run_ok read
  intro t member
  obtain ⟨piece, rest, -, spelled, munched⟩ := reaches.munched t member
  exact munched.legal spelled

end ViewLang.Lexer
