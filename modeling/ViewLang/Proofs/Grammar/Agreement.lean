import ViewLang.Proofs.Grammar.RoundTrip

namespace ViewLang.Grammar

open Reader

variable {α β γ δ : Type}

def kinds (ts : Tokens) : List Token := ts.map (·.value)

def AgreeAt (view : α → γ) (ts us : Tokens) (p q : Reader α) : Prop :=
  ∀ a rest, p ts = .ok (a, rest) → ∃ b more, q us = .ok (b, more) ∧ view a = view b ∧ kinds rest = kinds more

def Agree (view : α → γ) (p q : Reader α) : Prop := ∀ ts us, kinds ts = kinds us → AgreeAt view ts us p q

theorem bare_eq_iff {x y : Located α} : x.bare = y.bare ↔ x.value = y.value := by
  constructor
  · intro same
    rw [← x.bare_value, same, y.bare_value]
  · intro same
    rw [Located.bare, Located.bare, same]

theorem front_eq_head? (ts : Tokens) : front ts = (kinds ts).head? := List.head?_map.symm

theorem front_of_kinds {ts us : Tokens} (same : kinds ts = kinds us) : front ts = front us := by
  rw [front_eq_head?, front_eq_head?, same]

theorem kinds_tail {ts us : Tokens} (same : kinds ts = kinds us) : kinds ts.tail = kinds us.tail := by
  have tails := congrArg List.tail same
  rwa [kinds, kinds, ← List.map_tail, ← List.map_tail] at tails

/-- Tokens of the same kinds as others that start with `t`. -/
theorem kinds_cons {t : Token} {s : Span} {ts us : Tokens} (same : kinds (⟨t, s⟩ :: ts) = kinds us) :
    ∃ s' us', us = ⟨t, s'⟩ :: us' ∧ kinds ts = kinds us' := by
  cases us with
  | nil => cases same
  | cons u us' =>
    obtain ⟨u, s'⟩ := u
    obtain ⟨value, others⟩ := List.cons.inj same
    obtain rfl : t = u := value
    exact ⟨s', us', rfl, others⟩

section

variable {view : α → γ} {view' : β → δ} {ts us : Tokens} {p q : Reader α} {f g : α → Reader β}

theorem AgreeAt.bind (first : AgreeAt view ts us p q)
    (next : ∀ a b, view a = view b → Agree view' (f a) (g b)) : AgreeAt view' ts us (p >>= f) (q >>= g) := by
  intro b rest read
  obtain ⟨a, mid, read₁, read₂⟩ := bind_ok.mp read
  obtain ⟨a', mid', read₁', same, kept⟩ := first a mid read₁
  obtain ⟨b', rest', read₂', same', kept'⟩ := next a a' same mid mid' kept b rest read₂
  exact ⟨b', rest', bind_ok.mpr ⟨a', mid', read₁', read₂'⟩, same', kept'⟩

theorem Agree.bind (first : Agree view p q) (next : ∀ a b, view a = view b → Agree view' (f a) (g b)) :
    Agree view' (p >>= f) (q >>= g) :=
  fun ts us same => (first ts us same).bind next

theorem Agree.both (first : Agree id p q) (next : ∀ a, Agree view' (f a) (g a)) : Agree view' (p >>= f) (q >>= g) := by
  refine first.bind fun a b same => ?_
  obtain rfl : a = b := same
  exact next a

theorem agree_pure {a b : α} (same : view a = view b) : Agree view (pure a) (pure b) := by
  intro ts us kept c rest read
  obtain ⟨rfl, rfl⟩ := pure_ok.mp read
  exact ⟨b, us, rfl, same, kept⟩

theorem Agree.map {g g' : α → β} (agree : Agree view p q) (each : ∀ a b, view a = view b → view' (g a) = view' (g' b)) :
    Agree view' (g <$> p) (g' <$> q) :=
  agree.bind fun a b same => agree_pure (each a b same)

theorem agreeAt_fail {what : String} : AgreeAt view ts us (fail what) q :=
  fun _ _ read => absurd (fail_ok.mp read) id

theorem agree_fail {what : String} : Agree view (fail what) q := fun _ _ _ => agreeAt_fail

theorem Agree.within (agree : Agree view p q) : Agree view (within p) (within q) := by
  intro ts us kept a rest read
  obtain ⟨b, more, read', same⟩ := agree ts us kept a rest (within_ok.mp read)
  exact ⟨b, more, within_ok.mpr read', same⟩

theorem Agree.sized {p q : Nat → Reader α} (each : ∀ n, Agree view (p n) (q n)) : Agree view (sized p) (sized q) := by
  intro ts us kept
  have long : ts.length = us.length := by simpa [kinds] using congrArg List.length kept
  intro a rest read
  obtain ⟨b, more, read', same⟩ := each ts.length ts us kept a rest read
  exact ⟨b, more, by rw [sized_apply, ← long]; exact read', same⟩

theorem AgreeAt.next {f g : Option (Located Token) → Reader α} (next : AgreeAt view ts us (f ts.head?) (g us.head?)) :
    AgreeAt view ts us (next? >>= f) (next? >>= g) := next

theorem AgreeAt.skip {t u : Located Token} {f g : Unit → Reader α} (next : AgreeAt view ts us (f ()) (g ())) :
    AgreeAt view (t :: ts) (u :: us) (skip >>= f) (skip >>= g) := next

end

theorem agree_look {f : Tokens → α} (same : ∀ ts us, kinds ts = kinds us → f ts = f us) :
    Agree id (fun ts => .ok (f ts, ts)) fun ts => .ok (f ts, ts) := by
  intro ts us kept a rest read
  cases read
  exact ⟨f us, us, rfl, same ts us kept, kept⟩

theorem agree_peek : Agree id peek? peek? := agree_look fun _ _ => front_of_kinds

theorem agree_second : Agree id second? second? := by
  refine agree_look fun ts us kept => ?_
  have at₁ (ts : Tokens) : ts[1]?.map (·.value) = (kinds ts)[1]? := List.getElem?_map.symm
  rw [at₁, at₁, kept]

theorem agree_at (t : Token) : Agree id (at? t) (at? t) := by
  refine agree_look fun ts us kept => ?_
  have first (ts : Tokens) : ts.head?.any (·.value == t) = (front ts).any (· == t) := by
    cases ts <;> rfl
  rw [first, first, front_of_kinds kept]

theorem agree_skip : Agree (fun _ => ()) skip skip := by
  intro ts us kept a rest read
  cases read
  exact ⟨(), us.tail, rfl, rfl, kinds_tail kept⟩

theorem agree_eat (t : Token) : Agree Option.isSome (eat? t) (eat? t) := by
  intro ts us kept a rest read
  cases ts with
  | nil =>
    obtain rfl : us = [] := List.map_eq_nil_iff.mp kept.symm
    cases read
    exact ⟨none, [], rfl, rfl, rfl⟩
  | cons u ts =>
    obtain ⟨u, s₀⟩ := u
    obtain ⟨s, us, rfl, others⟩ := kinds_cons kept
    unfold eat? at read ⊢
    dsimp only at read ⊢
    split at read
    · rename_i found
      cases read
      exact ⟨some s, us, by rw [if_pos found], rfl, others⟩
    · rename_i other
      cases read
      exact ⟨none, _, by rw [if_neg other], rfl, kept⟩

theorem agree_expect (t : Token) (what : String) : Agree (fun _ => ()) (expect t what) (expect t what) := by
  intro ts us kept a rest read
  cases ts with
  | nil => cases read
  | cons u ts =>
    obtain ⟨u, s₀⟩ := u
    obtain ⟨s, us, rfl, others⟩ := kinds_cons kept
    unfold expect at read ⊢
    dsimp only at read ⊢
    split at read
    · rename_i found
      cases read
      exact ⟨s, us, by rw [if_pos found], rfl, others⟩
    · cases read

theorem agree_ident : Agree Located.bare ident ident := by
  intro ts us kept n rest read
  obtain rfl := ident_ok.mp read
  obtain ⟨s, us, rfl, others⟩ := kinds_cons kept
  exact ⟨⟨n.value, s⟩, us, rfl, rfl, others⟩

theorem moreIdents_agree {ts us : Tokens} (kept : kinds ts = kinds us) :
    (moreIdents ts).1.map Located.bare = (moreIdents us).1.map Located.bare ∧
      kinds (moreIdents ts).2 = kinds (moreIdents us).2 := by
  induction ts using moreIdents.induct generalizing us with
  | case1 s n s' ts names rest split ih =>
    obtain ⟨s₁, us, rfl, kept₁⟩ := kinds_cons kept
    obtain ⟨s₂, us, rfl, kept₂⟩ := kinds_cons kept₁
    obtain ⟨named, left⟩ := ih kept₂
    rw [moreIdents, moreIdents]
    exact ⟨by rw [List.map_cons, List.map_cons, named]; rfl, left⟩
  | case2 ts other =>
    have other' : ∀ s n s' us', us = ⟨.symbol .comma, s⟩ :: ⟨.ident n, s'⟩ :: us' → False := by
      rintro s n s' us' rfl
      obtain ⟨s₁, ts, rfl, kept₁⟩ := kinds_cons kept.symm
      obtain ⟨s₂, ts, rfl, -⟩ := kinds_cons kept₁
      exact other _ _ _ _ rfl
    rw [moreIdents.eq_2 ts other, moreIdents.eq_2 us other']
    exact ⟨rfl, kept⟩

theorem agree_identList : Agree (List.map Located.bare) identList identList := by
  refine agree_ident.bind fun first first' same ts us kept names rest read => ?_
  obtain ⟨others, left⟩ := moreIdents_agree kept
  cases read
  exact ⟨_, _, rfl, by rw [List.map_cons, List.map_cons, same, others], left⟩

theorem agree_skipSemicolons : Agree (fun _ => ()) skipSemicolons skipSemicolons := by
  intro ts us kept a rest read
  cases read
  refine ⟨(), _, rfl, rfl, ?_⟩
  have dropped (ts : Tokens) : kinds (ts.dropWhile (·.value == .symbol .semicolon)) =
      (kinds ts).dropWhile (· == .symbol .semicolon) := by
    rw [kinds, kinds, List.dropWhile_map]
    rfl
  rw [dropped, dropped, kept]

section

variable {view : α → γ}

theorem Agree.whileSome {p q : Reader (Option α)} (agree : Agree (Option.map view) p q) :
    Agree (List.map view) (whileSome p) (whileSome q) := by
  refine .sized fun n => ?_
  generalize n + 1 = n
  induction n with
  | zero => exact agree_pure rfl
  | succ n ih =>
    refine agree.bind ?_
    rintro (_ | a) (_ | b) same
    · exact agree_pure rfl
    · cases same
    · cases same
    · refine ih.bind fun as bs others => agree_pure ?_
      rw [List.map_cons, List.map_cons, others, Option.some.inj same]

variable {item item' : Reader α} (agree : Agree view item item')

include agree

theorem Agree.commaList (close : Token) (what : String) :
    Agree (fun x => x.1.map view) (commaList close what item) (commaList close what item') := by
  refine .sized fun n => ?_
  generalize n + 1 = n
  induction n with
  | zero => exact agree_fail
  | succ n ih =>
    refine (agree_eat close).bind ?_
    rintro (_ | s) (_ | s') same
    · refine agree.bind fun a b same => (agree_eat _).bind ?_
      rintro (_ | s) (_ | s') comma
      · refine (agree_expect close what).bind fun _ _ _ => agree_pure ?_
        rw [List.map_singleton, List.map_singleton, same]
      · cases comma
      · cases comma
      · refine ih.bind fun as bs others => agree_pure ?_
        rw [List.map_cons, List.map_cons, others, same]
    · cases same
    · cases same
    · exact agree_pure rfl

theorem Agree.items {gap : Reader Unit} (passes : Agree (fun _ => ()) gap gap) (close : Token) :
    Agree (fun x => x.1.map view) (items gap close item) (items gap close item') := by
  refine .sized fun n => ?_
  generalize n + 1 = n
  induction n with
  | zero => exact agree_fail
  | succ n ih =>
    refine passes.bind fun _ _ _ => (agree_eat close).bind ?_
    rintro (_ | s) (_ | s') same
    · refine agree.bind fun a b same => ih.bind fun as bs others => agree_pure ?_
      rw [List.map_cons, List.map_cons, others, same]
    · cases same
    · cases same
    · exact agree_pure rfl

theorem Agree.unlessAt (t : Token) : Agree (Option.map view) (unlessAt t item) (unlessAt t item') := by
  refine (agree_at t).both fun stop => ?_
  cases stop with
  | true => exact agree_pure rfl
  | false => exact agree.map fun a b same => congrArg some same

end

section

variable {inner inner' : Reader (Located TypeExpr)} (agree : Agree Located.bare inner inner')

theorem agree_typeName : Agree Located.bare typeName typeName := by
  refine agree_ident.bind fun first first' same => (agree_at _).both fun dot => agree_second.both fun member => ?_
  split
  · refine agree_skip.bind fun _ _ _ => agree_ident.bind fun member member' same' => agree_pure ?_
    rw [bare_eq_iff] at same same' ⊢
    rw [same, same']
  · exact agree_pure same

include agree

theorem agree_namedType : Agree Located.bare (namedType inner) (namedType inner') := by
  refine agree_typeName.bind fun name name' same => (agree_at _).both fun opens => agree_second.both
    fun following => ?_
  rw [bare_eq_iff] at same
  dsimp only
  split
  · refine agree_skip.bind fun _ _ _ => agree.within.bind fun arg arg' same' => (agree_expect _ _).bind fun _ _ _ =>
      agree_pure ?_
    rw [bare_eq_iff] at same' ⊢
    rw [same, same']
  · refine agree_pure ?_
    rw [bare_eq_iff, same]

omit agree in
theorem values_of_bare {ts us : List (Located TypeExpr)} (same : ts.map Located.bare = us.map Located.bare) :
    ts.map (·.value) = us.map (·.value) := by
  have values := congrArg (List.map (·.value)) same
  simpa [Function.comp_def] using values

theorem agree_funcType (start start' : Span) : Agree Located.bare (funcType inner start) (funcType inner' start') := by
  refine (agree_expect _ _).bind fun _ _ _ => (agree.commaList _ _).bind ?_
  rintro ⟨params, close⟩ ⟨params', close'⟩ same
  refine agree_peek.both fun following => ?_
  have alike := values_of_bare same
  dsimp only
  split
  · refine agree_skip.bind fun _ _ _ => (agree.commaList _ _).bind ?_
    rintro ⟨results, close⟩ ⟨results', close'⟩ same'
    refine agree_pure ?_
    rw [bare_eq_iff, alike, values_of_bare same']
  · split
    · refine agree.bind fun result result' same' => agree_pure ?_
      rw [bare_eq_iff] at same' ⊢
      rw [alike, same']
    · refine agree_pure ?_
      rw [bare_eq_iff, alike]

theorem agree_typeStep : Agree Located.bare (typeStep inner) (typeStep inner') := by
  intro ts us kept
  refine .next ?_
  cases ts with
  | nil => exact agreeAt_fail
  | cons t ts =>
    obtain ⟨t, s⟩ := t
    obtain ⟨s', us, rfl, others⟩ := kinds_cons kept
    have wrapped (s s' : Span) (wrap : TypeExpr → TypeExpr) :
        Agree Located.bare (wrapType s wrap <$> within inner) (wrapType s' wrap <$> within inner') := by
      refine agree.within.map fun a b same => ?_
      rw [bare_eq_iff] at same ⊢
      rw [wrapType, wrapType, same]
    rw [List.head?_cons, List.head?_cons]
    split
    · rename_i same
      cases same
      exact .skip (wrapped _ _ _ ts us others)
    · rename_i same
      cases same
      exact .skip (((agree_expect _ _).bind fun _ _ _ => wrapped _ _ _) ts us others)
    · rename_i same
      cases same
      exact .skip (wrapped _ _ _ ts us others)
    · rename_i same
      cases same
      exact .skip (((agree_expect _ _).bind fun _ _ _ => wrapped _ _ _) ts us others)
    · rename_i same
      cases same
      exact .skip ((agree_funcType agree _ _).within ts us others)
    · rename_i same
      cases same
      exact agree_namedType agree _ _ kept
    · exact agreeAt_fail

end

theorem agree_type : Agree Located.bare type type := by
  refine .sized fun n => ?_
  generalize n + 1 = n
  induction n with
  | zero => exact agree_fail
  | succ n ih => exact agree_typeStep ih

def ParamEntry.bare (e : ParamEntry) : ParamEntry := ⟨[], e.name.bare, e.ty.map fun x => (x.1.bare, x.2)⟩

def DecoratedParam.bare (d : DecoratedParam) : DecoratedParam := ⟨[], Bare.param d.param⟩

theorem shareTypes_bare (es : List ParamEntry) : shareTypes (es.map ParamEntry.bare) =
    (shareTypes es).map fun x => (x.1.map DecoratedParam.bare, x.2.map Located.bare) := by
  induction es with
  | nil => rfl
  | cons e es ih =>
    obtain ⟨ds, name, ty⟩ := e
    rw [List.map_cons, shareTypes, shareTypes, ih]
    cases shareTypes es with
    | none => rfl
    | some x =>
      obtain ⟨params, next⟩ := x
      cases ty <;> cases next <;> rfl

theorem misplacedVariadic?_isSome_bare (ps : List DecoratedParam) :
    (misplacedVariadic? (ps.map DecoratedParam.bare)).isSome = (misplacedVariadic? ps).isSome := by
  rw [misplacedVariadic?, misplacedVariadic?, ← List.map_dropLast, List.find?_map, Option.isSome_map]
  rfl

theorem agree_paramEntry : Agree ParamEntry.bare (paramEntry (pure [])) (paramEntry (pure [])) := by
  refine (agree_pure rfl : Agree id (pure []) (pure [])).both fun ds => agree_ident.bind fun name name' same =>
    (agree_eat _).bind fun dots dots' found => agree_peek.both fun following => ?_
  rw [found]
  split
  · refine agree_type.bind fun ty ty' typed => agree_pure ?_
    rw [ParamEntry.bare, ParamEntry.bare, same, Option.map_some, Option.map_some, typed]
  · refine agree_pure ?_
    rw [ParamEntry.bare, ParamEntry.bare, same]

theorem agree_plainParams : Agree (List.map Bare.param) plainParams plainParams := by
  have listed : Agree (List.map DecoratedParam.bare) (paramList (pure [])) (paramList (pure [])) := by
    refine (agree_expect _ _).bind fun _ _ _ => (agree_paramEntry.commaList _ _).bind ?_
    rintro ⟨es, close⟩ ⟨es', close'⟩ same
    have shared := congrArg shareTypes same
    rw [shareTypes_bare, shareTypes_bare] at shared
    dsimp only
    cases found : shareTypes es with
    | none => exact agree_fail
    | some x =>
      rw [found] at shared
      obtain ⟨x', found', pair⟩ := Option.map_eq_some_iff.mp shared.symm
      have params : x'.1.map DecoratedParam.bare = x.1.map DecoratedParam.bare := congrArg Prod.fst pair
      have misplaced := congrArg (fun ps => (misplacedVariadic? ps).isSome) params
      rw [misplacedVariadic?_isSome_bare, misplacedVariadic?_isSome_bare] at misplaced
      rw [found']
      dsimp only
      cases wrong : misplacedVariadic? x.1 with
      | some d => exact fun _ _ _ _ _ read => nomatch read
      | none =>
        rw [wrong, Option.isSome_none, Option.isSome_eq_false_iff, Option.isNone_iff_eq_none] at misplaced
        rw [misplaced]
        exact agree_pure params.symm
  refine listed.bind fun ps ps' same => agree_pure ?_
  have plain := congrArg (List.map (·.param)) same
  simpa [Function.comp_def, DecoratedParam.bare] using plain

theorem agree_resultList : Agree (List.map Located.bare) resultList resultList := by
  refine (agree_eat _).bind ?_
  rintro (_ | s) (_ | s') same
  · refine agree_peek.both fun following => ?_
    split
    · refine agree_type.bind fun t t' same => agree_pure ?_
      rw [List.map_singleton, List.map_singleton, same]
    · exact agree_pure rfl
  · cases same
  · cases same
  · exact (agree_type.commaList _ _).bind fun x x' same => agree_pure same

end ViewLang.Grammar
