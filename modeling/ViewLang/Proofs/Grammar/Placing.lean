import ViewLang.Proofs.Grammar.Descent
import ViewLang.Proofs.Syntax.Places

namespace ViewLang.Grammar

open Places Reader

variable {α β : Type} {source : List Char}

structure Ahead (source : List Char) (lo : Nat) (ts : Tokens) : Prop where
  spelled : ∀ t ∈ ts, Lexer.SpelledAt source t
  from_le : ∀ t ∈ ts, lo ≤ t.span.start
  ordered : ts.Pairwise fun t u => t.span.stop ≤ u.span.start

theorem proper_of_spelled {t : Located Token} (spelled : Lexer.SpelledAt source t) : Proper source t.span := by
  obtain ⟨less, piece, rest, ⟨before, whole, -, stop⟩, -⟩ := spelled
  refine ⟨less, ?_⟩
  rw [whole, byteLength_append, byteLength_append, stop]
  omega

namespace Ahead

variable {lo : Nat} {ts us : Tokens} {t : Located Token}

theorem suffix (ahead : Ahead source lo ts) (shorter : us <:+ ts) : Ahead source lo us :=
  ⟨fun t member => ahead.spelled t (shorter.subset member), fun t member => ahead.from_le t (shorter.subset member),
    ahead.ordered.sublist shorter.sublist⟩

theorem head (ahead : Ahead source lo (t :: ts)) : lo ≤ t.span.start ∧ Proper source t.span :=
  ⟨ahead.from_le t List.mem_cons_self, proper_of_spelled (ahead.spelled t List.mem_cons_self)⟩

theorem mark (ahead : Ahead source lo (t :: ts)) : Lies source lo t.span.stop (Places.mark t.span) :=
  ⟨ahead.head.1, Nat.le_refl _, ahead.head.2, trivial⟩

theorem tail (ahead : Ahead source lo (t :: ts)) : Ahead source t.span.stop ts :=
  ⟨fun u member => ahead.spelled u (List.mem_cons_of_mem t member), (List.pairwise_cons.mp ahead.ordered).1,
    (List.pairwise_cons.mp ahead.ordered).2⟩

theorem le_stop (ahead : Ahead source lo (t :: ts)) : lo ≤ t.span.stop := by
  obtain ⟨low, less, -⟩ := ahead.head
  omega

theorem word {text : String} (ahead : Ahead source lo (t :: ts))
    (same : ∀ piece, Lexer.Spells t.value piece → piece = text.toList) :
    Lies source lo t.span.stop (.word ⟨text, t.span⟩) := by
  refine ⟨ahead.head.1, Nat.le_refl _, ahead.head.2, ?_⟩
  obtain ⟨-, piece, rest, stands, spells⟩ := ahead.spelled t List.mem_cons_self
  exact ⟨rest, same piece spells ▸ stands⟩

end Ahead

def PutsAt (source : List Char) (lo : Nat) (ts : Tokens) (p : Reader α) (post : α → Nat → Prop) : Prop :=
  ∀ a rest, p ts = .ok (a, rest) → ∃ hi, lo ≤ hi ∧ Ahead source hi rest ∧ post a hi

def Puts (source : List Char) (lo : Nat) (p : Reader α) (post : α → Nat → Prop) : Prop :=
  ∀ ts, Ahead source lo ts → PutsAt source lo ts p post

def Placing (source : List Char) (p : Reader α) (view : α → Places) : Prop :=
  ∀ lo, Puts source lo p fun a hi => Lies source lo hi (view a)

section

variable {lo : Nat} {ts : Tokens} {p : Reader α} {f : α → Reader β} {mid : α → Nat → Prop} {post : β → Nat → Prop}

theorem PutsAt.bind (first : PutsAt source lo ts p mid)
    (next : ∀ a m, lo ≤ m → mid a m → Puts source m (f a) post) : PutsAt source lo ts (p >>= f) post := by
  intro b rest read
  obtain ⟨a, us, read₁, read₂⟩ := bind_ok.mp read
  obtain ⟨m, le, ahead, found⟩ := first a us read₁
  obtain ⟨hi, le', ahead', found'⟩ := next a m le found us ahead b rest read₂
  exact ⟨hi, Nat.le_trans le le', ahead', found'⟩

theorem Puts.bind (first : Puts source lo p mid) (next : ∀ a m, lo ≤ m → mid a m → Puts source m (f a) post) :
    Puts source lo (p >>= f) post :=
  fun ts ahead => (first ts ahead).bind next

theorem Puts.imp {post post' : α → Nat → Prop} (puts : Puts source lo p post)
    (weaker : ∀ a hi, lo ≤ hi → post a hi → post' a hi) : Puts source lo p post' := by
  intro ts ahead a rest read
  obtain ⟨hi, le, ahead', found⟩ := puts ts ahead a rest read
  exact ⟨hi, le, ahead', weaker a hi le found⟩

theorem Puts.map {g : α → β} (puts : Puts source lo p fun a hi => post (g a) hi) : Puts source lo (g <$> p) post := by
  intro ts ahead b rest read
  obtain ⟨a, read', rfl⟩ := map_ok.mp read
  exact puts ts ahead a rest read'

theorem Puts.within {post : α → Nat → Prop} (puts : Puts source lo p post) :
    Puts source lo (Reader.within p) post :=
  fun ts ahead a rest read => puts ts ahead a rest (within_ok.mp read)

theorem Puts.sized {q : Nat → Reader α} {post : α → Nat → Prop} (each : ∀ n, Puts source lo (q n) post) :
    Puts source lo (Reader.sized q) post :=
  fun ts ahead => each ts.length ts ahead

theorem Puts.pure {post : α → Nat → Prop} {a : α} (found : post a lo) : Puts source lo (Pure.pure a) post := by
  intro ts ahead b rest read
  obtain ⟨rfl, rfl⟩ := pure_ok.mp read
  exact ⟨lo, Nat.le_refl _, ahead, found⟩

theorem puts_fail {post : α → Nat → Prop} (what : String) : Puts source lo (fail what) post :=
  fun _ _ _ _ read => absurd (fail_ok.mp read) id

def Taken (source : List Char) (lo : Nat) (span : Span) (hi : Nat) : Prop :=
  hi = span.stop ∧ lo ≤ span.start ∧ Proper source span

theorem puts_look {g : Tokens → α} : Puts source lo (fun ts => .ok (g ts, ts)) fun _ _ => True := by
  intro ts ahead a rest read
  cases read
  exact ⟨lo, Nat.le_refl _, ahead, trivial⟩

theorem puts_second : Puts source lo second? fun _ _ => True := puts_look

theorem puts_peek : Puts source lo peek? fun _ _ => True := puts_look

theorem puts_at (t : Token) : Puts source lo (at? t) fun _ _ => True := puts_look

theorem puts_dropWhile (gap : Located Token → Bool) :
    Puts source lo (fun ts => .ok ((), ts.dropWhile gap)) fun _ _ => True := by
  intro ts ahead a rest read
  cases read
  exact ⟨lo, Nat.le_refl _, ahead.suffix (List.dropWhile_suffix gap), trivial⟩

theorem puts_skip : Puts source lo skip fun _ _ => True := by
  intro ts ahead a rest read
  cases read
  exact ⟨lo, Nat.le_refl _, ahead.suffix (List.tail_suffix ts), trivial⟩

theorem PutsAt.next {f : Option (Located Token) → Reader β} (next : PutsAt source lo ts (f ts.head?) post) :
    PutsAt source lo ts (next? >>= f) post := next

theorem PutsAt.peek {f : Option Token → Reader β} (next : PutsAt source lo ts (f (front ts)) post) :
    PutsAt source lo ts (peek? >>= f) post := next

theorem PutsAt.skip {t : Located Token} {f : Unit → Reader β} (ahead : Ahead source lo (t :: ts))
    (next : Puts source t.span.stop (f ()) post) : PutsAt source lo (t :: ts) (Reader.skip >>= f) post := by
  intro b rest read
  obtain ⟨hi, le, ahead', found⟩ := next ts ahead.tail b rest read
  exact ⟨hi, Nat.le_trans ahead.le_stop le, ahead', found⟩

theorem putsAt_expect (t : Token) (what : String) (ahead : Ahead source lo ts) :
    PutsAt source lo ts (expect t what) fun s hi => Taken source lo s hi ∧ ∃ u ∈ ts, u.span = s := by
  intro s rest read
  cases ts with
  | nil => cases read
  | cons u us =>
    rw [expect] at read
    split at read
    · cases read
      exact ⟨u.span.stop, ahead.le_stop, ahead.tail, ⟨rfl, ahead.head⟩, u, List.mem_cons_self, rfl⟩
    · cases read

theorem puts_expect (t : Token) (what : String) : Puts source lo (expect t what) (Taken source lo) := by
  intro ts ahead s rest read
  obtain ⟨hi, le, ahead', found, -⟩ := putsAt_expect t what ahead s rest read
  exact ⟨hi, le, ahead', found⟩

theorem puts_eat (t : Token) :
    Puts source lo (eat? t) fun o hi => ∀ s ∈ o, Taken source lo s hi := by
  intro ts ahead o rest read
  cases ts with
  | nil =>
    cases read
    exact ⟨lo, Nat.le_refl _, ahead, nofun⟩
  | cons u us =>
    rw [eat?] at read
    split at read
    · cases read
      refine ⟨u.span.stop, ahead.le_stop, ahead.tail, ?_⟩
      rintro _ ⟨⟩
      exact ⟨rfl, ahead.head⟩
    · cases read
      exact ⟨lo, Nat.le_refl _, ahead, nofun⟩

theorem placing_ident : Placing source ident word := by
  intro lo ts ahead n rest read
  rw [ident_ok.mp read] at ahead
  exact ⟨n.span.stop, ahead.le_stop, ahead.tail, ahead.word fun _ same => same⟩

theorem placing_stringLiteral : Placing source stringLiteral Located.place := by
  intro lo ts ahead n rest read
  unfold stringLiteral at read
  split at read
  · cases read
    exact ⟨_, ahead.le_stop, ahead.tail, ahead.mark⟩
  · cases read

theorem moreIdents_lie (ahead : Ahead source lo ts) :
    ∃ hi, lo ≤ hi ∧ Ahead source hi (moreIdents ts).2 ∧ Lies source lo hi (words (moreIdents ts).1) := by
  fun_induction moreIdents ts generalizing lo with
  | case1 s name span ts names rest more ih =>
    obtain ⟨hi, le, ahead', lies⟩ := ih ahead.tail.tail
    rw [more] at ahead' lies
    have behind := ahead.le_stop
    have behind' := ahead.tail.le_stop
    refine ⟨hi, by dsimp only at *; omega, ahead', ?_⟩
    exact ⟨span.stop, by dsimp only at *; omega, le, (ahead.tail.word fun _ same => same).lower behind, lies⟩
  | case2 => exact ⟨lo, Nat.le_refl _, ahead, trivial⟩

theorem placing_identList : Placing source identList words := by
  intro lo
  refine (placing_ident lo).bind fun first m le named => ?_
  intro ts ahead names rest read
  cases read
  obtain ⟨hi, le', ahead', lies⟩ := moreIdents_lie ahead
  exact ⟨hi, le', ahead', named.next le le' lies⟩

end

section

variable {lo : Nat} {view : α → Places}

structure Closes (source : List Char) (lo : Nat) (inside : Places) (close : Span) (hi : Nat) : Prop where
  taken : Taken source lo close hi
  inside : Lies source lo close.start inside

theorem lies_part {x : Places} {hi : Nat} {a b : Span} (low : lo ≤ a.start) (high : b.stop ≤ hi)
    (less : a.start < a.stop) (start : a.start ≤ b.start) (stop : a.stop ≤ b.stop) (within : b.stop ≤ byteLength source)
    (inside : Lies source a.start b.stop x) : Lies source lo hi (part (a.union b) x) := by
  rw [Span.union_eq start stop]
  exact ⟨low, high, ⟨Nat.lt_of_lt_of_le less stop, within⟩, inside⟩

/-- A part from its first token through the one that closes it. -/
theorem Closes.part {x : Places} {start close : Span} {m hi : Nat} (closes : Closes source m x close hi)
    (low : lo ≤ start.start) (less : start.start < start.stop) (le : start.stop ≤ m) :
    Lies source lo hi (part (start.union close) x) := by
  obtain ⟨⟨rfl, first, proper, within⟩, inside⟩ := closes
  exact lies_part low (Nat.le_refl _) less (by omega) (by omega) within (inside.mono (by omega) (by omega))

theorem Puts.whileSome {p : Reader (Option α)}
    (round : ∀ lo, Puts source lo p fun o hi => ∀ a ∈ o, Lies source lo hi (view a)) :
    Puts source lo (whileSome p) fun as hi => Lies source lo hi (row (as.map view)) := by
  refine .sized fun n => ?_
  generalize n + 1 = n
  induction n generalizing lo with
  | zero => exact .pure trivial
  | succ n ih =>
    refine (round lo).bind ?_
    rintro (_ | a) m le first
    · exact .pure trivial
    · refine ih.bind fun as hi le' others => .pure ?_
      exact (first a rfl).next le le' others

theorem Placing.commaList {item : Reader α} (close : Token) (what : String) (placing : Placing source item view) :
    Puts source lo (commaList close what item) fun x hi => Closes source lo (row (x.1.map view)) x.2 hi := by
  refine .sized fun n => ?_
  generalize n + 1 = n
  induction n generalizing lo with
  | zero => exact puts_fail _
  | succ n ih =>
    refine (puts_eat close).bind ?_
    rintro (_ | s) m le closed
    · refine (placing m).bind fun a m₁ le₁ first => (puts_eat _).bind ?_
      rintro (_ | s) m₂ le₂ _
      · refine (puts_expect _ _).bind ?_
        rintro s _ le₃ ⟨rfl, low, proper⟩
        have behind : m₁ ≤ s.start := by omega
        exact .pure ⟨⟨rfl, by dsimp only; omega, proper⟩,
          lies_row_single (first.mono le behind) (by dsimp only; omega)⟩
      · refine ih.bind ?_
        rintro ⟨as, s⟩ hi le₃ ⟨⟨rfl, low, proper⟩, others⟩
        dsimp only at low
        exact .pure ⟨⟨rfl, by dsimp only; omega, proper⟩, (first.mono le le₂).next (by omega) low others⟩
    · obtain ⟨rfl, low, proper⟩ := closed s rfl
      exact .pure ⟨⟨rfl, low, proper⟩, trivial⟩

theorem Placing.items {gap : Reader Unit} {item : Reader α} (close : Token)
    (passes : ∀ lo, Puts source lo gap fun _ _ => True) (placing : Placing source item view) :
    Puts source lo (items gap close item) fun x hi => Closes source lo (row (x.1.map view)) x.2 hi := by
  refine .sized fun n => ?_
  generalize n + 1 = n
  induction n generalizing lo with
  | zero => exact puts_fail _
  | succ n ih =>
    refine (passes lo).bind fun _ m₀ le₀ _ => (puts_eat close).bind ?_
    rintro (_ | s) m le closed
    · refine (placing m).bind fun a m₁ le₁ first => ih.bind ?_
      rintro ⟨as, s⟩ hi le₂ ⟨⟨rfl, low, proper⟩, others⟩
      dsimp only at low
      exact .pure ⟨⟨rfl, by dsimp only; omega, proper⟩, (first.lower (by omega)).next (by omega) low others⟩
    · obtain ⟨rfl, low, proper⟩ := closed s rfl
      exact .pure ⟨⟨rfl, Nat.le_trans le₀ low, proper⟩, trivial⟩

theorem Placing.unlessAt {p : Reader α} (placing : Placing source p view) (t : Token) :
    Placing source (unlessAt t p) (maybe view) := by
  intro lo
  refine (puts_at t).bind fun stop m le _ => ?_
  split
  · exact .pure trivial
  · exact .map ((placing m).imp fun a hi _ lies => lies.lower le)

end

section

variable {inner : Reader (Located TypeExpr)} (placing : Placing source inner Located.place)

theorem placing_typeName : Placing source typeName Located.place := by
  intro lo
  refine (placing_ident lo).bind fun first m₁ le₁ ⟨low, high, proper, _⟩ => (puts_at _).bind fun dot m₂ le₂ _ =>
    puts_second.bind fun member m₃ le₃ _ => ?_
  split
  · refine puts_skip.bind fun _ m₄ le₄ _ => (placing_ident m₄).bind fun name m₅ le₅ ⟨low', high', proper', _⟩ => ?_
    obtain ⟨less, -⟩ := proper
    obtain ⟨less', within⟩ := proper'
    exact .pure (lies_part low high' less (by omega) (by omega) within trivial)
  · exact .pure ⟨low, by omega, proper, trivial⟩

include placing

theorem placing_namedType : Placing source (namedType inner) Located.place := by
  intro lo
  refine (placing_typeName lo).bind fun name m₁ le₁ ⟨low, high, proper, _⟩ => (puts_at _).bind fun opens m₂ le₂ _ =>
    puts_second.bind fun next m₃ le₃ _ => ?_
  dsimp only
  split
  · refine puts_skip.bind fun _ m₄ le₄ _ => (placing m₄).within.bind fun arg m₅ le₅ _ => (puts_expect _ _).bind ?_
    rintro close _ le₆ ⟨rfl, low', less', within⟩
    obtain ⟨less, -⟩ := proper
    exact .pure (lies_part low (Nat.le_refl _) less (by omega) (by omega) within trivial)
  · exact .pure ⟨low, by dsimp only at *; omega, proper, trivial⟩

theorem puts_funcType {lo₀ lo : Nat} {start : Span} (low : lo₀ ≤ start.start) (less : start.start < start.stop)
    (le : start.stop ≤ lo) : Puts source lo (funcType inner start) fun ty hi => Lies source lo₀ hi ty.place := by
  refine (puts_expect _ _).bind fun _ m₁ le₁ _ => (placing.commaList _ _).bind ?_
  rintro ⟨params, close⟩ _ le₂ ⟨⟨rfl, low₂, less₂, within₂⟩, -⟩
  refine puts_peek.bind fun following m₃ le₃ _ => ?_
  dsimp only at *
  have closed : start.union close = ⟨start.start, close.stop⟩ := Span.union_eq (by omega) (by omega)
  have reach : start.start < close.stop := by omega
  rw [closed]
  split
  · refine puts_skip.bind fun _ m₄ le₄ _ => (placing.commaList _ _).bind ?_
    rintro ⟨results, close'⟩ _ le₅ ⟨⟨rfl, low₅, less₅, within₅⟩, -⟩
    dsimp only at *
    exact .pure (lies_part low (Nat.le_refl _) reach (by dsimp only; omega) (by dsimp only; omega) within₅ trivial)
  · split
    · refine (placing m₃).bind fun result m₄ le₄ ⟨low₄, high₄, ⟨less₄, within₄⟩, _⟩ => ?_
      exact .pure (lies_part low high₄ reach (by dsimp only; omega) (by dsimp only; omega) within₄ trivial)
    · exact .pure ⟨low, le₃, ⟨reach, within₂⟩, trivial⟩

theorem placing_typeStep : Placing source (typeStep inner) Located.place := by
  intro lo ts ahead
  have wrapped (start : Span) (m : Nat) (wrap : TypeExpr → TypeExpr) (low : lo ≤ start.start)
      (less : start.start < start.stop) (le : start.stop ≤ m) :
      Puts source m (wrapType start wrap <$> within inner) fun ty hi => Lies source lo hi ty.place := by
    refine .map ((placing m).within.imp fun ty hi _ ⟨low', high', ⟨less', within'⟩, _⟩ => ?_)
    exact lies_part low high' less (by omega) (by omega) within' trivial
  cases ts with
  | nil => exact puts_fail _ _ ahead
  | cons t ts =>
    obtain ⟨value, start⟩ := t
    obtain ⟨low, less, within⟩ := ahead.head
    rw [typeStep]
    refine .next ?_
    rw [List.head?_cons]
    split
    · rename_i same
      cases same
      exact .skip ahead (wrapped _ _ _ low less (Nat.le_refl _))
    · rename_i same
      cases same
      exact .skip ahead ((puts_expect _ _).bind fun _ m le _ => wrapped _ _ _ low less le)
    · rename_i same
      cases same
      exact .skip ahead (wrapped _ _ _ low less (Nat.le_refl _))
    · rename_i same
      cases same
      exact .skip ahead ((puts_expect _ _).bind fun _ m le _ => wrapped _ _ _ low less le)
    · rename_i same
      cases same
      exact .skip ahead (puts_funcType placing low less (Nat.le_refl _)).within
    · exact placing_namedType placing lo _ ahead
    · exact puts_fail _ _ ahead

end

theorem placing_type : Placing source type Located.place := by
  refine fun lo => .sized fun n => ?_
  generalize n + 1 = n
  induction n generalizing lo with
  | zero => exact puts_fail _
  | succ n ih => exact placing_typeStep ih lo

def ParamEntry.places (e : ParamEntry) : Places :=
  next (decoratorPlaces e.decorators) (next (word e.name) (maybe (fun ty => ty.1.place) e.ty))

theorem placing_paramEntry {decorators : Reader (List Decorator)}
    (decorated : Placing source decorators decoratorPlaces) :
    Placing source (paramEntry decorators) ParamEntry.places := by
  intro lo
  refine (decorated lo).bind fun ds m₁ le₁ before => (placing_ident m₁).bind fun name m₂ le₂ named =>
    (puts_eat _).bind fun ellipsis m₃ le₃ _ => puts_peek.bind fun following m₄ le₄ _ => ?_
  split
  · refine (placing_type m₄).bind fun ty m₅ le₅ typed => .pure ?_
    exact before.next le₁ (by omega) (named.next le₂ (by omega) (typed.lower (by omega)))
  · exact .pure (before.next le₁ (by omega) (named.next le₂ (by omega) trivial))

structure ParamLies (source : List Char) (lo hi : Nat) (d : DecoratedParam) : Prop where
  decorators : Lies source lo hi (decoratorPlaces d.decorators)
  name : Lies source lo hi (word d.param.name)
  ty : Lies source lo hi d.param.ty.place

/-- A type that is shared lies behind the names that share it, so no order is kept, but the bounds are. -/
theorem shareTypes_lie {lo hi : Nat} {entries : List ParamEntry} {params : List DecoratedParam}
    {next : Option (Located TypeExpr)} (shared : shareTypes entries = some (params, next))
    (lies : Lies source lo hi (row (entries.map ParamEntry.places))) :
    (∀ d ∈ params, ParamLies source lo hi d) ∧ ∀ ty ∈ next, Lies source lo hi ty.place := by
  induction entries generalizing lo params next with
  | nil =>
    cases shared
    exact ⟨nofun, nofun⟩
  | cons e es ih =>
    rw [shareTypes, Option.bind_eq_bind, Option.bind_eq_some_iff] at shared
    obtain ⟨⟨others, following⟩, shared', h⟩ := shared
    obtain ⟨m, low, high, first, rest⟩ := lies
    obtain ⟨m₁, low₁, high₁, before, m₂, low₂, high₂, named, typed⟩ := first
    obtain ⟨sound, later⟩ := ih shared' rest
    have decorators := before.mono (Nat.le_refl _) (Nat.le_trans high₁ high)
    have name := named.mono low₁ (Nat.le_trans high₂ high)
    have weaker (d : DecoratedParam) (member : d ∈ others) : ParamLies source lo hi d :=
      ⟨(sound d member).decorators.lower low, (sound d member).name.lower low, (sound d member).ty.lower low⟩
    dsimp only at h
    split at h
    · rename_i ty ellipsis own
      cases h
      rw [own] at typed
      have ty := typed.mono (Nat.le_trans low₁ low₂) high
      refine ⟨?_, ?_⟩
      · intro d member
        rcases List.mem_cons.mp member with rfl | member
        · exact ⟨decorators, name, ty⟩
        · exact weaker d member
      · rintro _ ⟨⟩
        exact ty
    · rename_i ty _
      cases h
      have ty := (later _ rfl).lower low
      refine ⟨?_, ?_⟩
      · intro d member
        rcases List.mem_cons.mp member with rfl | member
        · exact ⟨decorators, name, ty⟩
        · exact weaker d member
      · rintro _ ⟨⟩
        exact ty
    · cases h

theorem puts_paramList {lo : Nat} {decorators : Reader (List Decorator)}
    (decorated : Placing source decorators decoratorPlaces) :
    Puts source lo (paramList decorators) fun ds hi => ∀ d ∈ ds, ParamLies source lo hi d := by
  refine (puts_expect _ _).bind fun _ m le _ => ((placing_paramEntry decorated).commaList _ _).bind ?_
  rintro ⟨entries, close⟩ _ le' ⟨⟨rfl, low, less, within⟩, inside⟩
  dsimp only at *
  cases shared : shareTypes entries with
  | none => exact puts_fail _
  | some x =>
    dsimp only
    cases misplacedVariadic? x.1 with
    | none => exact .pure (shareTypes_lie shared (inside.mono le (by omega))).1
    | some d => exact fun _ _ _ _ read => nomatch read

theorem placing_plainParams : Placing source plainParams fun ps => bag (ps.map Param.places) := by
  intro lo
  have undecorated : Placing source (pure []) decoratorPlaces := fun _ => .pure trivial
  refine (puts_paramList undecorated).bind fun ds m le lie => .pure ?_
  rw [lies_bag, List.map_map]
  intro x found
  obtain ⟨d, member, rfl⟩ := List.mem_map.mp found
  exact ⟨(lie d member).name, (lie d member).ty⟩

theorem placing_resultList : Placing source resultList fun rs => row (rs.map Located.place) := by
  intro lo
  refine (puts_eat _).bind ?_
  rintro (_ | s) m le _
  · refine puts_peek.bind fun following m₁ le₁ _ => ?_
    split
    · refine (placing_type m₁).bind fun ty m₂ le₂ lies => .pure ?_
      exact lies_row_single (lies.lower (by omega)) (by omega)
    · exact .pure trivial
  · refine (placing_type.commaList _ _).bind ?_
    rintro ⟨results, close⟩ _ le₁ ⟨⟨rfl, low, less, within⟩, inside⟩
    dsimp only at *
    exact .pure (inside.mono le (by omega))

end ViewLang.Grammar
