import ViewLang.Proofs.Grammar.AgreedTrees
import ViewLang.Proofs.Grammar.Descent
import ViewLang.Proofs.Syntax.Phrases

namespace ViewLang.Grammar

open Reader
open Canonical (plain sym word commaEach commaSep)

variable {α β γ : Type}

def essential : Token → Bool
  | .symbol .comma => false
  | .symbol .leftParen => false
  | .symbol .rightParen => false
  | _ => true

def core (ts : Tokens) : List Token := (kinds ts).filter essential

@[simp] theorem core_nil : core [] = [] := rfl

@[simp] theorem core_cons (t : Located Token) (ts : Tokens) :
    core (t :: ts) = if essential t.value = true then t.value :: core ts else core ts := List.filter_cons

@[simp] theorem core_append (ts us : Tokens) : core (ts ++ us) = core ts ++ core us := by
  rw [core, kinds, List.map_append, List.filter_append]
  rfl

theorem mem_kinds_of_mem_core {ts : Tokens} {t : Token} (member : t ∈ core ts) : t ∈ kinds ts :=
  (List.mem_filter.mp member).1

theorem core_commaEach (pieces : List Tokens) : core (commaEach pieces) = pieces.flatMap core := by
  induction pieces with
  | nil => rfl
  | cons piece pieces ih =>
    rw [commaEach, List.flatMap_cons] at *
    rw [core_append, ih]
    rfl

theorem core_commaSep (pieces : List Tokens) : core (commaSep pieces) = pieces.flatMap core := by
  cases pieces with
  | nil => rfl
  | cons piece pieces => rw [commaSep, core_append, core_commaEach, List.flatMap_cons]

def Unpointed (ts : Tokens) : Prop := ∀ n, Token.ident n ∈ kinds ts → '.' ∉ n.toList

theorem Unpointed.split {ts us : Tokens} (unpointed : Unpointed (ts ++ us)) : Unpointed ts ∧ Unpointed us := by
  unfold Unpointed kinds at *
  rw [List.map_append] at unpointed
  exact ⟨fun n member => unpointed n (List.mem_append_left _ member),
    fun n member => unpointed n (List.mem_append_right _ member)⟩

theorem Unpointed.append {ts us : Tokens} (first : Unpointed ts) (second : Unpointed us) : Unpointed (ts ++ us) := by
  intro n member
  rw [kinds, List.map_append] at member
  rcases List.mem_append.mp member with left | right
  · exact first n left
  · exact second n right

theorem Unpointed.tail {t : Located Token} {ts : Tokens} (unpointed : Unpointed (t :: ts)) : Unpointed ts :=
  fun n member => unpointed n (List.mem_cons_of_mem _ member)

def PassesAt (ts : Tokens) (p : Reader α) (post : α → Tokens → Prop) : Prop :=
  ∀ a rest, p ts = .ok (a, rest) → ∃ used, ts = used ++ rest ∧ post a used

/-- The tokens that the reader passes over satisfy `post` with what it reads. -/
def Passes (p : Reader α) (post : α → Tokens → Prop) : Prop := ∀ ts, Unpointed ts → PassesAt ts p post

section

variable {ts : Tokens} {p : Reader α} {f : α → Reader β} {mid : α → Tokens → Prop} {post : β → Tokens → Prop}

theorem PassesAt.bind (unpointed : Unpointed ts) (first : PassesAt ts p mid)
    (next : ∀ a us, Unpointed us → mid a us → Passes (f a) fun b vs => post b (us ++ vs)) :
    PassesAt ts (p >>= f) post := by
  intro b rest read
  obtain ⟨a, left, read₁, read₂⟩ := bind_ok.mp read
  obtain ⟨us, rfl, found⟩ := first a left read₁
  obtain ⟨vs, rfl, found'⟩ := next a us unpointed.split.1 found left unpointed.split.2 b rest read₂
  exact ⟨us ++ vs, (List.append_assoc _ _ _).symm, found'⟩

theorem Passes.bind (first : Passes p mid)
    (next : ∀ a us, Unpointed us → mid a us → Passes (f a) fun b vs => post b (us ++ vs)) : Passes (p >>= f) post :=
  fun ts unpointed => (first ts unpointed).bind unpointed next

theorem Passes.imp {post post' : α → Tokens → Prop} (passes : Passes p post)
    (weaker : ∀ a us, Unpointed us → post a us → post' a us) : Passes p post' := by
  intro ts unpointed a rest read
  obtain ⟨us, rfl, found⟩ := passes ts unpointed a rest read
  exact ⟨us, rfl, weaker a us unpointed.split.1 found⟩

theorem passes_pure {post : α → Tokens → Prop} {a : α} (found : post a []) : Passes (pure a) post := by
  intro ts _ b rest read
  obtain ⟨rfl, rfl⟩ := pure_ok.mp read
  exact ⟨[], rfl, found⟩

theorem Passes.map {g : α → β} (passes : Passes p fun a us => post (g a) us) : Passes (g <$> p) post := by
  intro ts unpointed b rest read
  obtain ⟨a, read', rfl⟩ := map_ok.mp read
  exact passes ts unpointed a rest read'

theorem passes_fail {post : α → Tokens → Prop} {what : String} : Passes (fail what) post :=
  fun _ _ _ _ read => absurd (fail_ok.mp read) id

theorem Passes.within {post : α → Tokens → Prop} (passes : Passes p post) : Passes (Reader.within p) post :=
  fun ts unpointed a rest read => passes ts unpointed a rest (within_ok.mp read)

theorem Passes.sized {q : Nat → Reader α} {post : α → Tokens → Prop} (each : ∀ n, Passes (q n) post) :
    Passes (Reader.sized q) post :=
  fun ts unpointed => each ts.length ts unpointed

theorem PassesAt.next {f : Option (Located Token) → Reader β} (next : PassesAt ts (f ts.head?) post) :
    PassesAt ts (next? >>= f) post := next

theorem PassesAt.peek {f : Option Token → Reader β} (next : PassesAt ts (f (front ts)) post) :
    PassesAt ts (peek? >>= f) post := next

theorem PassesAt.second {f : Option Token → Reader β} (next : PassesAt ts (f (front ts.tail)) post) :
    PassesAt ts (second? >>= f) post := by
  rw [PassesAt, bind_of_ok second?_apply]
  exact next

theorem PassesAt.at {t : Token} {f : Bool → Reader β} (next : PassesAt ts (f (decide (front ts = some t))) post) :
    PassesAt ts (at? t >>= f) post := by
  rw [PassesAt, bind_of_ok (at?_apply t)]
  exact next

theorem PassesAt.skip {t : Located Token} {f : Unit → Reader β}
    (next : PassesAt ts (f ()) fun b us => post b (t :: us)) : PassesAt (t :: ts) (skip >>= f) post := by
  intro b rest read
  obtain ⟨us, rfl, found⟩ := next b rest read
  exact ⟨t :: us, rfl, found⟩

theorem PassesAt.ident {n : String} {s : Span} {f : Name → Reader β}
    (next : PassesAt ts (f ⟨n, s⟩) fun b us => post b (⟨.ident n, s⟩ :: us)) :
    PassesAt (⟨.ident n, s⟩ :: ts) (ident >>= f) post := by
  intro b rest read
  obtain ⟨us, rfl, found⟩ := next b rest read
  exact ⟨_ :: us, rfl, found⟩

theorem passes_of_alike {i : Nat} {p : Reader α} {post : α → Tokens → Prop} (alike : ∀ k, Alike i (k + 1) p p)
    (found : ∀ a us, Yields p a → post a us) : Passes p post := by
  intro ts _ a rest read
  obtain ⟨⟨used, whole⟩, -⟩ := (alike ts.length ts (Nat.lt_succ_self _)).ok read
  exact ⟨used, whole.symm, found a used ⟨ts, rest, read⟩⟩

end

theorem passes_expect (t : Token) (what : String) : Passes (expect t what) fun s us => us = [⟨t, s⟩] := by
  intro ts _ s rest read
  cases ts with
  | nil => cases read
  | cons u us =>
    unfold expect at read
    dsimp only at read
    split at read
    · rename_i found
      cases read
      exact ⟨[u], rfl, by rw [← found]⟩
    · cases read

theorem passes_eat (t : Token) : Passes (eat? t) fun o us => us = (o.map fun s => ⟨t, s⟩).toList := by
  intro ts _ o rest read
  cases ts with
  | nil =>
    cases read
    exact ⟨[], rfl, rfl⟩
  | cons u us =>
    unfold eat? at read
    dsimp only at read
    split at read
    · rename_i found
      cases read
      exact ⟨[u], rfl, by rw [← found]; rfl⟩
    · cases read
      exact ⟨[], rfl, rfl⟩

theorem passes_ident : Passes ident fun n us => us = [⟨.ident n.value, n.span⟩] := by
  intro ts _ n rest read
  exact ⟨[_], ident_ok.mp read, rfl⟩

def Shows (good : α → Prop) (view : α → List Token) (p : Reader α) : Prop :=
  Passes p fun a us => good a → core us = view a

section

variable {good : α → Prop} {view : α → List Token}

theorem Shows.whileSome {p : Reader (Option α)}
    (shows : Passes p fun o us => (∀ a ∈ o, good a) → core us = o.elim [] view) :
    Shows (fun as => ∀ a ∈ as, good a) (List.flatMap view) (whileSome p) := by
  refine .sized fun n => ?_
  generalize n + 1 = n
  induction n with
  | zero => exact passes_pure fun _ => rfl
  | succ n ih =>
    refine shows.bind ?_
    rintro (_ | a) us - first
    · refine passes_pure fun _ => ?_
      rw [List.append_nil, first nofun]
      rfl
    · refine ih.bind fun as vs _ others => passes_pure fun each => ?_
      obtain ⟨here, later⟩ := List.forall_mem_cons.mp each
      rw [List.append_nil, core_append, others later, first (by simpa using here), List.flatMap_cons]
      rfl

theorem Shows.commaList {item : Reader α} (shows : Shows good view item) (close : Token) (what : String) :
    Shows (fun x => ∀ a ∈ x.1, good a) (fun x => x.1.flatMap view ++ [close].filter essential)
      (commaList close what item) := by
  refine .sized fun n => ?_
  generalize n + 1 = n
  induction n with
  | zero => exact passes_fail
  | succ n ih =>
    refine (passes_eat close).bind ?_
    rintro (_ | s) _ - rfl
    · refine shows.bind fun a us _ first => (passes_eat _).bind ?_
      rintro (_ | s) _ - rfl
      · refine (passes_expect close what).bind ?_
        rintro s _ - rfl
        refine passes_pure fun each => ?_
        have alone := first (each a List.mem_cons_self)
        simp [alone, List.filter_cons]
      · refine ih.bind ?_
        rintro ⟨as, s'⟩ vs - others
        refine passes_pure fun each => ?_
        obtain ⟨here, later⟩ := List.forall_mem_cons.mp each
        simp [first here, others later, essential]
    · exact passes_pure fun _ => rfl

theorem Shows.unlessAt {p : Reader α} (shows : Shows good view p) (t : Token) :
    Passes (unlessAt t p) fun o us => (∀ a ∈ o, good a) → core us = o.elim [] view := by
  intro ts unpointed
  refine .at ?_
  cases decide (front ts = some t) with
  | true => exact passes_pure (fun _ => rfl) ts unpointed
  | false => exact (Passes.map (shows.imp fun a us _ found each => found (by simpa using each))) ts unpointed

end

theorem typeName_single {n : String} (unpointed : '.' ∉ n.toList) :
    Canonical.typeName .spare n = [plain (.ident n)] := by
  have nothing : n.toList.dropWhile (· != '.') = [] := by
    rw [← List.append_nil n.toList, List.dropWhile_append_of_pos, List.dropWhile_nil]
    intro c member
    simp only [bne_iff_ne, ne_eq]
    rintro rfl
    exact unpointed member
  rw [Canonical.typeName, nothing]
  rfl

theorem typeName_joined {n m : String} (unpointed : '.' ∉ n.toList) :
    Canonical.typeName .spare (n ++ "." ++ m) = [plain (.ident n), sym .dot, plain (.ident m)] := by
  have whole : (n ++ "." ++ m).toList = n.toList ++ '.' :: m.toList := by simp
  have plainName : ∀ c ∈ n.toList, (c != '.') = true := by
    intro c member
    simp only [bne_iff_ne, ne_eq]
    rintro rfl
    exact unpointed member
  have first : (n ++ "." ++ m).toList.takeWhile (· != '.') = n.toList := by
    rw [whole, List.takeWhile_append_of_pos plainName]
    simp
  have second : (n ++ "." ++ m).toList.dropWhile (· != '.') = '.' :: m.toList := by
    rw [whole, List.dropWhile_append_of_pos plainName]
    simp
  rw [Canonical.typeName, first, second]
  simp only [Canonical.NameStyle.parts, String.ofList_toList]

theorem shows_typeName : Passes typeName fun n us => core us = core (Canonical.typeName .spare n.value) := by
  refine passes_ident.bind ?_
  rintro n _ unpointed rfl
  have noPoint : '.' ∉ n.value.toList := unpointed n.value List.mem_cons_self
  intro ts unpointed'
  refine .at (.second ?_)
  cases ts with
  | nil =>
    refine passes_pure ?_ [] unpointed'
    rw [typeName_single noPoint]
    rfl
  | cons t ts =>
    split
    · rename_i dot member
      have isDot : t.value = .symbol .dot := by simpa using dot
      refine .skip (passes_ident.bind ?_ ts unpointed'.tail)
      rintro m _ - rfl
      refine passes_pure ?_
      rw [typeName_joined noPoint]
      simp [isDot, essential]
    · refine passes_pure ?_ _ unpointed'
      rw [typeName_single noPoint]
      rfl

section

variable {inner : Reader (Located TypeExpr)}
  (shows : Passes inner fun t us => core us = core (Canonical.type .spare t.value))

include shows

theorem shows_namedType : Passes (namedType inner) fun t us => core us = core (Canonical.type .spare t.value) := by
  refine shows_typeName.bind fun name us _ named => ?_
  intro ts unpointed
  refine .at (.second ?_)
  cases ts with
  | nil => exact passes_pure (by rw [List.append_nil, named]; rfl) [] unpointed
  | cons t ts =>
    dsimp only
    split
    · rename_i opened
      have isBracket : t.value = .symbol .leftBracket := by
        simp at opened
        exact opened.1
      refine .skip (shows.within.bind ?_ ts unpointed.tail)
      intro arg vs _ inside
      refine (passes_expect _ _).bind ?_
      rintro s _ - rfl
      refine passes_pure ?_
      rw [Canonical.type]
      simp [isBracket, named, inside, essential]
    · exact passes_pure (by rw [List.append_nil, named]; rfl) _ unpointed

omit shows in
theorem core_funcResults (pieces : List Tokens) : core (Canonical.funcResults .spare pieces) = pieces.flatMap core := by
  rcases pieces with _ | ⟨first, _ | ⟨second, pieces⟩⟩
  · rfl
  · simp [Canonical.funcResults]
  · simp [Canonical.funcResults, core_commaSep, essential]

omit shows in
theorem core_func (params results : List TypeExpr) : core (Canonical.type .spare (.func params results)) =
    .keyword .func :: (params.flatMap (fun t => core (Canonical.type .spare t)) ++
      results.flatMap fun t => core (Canonical.type .spare t)) := by
  rw [Canonical.type, Canonical.types_eq_map, Canonical.types_eq_map]
  simp [core_funcResults, core_commaSep, essential, List.flatMap_map]

theorem shows_funcType (start : Span) (t : Located Token) (isFunc : t.value = .keyword .func) :
    Passes (funcType inner start) fun ty us => core (t :: us) = core (Canonical.type .spare ty.value) := by
  have listed := Shows.commaList (shows.imp fun _ _ _ found (_ : True) => found) (.symbol .rightParen) "`)`"
  refine (passes_expect _ _).bind ?_
  rintro s _ - rfl
  refine listed.bind ?_
  rintro ⟨params, close⟩ us - first
  have first := first fun _ _ => trivial
  intro ts unpointed
  refine .peek ?_
  dsimp only
  split
  · rename_i opens
    cases ts with
    | nil => cases opens
    | cons u ts =>
      have isParen : u.value = .symbol .leftParen := by simpa using opens
      refine .skip (listed.bind ?_ ts unpointed.tail)
      rintro ⟨results, close'⟩ vs - second
      have second := second fun _ _ => trivial
      refine passes_pure ?_
      rw [core_func]
      simp [isFunc, isParen, first, second, essential, List.flatMap_map]
  · split
    · refine shows.bind (fun result vs _ second => passes_pure ?_) ts unpointed
      rw [core_func]
      simp [isFunc, first, second, essential, List.flatMap_map]
    · refine passes_pure ?_ ts unpointed
      rw [core_func]
      simp [isFunc, first, essential, List.flatMap_map]

theorem shows_typeStep : Passes (typeStep inner) fun t us => core us = core (Canonical.type .spare t.value) := by
  intro ts unpointed
  refine .next ?_
  cases ts with
  | nil => exact passes_fail [] unpointed
  | cons t ts =>
    obtain ⟨t, s⟩ := t
    have later : Unpointed ts := unpointed.tail
    rw [List.head?_cons]
    split
    · rename_i same
      cases same
      refine .skip (Passes.map (shows.within.imp ?_) ts later)
      intro ty us _ found
      rw [wrapType, Canonical.type]
      simp [found, essential]
    · rename_i same
      cases same
      refine .skip ((passes_expect _ _).bind ?_ ts later)
      rintro s' _ - rfl
      refine .map (shows.within.imp ?_)
      intro ty us _ found
      rw [wrapType, Canonical.type]
      simp [found, essential]
    · rename_i same
      cases same
      refine .skip (Passes.map (shows.within.imp ?_) ts later)
      intro ty us _ found
      rw [wrapType, Canonical.type]
      simp [found, essential]
    · rename_i same
      cases same
      refine .skip ((passes_expect _ _).bind ?_ ts later)
      rintro s' _ - rfl
      refine .map (shows.within.imp ?_)
      intro ty us _ found
      rw [wrapType, Canonical.type]
      simp [found, essential]
    · rename_i same
      cases same
      exact .skip ((shows_funcType shows _ _ rfl).within ts later)
    · exact shows_namedType shows _ unpointed
    · exact passes_fail _ unpointed

end

theorem shows_type : Passes type fun t us => core us = core (Canonical.type .spare t.value) := by
  refine .sized fun n => ?_
  generalize n + 1 = n
  induction n with
  | zero => exact passes_fail
  | succ n ih => exact shows_typeStep ih

def Flat : Phrase → Prop
  | .operand (.template _) => False
  | .operand (.func ..) => False
  | _ => True

def AllFlat (whole : Phrase) : Prop := whole.Throughout Flat

theorem AllFlat.child {whole part : Phrase} (flat : AllFlat whole) (child : part ∈ whole.children) : AllFlat part :=
  (Phrase.throughout_iff.mp flat).2 part child

theorem allFlat_selectField {p : Primary} {f : Name} (flat : AllFlat (.operand (selectField p f))) :
    AllFlat (.operand p) := by
  cases p with
  | select b path span => exact Phrase.throughout_iff.mpr ⟨trivial, fun part child => flat.child child⟩
  | _ => exact flat.child List.mem_cons_self

theorem allFlat_callOperand {p : Primary} {args : List Expr} {close : Span}
    (flat : AllFlat (.operand (callOperand p args close))) :
    AllFlat (.operand p) ∧ ∀ e ∈ args, AllFlat (.expr e) := by
  have inside (e : Expr) (member : e ∈ args) : Phrase.expr e ∈ args.map Phrase.expr := List.mem_map_of_mem member
  cases p with
  | select b path span =>
    refine ⟨Phrase.throughout_iff.mpr ⟨trivial, fun part child => flat.child ?_⟩, fun e member => flat.child ?_⟩
    · exact List.mem_append_left _ child
    · exact List.mem_append_right _ (inside e member)
  | _ =>
    exact ⟨flat.child List.mem_cons_self, fun e member => flat.child (List.mem_cons_of_mem _ (inside e member))⟩

theorem symbol_of_binaryOp? {t : Token} {op : BinaryOp} (found : binaryOp? t = some op) : t = .symbol op.symbol := by
  unfold binaryOp? at found
  split at found <;> cases found <;> rfl

theorem symbol_of_unaryOp? {t : Token} {op : UnaryOp} (found : unaryOp? t = some op) : t = .symbol op.symbol := by
  unfold unaryOp? at found
  split at found <;> cases found <;> rfl

theorem essential_binary (op : BinaryOp) : essential (.symbol op.symbol) = true := by
  cases op <;> rfl

theorem essential_unary (op : UnaryOp) : essential (.symbol op.symbol) = true := by
  cases op <;> rfl

theorem compositeType?_some {p : Primary} {ty : Located TypeExpr} (found : compositeType? p = some ty) :
    ∃ n path s, p = .select (.name n) path s ∧ path.length ≤ 1 ∧
      ty.value = .named (".".intercalate (n.value :: path.map (·.value))) := by
  unfold compositeType? at found
  split at found
  · rename_i b path s
    split at found
    · rename_i short
      obtain ⟨text, named, rfl⟩ := Option.map_eq_some_iff.mp found
      obtain ⟨n, isName, rfl⟩ := Option.map_eq_some_iff.mp named
      cases b with
      | operand p => cases isName
      | name m =>
        obtain rfl : m = n := Option.some.inj isName
        exact ⟨m, path, s, rfl, short, rfl⟩
    · cases found
  · cases found

/-- An operand that names a type is written as the name of the type. -/
theorem core_compositeType {p : Primary} {ty : Located TypeExpr} {us : Tokens} (found : compositeType? p = some ty)
    (unpointed : Unpointed us) (shown : AllFlat (.operand p) → core us = core (Canonical.primary .spare p)) :
    core us = core (Canonical.type .spare ty.value) := by
  obtain ⟨n, path, s, rfl, short, named⟩ := compositeType?_some found
  have shown := shown (Phrase.throughout_iff.mpr ⟨trivial, nofun⟩)
  rw [Canonical.primary, Canonical.base] at shown
  have member : Token.ident n.value ∈ core us := by
    rw [shown]
    exact List.mem_cons_self
  have noPoint := unpointed n.value (mem_kinds_of_mem_core member)
  rw [shown, named, Canonical.type]
  rcases path with _ | ⟨f, _ | ⟨g, path⟩⟩
  · rw [List.map_nil, String.intercalate_singleton, typeName_single noPoint]
    rfl
  · have joined : ".".intercalate [n.value, f.value] = n.value ++ "." ++ f.value := by
      simp [String.intercalate_cons_cons, String.append_assoc]
    rw [List.map_singleton, joined, typeName_joined noPoint]
    rfl
  · simp at short

theorem core_flatMap (as : List α) (piece : α → Tokens) :
    core (as.flatMap piece) = as.flatMap fun a => core (piece a) := by
  rw [core, kinds, List.map_flatMap, List.filter_flatMap]
  rfl

theorem core_exprs (es : List Expr) :
    (Canonical.exprs .spare es).flatMap core = es.flatMap fun e => core (Canonical.expr .spare e) := by
  rw [Canonical.exprs_eq_map, List.flatMap_map]

theorem core_optional (o : Option Expr) :
    core (Canonical.optional .spare o) = o.elim [] fun e => core (Canonical.expr .spare e) := by
  cases o <;> rfl

structure RulesShow (r : Rules) : Prop where
  primary : ∀ c, Shows (fun p => AllFlat (.operand p)) (fun p => core (Canonical.primary .spare p)) (r.primary c)
  advance : ∀ k, RulesAlike k r r

section

variable {r : Rules} (rules : RulesShow r)

include rules

theorem shows_link (c : Bool) : Passes (link? r c) fun o us =>
    (∀ l ∈ o, AllFlat (.operand l.operand)) → core us = o.elim [] fun l => core (Canonical.link .spare l) := by
  intro ts unpointed
  refine .next ?_
  cases ts with
  | nil => exact passes_pure (fun _ => rfl) [] unpointed
  | cons t ts =>
    rw [List.head?_cons]
    dsimp only
    split
    · exact passes_pure (fun _ => rfl) _ unpointed
    · rename_i op found
      refine .skip (((rules.primary c).within.bind fun operand us _ shown => passes_pure fun flat => ?_) ts
        unpointed.tail)
      have shown := shown (flat _ rfl)
      simp [Canonical.link, shown, symbol_of_binaryOp? found, essential_binary]

theorem shows_exprWith (c : Bool) : Shows (fun e => AllFlat (.expr e)) (fun e => core (Canonical.expr .spare e))
    (exprWith r c) := by
  refine (rules.primary c).bind fun head us _ first => (Shows.whileSome (shows_link rules c)).bind
    fun tail vs _ links => passes_pure fun flat => ?_
  obtain ⟨-, flatHead, flatTail⟩ := Phrase.throughout_expr.mp flat
  have first := first flatHead
  have links := links fun l member => (flatTail l member).2
  simp only [Canonical.expr_eq, Canonical.links_eq_flatMap, core_append, core_flatMap, List.append_nil, first,
    links]

theorem shows_callArgs : Shows (fun x => ∀ e ∈ x.1, AllFlat (.expr e))
    (fun x => x.1.flatMap fun e => core (Canonical.expr .spare e)) (callArgs r) := by
  refine ((shows_exprWith rules true).commaList _ _).imp fun x us _ shown flat => ?_
  rw [shown flat]
  exact List.append_nil _

theorem shows_indexRest {target : Primary} {ts : Tokens}
    (shown : AllFlat (.operand target) → core ts = core (Canonical.primary .spare target)) (s : Span) :
    Passes (indexRest r target) fun p us =>
      AllFlat (.operand p) → core (ts ++ ⟨.symbol .leftBracket, s⟩ :: us) = core (Canonical.primary .spare p) := by
  have inside := (shows_exprWith rules true).unlessAt
  rw [indexRest_eq]
  refine (inside _).bind fun low us _ first => (passes_eat _).bind ?_
  rintro (_ | s) _ - rfl
  · cases low with
    | none => exact passes_fail
    | some i =>
      refine (passes_expect _ _).bind ?_
      rintro s _ - rfl
      refine passes_pure fun flat => ?_
      have shown := shown (flat.child List.mem_cons_self)
      have inner : AllFlat (.expr i) := flat.child (List.mem_cons_of_mem _ List.mem_cons_self)
      have first := first (by simpa using inner)
      simp [Canonical.primary, shown, first, essential]
  · refine (inside _).bind fun high vs _ second => (passes_expect _ _).bind ?_
    rintro s' _ - rfl
    refine passes_pure fun flat => ?_
    obtain ⟨-, flatTarget, flatLow, flatHigh⟩ := Phrase.throughout_slice.mp flat
    simp [Canonical.primary, core_optional, shown flatTarget, first flatLow, second flatHigh, essential]

theorem shows_entry : Shows (fun e => AllFlat (.expr e.value)) (fun e => core (Canonical.entry .spare e))
    (entry r) := by
  intro ts unpointed
  refine .peek (.second ?_)
  split
  · rename_i n named colon
    rcases ts with _ | ⟨⟨t, s⟩, _ | ⟨⟨u, s'⟩, ts⟩⟩
    · cases named
    · cases colon
    · cases named
      cases colon
      refine .ident (.skip ?_)
      refine ((shows_exprWith rules true).bind fun value us _ shown => passes_pure fun flat => ?_) ts
        unpointed.tail.tail
      simp [Canonical.entry, shown flat, essential]
  · refine ((shows_exprWith rules true).bind fun value us _ shown => passes_pure fun flat => ?_) ts unpointed
    rw [List.append_nil]
    exact shown flat

theorem shows_compositeBody {ty : Located TypeExpr} {ts : Tokens}
    (shown : core ts = core (Canonical.type .spare ty.value)) : Passes (compositeBody r ty) fun p us =>
      AllFlat (.operand p) → core (ts ++ us) = core (Canonical.primary .spare p) := by
  refine (passes_expect _ _).bind ?_
  rintro s _ - rfl
  refine ((shows_entry rules).commaList _ _).bind ?_
  rintro ⟨es, close⟩ us - entries
  refine passes_pure fun flat => ?_
  have entries := entries fun e member => flat.child (List.mem_map_of_mem (f := fun e => Phrase.expr e.value) member)
  simp [Canonical.primary, Canonical.entries_eq_map, core_commaSep, List.flatMap_map, shown, entries, essential]

theorem shows_suffix (c : Bool) {p : Primary} {ts : Tokens} (unpointed : Unpointed ts)
    (shown : AllFlat (.operand p) → core ts = core (Canonical.primary .spare p)) :
    Passes (suffix? r c p) fun o us => (o = none → us = []) ∧
      ∀ longer ∈ o, AllFlat (.operand longer) → core (ts ++ us) = core (Canonical.primary .spare longer) := by
  intro us unpointed'
  have stop : PassesAt us (pure none : Reader (Option Primary)) fun o us => (o = none → us = []) ∧
      ∀ longer ∈ o, AllFlat (.operand longer) → core (ts ++ us) = core (Canonical.primary .spare longer) :=
    passes_pure ⟨fun _ => rfl, nofun⟩ us unpointed'
  refine .peek ?_
  cases us with
  | nil => exact stop
  | cons t us =>
    obtain ⟨t, s⟩ := t
    rw [front_cons]
    dsimp only
    split
    · rename_i same
      cases same
      refine .skip ((passes_ident.within.bind ?_) us unpointed'.tail)
      rintro f _ - rfl
      refine passes_pure ⟨nofun, ?_⟩
      rintro _ ⟨⟩ flat
      rw [tokens_selectField]
      simp [shown (allFlat_selectField flat), essential]
    · rename_i same
      cases same
      refine .skip (((shows_callArgs rules).within.bind ?_) us unpointed'.tail)
      rintro ⟨args, close⟩ vs - listed
      refine passes_pure ⟨nofun, ?_⟩
      rintro _ ⟨⟩ flat
      obtain ⟨before, inside⟩ := allFlat_callOperand flat
      rw [tokens_callOperand]
      simp [core_commaSep, core_exprs, shown before, listed inside, essential]
    · rename_i same
      cases same
      refine .skip ((Passes.map ((shows_indexRest rules shown s).within.imp ?_)) us unpointed'.tail)
      intro longer vs _ found
      refine ⟨nofun, ?_⟩
      rintro _ ⟨⟩ flat
      exact found flat
    · split
      · rename_i ty typed
        have body := shows_compositeBody rules (core_compositeType typed unpointed shown)
        refine (Passes.map (body.within.imp ?_)) _ unpointed'
        intro longer vs _ found
        refine ⟨nofun, ?_⟩
        rintro _ ⟨⟩ flat
        exact found flat
      · exact stop
    · exact stop

theorem shows_suffixes (c : Bool) {p : Primary} {ts : Tokens} (unpointed : Unpointed ts)
    (shown : AllFlat (.operand p) → core ts = core (Canonical.primary .spare p)) : Passes (suffixes r c p) fun p us =>
      AllFlat (.operand p) → core (ts ++ us) = core (Canonical.primary .spare p) := by
  refine .sized fun n => ?_
  generalize n + 1 = n
  induction n generalizing p ts with
  | zero => exact passes_pure (by rwa [List.append_nil])
  | succ n ih =>
    refine (shows_suffix rules c unpointed shown).bind ?_
    rintro (_ | longer) us unpointed' ⟨stops, found⟩
    · refine passes_pure ?_
      rwa [stops rfl, List.append_nil, List.append_nil]
    · refine (ih (unpointed.append unpointed') (found longer rfl)).imp fun p vs _ shown flat => ?_
      rw [← List.append_assoc]
      exact shown flat

theorem shows_makeArg : Passes (makeArg? r) fun o us =>
    (∀ e ∈ o, AllFlat (.expr e)) → core us = o.elim [] fun e => core (Canonical.expr .spare e) := by
  refine (passes_eat _).bind ?_
  rintro (_ | s) _ - rfl
  · exact passes_pure fun _ => rfl
  · exact ((shows_exprWith rules true).unlessAt _).imp fun o us _ shown flat => shown flat

theorem shows_makeExpr : Shows (fun p => AllFlat (.operand p)) (fun p => core (Canonical.primary .spare p))
    (makeExpr r) := by
  refine (passes_expect _ _).bind ?_
  rintro start _ - rfl
  refine .within ((passes_expect _ _).bind ?_)
  rintro s _ - rfl
  refine shows_type.bind fun ty us _ typed => (Shows.whileSome (shows_makeArg rules)).bind fun args vs _ listed =>
    (passes_expect _ _).bind ?_
  rintro close _ - rfl
  refine passes_pure fun flat => ?_
  have listed := listed fun e member => flat.child (List.mem_map_of_mem member)
  simp [Canonical.primary, core_commaEach, core_exprs, typed, listed, essential]

theorem shows_operandWith {t : Located Token} {ts : Tokens} (unpointed : Unpointed (t :: ts)) :
    PassesAt (t :: ts) (operandWith r t) fun p us =>
      AllFlat (.operand p) → core us = core (Canonical.primary .spare p) := by
  obtain ⟨t, s⟩ := t
  unfold operandWith
  dsimp only
  split
  · exact .skip (passes_pure (fun _ => rfl) ts unpointed.tail)
  · exact .skip (passes_pure (fun _ => rfl) ts unpointed.tail)
  · exact .skip (passes_pure (fun _ => rfl) ts unpointed.tail)
  · refine Passes.map (passes_of_alike (fun k => templateWith_alike (rules.advance k)) ?_) _ unpointed
    exact fun t us _ flat => absurd (flat _ .refl) id
  · refine passes_of_alike (fun k => funcLiteral_alike (rules.advance k)) ?_ _ unpointed
    rintro p us ⟨ts, rest, read⟩ flat
    obtain ⟨start, left, -, read⟩ := bind_ok.mp read
    obtain ⟨ps, left₁, -, read⟩ := bind_ok.mp (within_ok.mp read)
    obtain ⟨rs, left₂, -, read⟩ := bind_ok.mp read
    obtain ⟨body, left₃, -, read⟩ := bind_ok.mp read
    obtain ⟨rfl, rfl⟩ := pure_ok.mp read
    exact absurd (flat _ .refl) id
  · exact shows_makeExpr rules _ unpointed
  · refine .skip (((shows_exprWith rules true).within.bind fun e us _ shown => (passes_expect _ _).bind ?_) ts
      unpointed.tail)
    rintro s' _ - rfl
    refine passes_pure fun flat => ?_
    simp [Canonical.primary, shown (flat.child List.mem_cons_self), essential]
  · exact (shows_type.bind fun ty us _ typed => (shows_compositeBody rules typed).within) _ unpointed
  · refine Passes.map (passes_ident.imp ?_) _ unpointed
    rintro n _ - rfl -
    rfl
  · exact passes_fail _ unpointed

theorem shows_primaryStep (c : Bool) : Shows (fun p => AllFlat (.operand p))
    (fun p => core (Canonical.primary .spare p)) (primaryStep r c) := by
  intro ts unpointed
  refine .next ?_
  cases ts with
  | nil => exact passes_fail [] unpointed
  | cons t ts =>
    rw [List.head?_cons]
    dsimp only
    split
    · rename_i op found
      refine .skip (((rules.primary c).within.bind fun operand us _ shown => passes_pure fun flat => ?_) ts
        unpointed.tail)
      have shown := shown (flat.child List.mem_cons_self)
      simp [Canonical.primary, shown, symbol_of_unaryOp? found, essential_unary]
    · split
      · rename_i arrow
        refine .skip ((passes_ident.within.bind ?_) ts unpointed.tail)
        rintro channel _ - rfl
        refine passes_pure fun _ => ?_
        simp [Canonical.primary, arrow, essential]
      · exact (shows_operandWith rules unpointed).bind unpointed fun operand us unpointed' shown =>
          shows_suffixes rules c unpointed' shown

end

theorem rules_show (n : Nat) : RulesShow (rules n) := by
  induction n with
  | zero => exact ⟨fun _ => passes_fail, fun k => rules_advance k 0⟩
  | succ n ih => exact ⟨shows_primaryStep ih, fun k => rules_advance k (n + 1)⟩

/-- What is passed over in reading an expression without templates and function literals, from tokens whose names have
no points, is the canonical text of the expression but for commas and parentheses. -/
theorem expr_consumes {n : Nat} {c : Bool} {ts rest : Tokens} {e : Expr} (unpointed : Unpointed ts)
    (read : exprWith (rules n) c ts = .ok (e, rest)) (flat : AllFlat (.expr e)) :
    ∃ used, ts = used ++ rest ∧ core used = core (Canonical.expr .spare e) := by
  obtain ⟨used, whole, shown⟩ := shows_exprWith (rules_show n) c ts unpointed e rest read
  exact ⟨used, whole, shown flat⟩

end ViewLang.Grammar
