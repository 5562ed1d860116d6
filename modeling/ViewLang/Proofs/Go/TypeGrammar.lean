import ViewLang.Proofs.Go.TypeRereading

namespace ViewLang.Go

inductive Direction
  | both
  | send
  | receive

inductive Ty
  | named (name : String) (args : List Ty)
  | chan (direction : Direction) (elem : Ty)
  | slice (elem : Ty)
  | pointer (elem : Ty)
  | map (key value : Ty)
  | func (params results : List Ty)

namespace Ty

def reserved : List String :=
  ["break", "case", "chan", "const", "continue", "default", "defer", "else", "fallthrough", "for", "func", "go", "goto",
    "if", "import", "interface", "map", "package", "range", "return", "select", "struct", "switch", "type", "var"]

/-- What is read from tokens leaves the tokens behind it. -/
abbrev Reader := StateT (List Token) Option

def next : Reader Token
  | [] => none
  | t :: ts => some (t, ts)

def peek : Reader (Option Token) := fun ts => some (ts.head?, ts)

def expect (t : Token) : Reader Unit := do
  if (← next) = t then pure () else failure

/-- Reads the token if it is the next one, and says whether it was. -/
def found (t : Token) : Reader Bool := fun ts =>
  if ts.head? = some t then some (true, ts.tail) else some (false, ts)

def name : Reader String := do
  match ← next with
  | .ident n => if n ∈ reserved then failure else pure n
  | .keyword k => if k.text ∈ reserved then failure else pure k.text
  | _ => failure

def typeName : Reader String := do
  let first ← name
  if ← found (.symbol .dot) then pure (first ++ "." ++ (← name)) else pure first

def listUpTo (close : Token) (inner : Reader Ty) : Nat → Reader (List Ty)
  | 0 => failure
  | n + 1 => do
    if ← found close then pure []
    else
      let t ← inner
      if ← found (.symbol .comma) then pure (t :: (← listUpTo close inner n))
      else
        expect close
        pure [t]

def list (close : Token) (inner : Reader Ty) : Reader (List Ty) := fun ts => listUpTo close inner (ts.length + 1) ts

def starts : Token → Bool
  | .ident _ => true
  | .keyword k => k = .chan || k = .func || k = .make
  | .symbol s => s ∈ [Symbol.star, .leftBracket, .leftParen, .arrow]
  | _ => false

/-- Results are types in parentheses, or one type without them. -/
def results (inner : Reader Ty) : Reader (List Ty) := do
  if ← found (.symbol .leftParen) then list (.symbol .rightParen) inner
  else if (← peek).any starts then pure [← inner]
  else pure []

def namedType (inner : Reader Ty) : Reader Ty := do
  let n ← typeName
  if ← found (.symbol .leftBracket) then
    match ← list (.symbol .rightBracket) inner with
    | [] => failure
    | args => pure (.named n args)
  else pure (.named n [])

def step (inner : Reader Ty) : Reader Ty := do
  match ← peek with
  | some (.symbol .star) =>
    let _ ← next
    pointer <$> inner
  | some (.symbol .leftBracket) =>
    let _ ← next
    expect (.symbol .rightBracket)
    slice <$> inner
  | some (.symbol .leftParen) =>
    let _ ← next
    let t ← inner
    expect (.symbol .rightParen)
    pure t
  | some (.symbol .arrow) =>
    let _ ← next
    expect (.keyword .chan)
    chan .receive <$> inner
  | some (.keyword .chan) =>
    let _ ← next
    if ← found (.symbol .arrow) then chan .send <$> inner else chan .both <$> inner
  | some (.keyword .func) =>
    let _ ← next
    expect (.symbol .leftParen)
    let params ← list (.symbol .rightParen) inner
    func params <$> results inner
  | some (.ident "map") =>
    let _ ← next
    expect (.symbol .leftBracket)
    let key ← inner
    expect (.symbol .rightBracket)
    map key <$> inner
  | _ => namedType inner

def upTo : Nat → Reader Ty
  | 0 => failure
  | n + 1 => step (upTo n)

/-- The type that Go reads from a text that is all of it. Each level of nesting takes a token. -/
def ofText? (text : String) : Option Ty :=
  match tokenize text with
  | .error _ => none
  | .ok ts =>
    match (upTo (ts.length + 1)).run (Grammar.kinds ts) with
    | some (t, []) => some t
    | _ => none

end Ty

def nameParts (n : String) : List String :=
  match n.toList.dropWhile (· != '.') with
  | [] => [n]
  | _ :: member => [.ofList (n.toList.takeWhile (· != '.')), .ofList member]

def Unreserved (n : String) : Prop := ∀ w ∈ nameParts n, w ∉ Ty.reserved

instance (n : String) : Decidable (Unreserved n) := inferInstanceAs (Decidable (∀ w ∈ nameParts n, w ∉ Ty.reserved))

def carried (behindChan : Bool) (t : Ty) : Ty := if behindChan then .chan .both t else t

mutual

def read? (behindChan : Bool) : TypeExpr → Option Ty
  | .named n => if Unreserved n then some (carried behindChan (.named n [])) else none
  | .generic n arg =>
    if Unreserved n then (read? false arg).map fun t => carried behindChan (.named n [t]) else none
  | .chan true elem =>
    if behindChan then (read? true elem).map (.chan .send) else (read? false elem).map (.chan .receive)
  | .chan false elem => (read? true elem).map (carried behindChan)
  | .slice elem => (read? false elem).map fun t => carried behindChan (.slice t)
  | .pointer elem => (read? false elem).map fun t => carried behindChan (.pointer t)
  | .func params results =>
    (readEach? params).bind fun params => (readEach? results).map fun results =>
      carried behindChan (.func params results)

def readEach? : List TypeExpr → Option (List Ty)
  | [] => some []
  | t :: ts => (read? false t).bind fun first => (readEach? ts).map (first :: ·)

end

open Layout (Piece tokens)

def nameTokens (n : String) : List Token := tokens (Layout.typeName n)

def tokensOf (t : TypeExpr) : List Token := tokens (Layout.type t)

def listTokens (ts : List TypeExpr) : List Token := tokens (Layout.commaSep (Layout.types ts))

def resultTokens (ts : List TypeExpr) : List Token := tokens (Layout.results (Layout.types ts))

@[simp] theorem tokensOf_named (n : String) : tokensOf (.named n) = nameTokens n := rfl

@[simp] theorem tokensOf_generic (n : String) (arg : TypeExpr) : tokensOf (.generic n arg) =
    nameTokens n ++ .symbol .leftBracket :: (tokensOf arg ++ [.symbol .rightBracket]) := by
  simp [tokensOf, nameTokens, Layout.type, Piece.tokens]

@[simp] theorem tokensOf_receive (elem : TypeExpr) :
    tokensOf (.chan true elem) = .symbol .arrow :: .keyword .chan :: tokensOf elem := rfl

@[simp] theorem tokensOf_chan (elem : TypeExpr) : tokensOf (.chan false elem) = .keyword .chan :: tokensOf elem := rfl

@[simp] theorem tokensOf_slice (elem : TypeExpr) :
    tokensOf (.slice elem) = .symbol .leftBracket :: .symbol .rightBracket :: tokensOf elem := rfl

@[simp] theorem tokensOf_pointer (elem : TypeExpr) : tokensOf (.pointer elem) = .symbol .star :: tokensOf elem := rfl

@[simp] theorem tokensOf_func (params results : List TypeExpr) : tokensOf (.func params results) =
    .keyword .func :: .symbol .leftParen :: (listTokens params ++ .symbol .rightParen :: resultTokens results) := by
  simp [tokensOf, listTokens, resultTokens, Layout.type, Piece.tokens]

@[simp] theorem listTokens_nil : listTokens [] = [] := rfl

@[simp] theorem listTokens_singleton (t : TypeExpr) : listTokens [t] = tokensOf t := rfl

@[simp] theorem listTokens_cons_cons (t t' : TypeExpr) (ts : List TypeExpr) :
    listTokens (t :: t' :: ts) = tokensOf t ++ .symbol .comma :: listTokens (t' :: ts) := by
  simp [listTokens, tokensOf, Layout.types, Layout.commaSep, Piece.tokens]

@[simp] theorem resultTokens_nil : resultTokens [] = [] := rfl

@[simp] theorem resultTokens_singleton (t : TypeExpr) : resultTokens [t] = tokensOf t := rfl

@[simp] theorem resultTokens_cons_cons (t t' : TypeExpr) (ts : List TypeExpr) :
    resultTokens (t :: t' :: ts) = .symbol .leftParen :: (listTokens (t :: t' :: ts) ++ [.symbol .rightParen]) := by
  simp [resultTokens, listTokens, Layout.types, Layout.results, Piece.tokens]

theorem nameTokens_cases (n : String) :
    (nameTokens n = [.ident n] ∧ nameParts n = [n]) ∨
      ∃ p m, nameTokens n = [.ident p, .symbol .dot, .ident m] ∧ nameParts n = [p, m] ∧ p ++ "." ++ m = n := by
  cases split : n.toList.dropWhile (· != '.') with
  | nil =>
    refine .inl ⟨?_, ?_⟩
    · simp [nameTokens, Layout.typeName, split, Piece.tokens]
    · simp [nameParts, split]
  | cons c member =>
    refine .inr ⟨_, _, ?_, ?_, Grammar.joined_parts split⟩
    · simp [nameTokens, Layout.typeName, split, Piece.tokens]
    · simp [nameParts, split]

namespace Ty

variable {inner : Reader Ty} {rest : List Token}

@[simp] theorem next_cons (t : Token) (ts : List Token) : next.run (t :: ts) = some (t, ts) := rfl

@[simp] theorem peek_cons (t : Token) (ts : List Token) : peek.run (t :: ts) = some (some t, t :: ts) := rfl

@[simp] theorem expect_self (t : Token) (ts : List Token) : (expect t).run (t :: ts) = some ((), ts) := by
  simp [expect]

theorem found_run (t : Token) (ts : List Token) :
    (found t).run ts = if ts.head? = some t then some (true, ts.tail) else some (false, ts) := rfl

@[simp] theorem found_self (t : Token) (ts : List Token) : (found t).run (t :: ts) = some (true, ts) := by
  simp [found_run]

theorem found_other {t : Token} {ts : List Token} (other : ts.head? ≠ some t) :
    (found t).run ts = some (false, ts) := by
  rw [found_run, if_neg other]

theorem expect_other {t : Token} {ts : List Token} (other : ts.head? ≠ some t) : (expect t).run ts = none := by
  cases ts with
  | nil => rfl
  | cons u us =>
    have different : u ≠ t := fun same => other (congrArg some same)
    simp [expect, different]

def Ends (rest : List Token) : Prop :=
  ∀ t ∈ rest.head?, t = .symbol .comma ∨ t = .symbol .rightParen ∨ t = .symbol .rightBracket

theorem Ends.head_ne {t : Token} (ended : Ends rest)
    (other : t ≠ .symbol .comma ∧ t ≠ .symbol .rightParen ∧ t ≠ .symbol .rightBracket) : rest.head? ≠ some t := by
  intro head
  rcases ended t head with rfl | rfl | rfl
  · exact other.1 rfl
  · exact other.2.1 rfl
  · exact other.2.2 rfl

theorem ends_cons {t : Token} (ts : List Token)
    (ending : t = .symbol .comma ∨ t = .symbol .rightParen ∨ t = .symbol .rightBracket) : Ends (t :: ts) := by
  rintro _ ⟨⟩
  exact ending

theorem upTo_ends (n : Nat) (ended : Ends rest) : (upTo n).run rest = none := by
  cases n with
  | zero => rfl
  | succ n =>
    cases rest with
    | nil => rfl
    | cons t ts =>
      rcases ended t rfl with rfl | rfl | rfl
      · rfl
      · rfl
      · rfl

theorem name_run (n : String) (ts : List Token) :
    name.run (.ident n :: ts) = if n ∈ reserved then none else some (n, ts) := by
  simp only [name, StateT.run_bind, next_cons, Option.bind_eq_bind, Option.bind_some]
  split
  · rfl
  · rfl

theorem typeName_run (n : String) (noDot : rest.head? ≠ some (.symbol .dot)) :
    typeName.run (nameTokens n ++ rest) = if Unreserved n then some (n, rest) else none := by
  rcases nameTokens_cases n with ⟨written, parts⟩ | ⟨p, m, written, parts, joined⟩
  · have plain : Unreserved n ↔ n ∉ reserved := by simp [Unreserved, parts]
    rw [written, List.singleton_append]
    by_cases taken : n ∈ reserved
    · rw [if_neg fun free => plain.mp free taken]
      simp [typeName, name_run, taken]
    · rw [if_pos (plain.mpr taken)]
      simp [typeName, name_run, taken, found_other noDot]
  · have both : Unreserved n ↔ p ∉ reserved ∧ m ∉ reserved := by simp [Unreserved, parts]
    rw [written, List.cons_append, List.cons_append, List.singleton_append]
    by_cases taken : p ∈ reserved
    · rw [if_neg fun free => (both.mp free).1 taken]
      simp [typeName, name_run, taken]
    · by_cases taken' : m ∈ reserved
      · rw [if_neg fun free => (both.mp free).2 taken']
        simp [typeName, name_run, taken, taken']
      · rw [if_pos (both.mpr ⟨taken, taken'⟩)]
        simp [typeName, name_run, taken, taken', joined]

theorem tokensOf_starts (t : TypeExpr) : ∃ u us, tokensOf t = u :: us ∧ Grammar.startsType (some u) = true := by
  have opens := Grammar.startsType_type .spare t
  rw [tokensOf, ← (Layout.render_lays t).kinds]
  cases first : Canonical.type .spare t with
  | nil =>
    rw [first] at opens
    cases opens
  | cons u us =>
    rw [first] at opens
    exact ⟨_, _, rfl, opens⟩

theorem head_ne_of_starts (t : TypeExpr) {u : Token} (other : Grammar.startsType (some u) = false)
    (rest : List Token) : (tokensOf t ++ rest).head? ≠ some u := by
  obtain ⟨v, us, written, opens⟩ := tokensOf_starts t
  rw [written]
  rintro ⟨⟩
  rw [opens] at other
  cases other

theorem starts_of_startsType {u : Token} (opens : Grammar.startsType (some u) = true) : starts u = true := by
  cases u with
  | ident n => rfl
  | keyword k => cases k <;> first | rfl | cases opens
  | symbol s => cases s <;> first | rfl | cases opens
  | _ => cases opens

def ReadsTypes (inner : Reader Ty) (ts : List TypeExpr) : Prop :=
  ∀ t ∈ ts, ∀ rest, Ends rest → inner.run (tokensOf t ++ rest) = (read? false t).map (·, rest)

/-- The types of a list are read one after the other, if each of them is. -/
theorem listUpTo_run {close : Token} (closes : close = .symbol .rightParen ∨ close = .symbol .rightBracket)
    {ts : List TypeExpr} (each : ReadsTypes inner ts) {n : Nat} (rounds : ts.length < n) :
    (listUpTo close inner n).run (listTokens ts ++ close :: rest) = (readEach? ts).map (·, rest) := by
  have notStart : Grammar.startsType (some close) = false := by rcases closes with rfl | rfl <;> rfl
  have notComma : close ≠ .symbol .comma := by rcases closes with rfl | rfl <;> nofun
  induction n generalizing ts with
  | zero => exact absurd rounds (Nat.not_lt_zero _)
  | succ n ih =>
    cases ts with
    | nil => simp [listUpTo, readEach?]
    | cons t ts =>
      obtain ⟨here, later⟩ := List.forall_mem_cons.mp each
      have opened (us : List Token) := found_other (head_ne_of_starts t notStart us)
      cases ts with
      | nil =>
        have last : (found (.symbol .comma)).run (close :: rest) = some (false, close :: rest) :=
          found_other (by simpa using notComma)
        have first := here (close :: rest) (ends_cons rest (.inr closes))
        cases value : read? false t with
        | none => simp [listUpTo, readEach?, opened, first, value]
        | some v => simp [listUpTo, readEach?, opened, first, value, last]
      | cons t' ts =>
        have others := ih later (Nat.lt_of_succ_lt_succ rounds)
        have first := here (.symbol .comma :: (listTokens (t' :: ts) ++ close :: rest)) (ends_cons _ (.inl rfl))
        rw [listTokens_cons_cons, List.append_assoc, List.cons_append, listUpTo, readEach?]
        cases value : read? false t with
        | none => simp [opened, first, value]
        | some v =>
          simp [opened, first, value, others, Function.comp_def]

theorem length_le_listTokens (ts : List TypeExpr) : ts.length ≤ (listTokens ts).length := by
  induction ts with
  | nil => exact Nat.le_refl _
  | cons t ts ih =>
    obtain ⟨u, us, written, -⟩ := tokensOf_starts t
    cases ts with
    | nil => simp [written]
    | cons t' ts =>
      rw [listTokens_cons_cons, List.length_append, written]
      simp only [List.length_cons] at ih ⊢
      omega

theorem tokensOf_le_listTokens {t : TypeExpr} {ts : List TypeExpr} (member : t ∈ ts) :
    (tokensOf t).length ≤ (listTokens ts).length := by
  induction ts with
  | nil => cases member
  | cons t' ts ih =>
    cases ts with
    | nil =>
      obtain rfl := List.mem_singleton.mp member
      exact Nat.le_refl _
    | cons t'' ts =>
      rw [listTokens_cons_cons, List.length_append, List.length_cons]
      rcases List.mem_cons.mp member with rfl | later
      · omega
      · have := ih later
        omega

theorem tokensOf_le_resultTokens {t : TypeExpr} {ts : List TypeExpr} (member : t ∈ ts) :
    (tokensOf t).length ≤ (resultTokens ts).length := by
  have inside := tokensOf_le_listTokens member
  rcases ts with _ | ⟨t', _ | ⟨t'', ts⟩⟩
  · cases member
  · exact inside
  · rw [resultTokens_cons_cons, List.length_cons, List.length_append]
    omega

theorem list_run {close : Token} (closes : close = .symbol .rightParen ∨ close = .symbol .rightBracket)
    {ts : List TypeExpr} (each : ReadsTypes inner ts) :
    (list close inner).run (listTokens ts ++ close :: rest) = (readEach? ts).map (·, rest) := by
  refine listUpTo_run closes each ?_
  have := length_le_listTokens ts
  rw [List.length_append]
  omega

theorem results_run {ts : List TypeExpr} (each : ReadsTypes inner ts) (ended : Ends rest) :
    (results inner).run (resultTokens ts ++ rest) = (readEach? ts).map (·, rest) := by
  rcases ts with _ | ⟨t, _ | ⟨t', ts⟩⟩
  · have noParen : (found (.symbol .leftParen)).run rest = some (false, rest) :=
      found_other (ended.head_ne (by decide))
    have noType : peek.run rest = some (rest.head?, rest) := rfl
    have noStart : rest.head?.any starts = false := by
      cases rest with
      | nil => rfl
      | cons u us => rcases ended u rfl with rfl | rfl | rfl <;> rfl
    simp [results, noParen, noType, noStart, readEach?]
  · have noParen := found_other (head_ne_of_starts t (u := .symbol .leftParen) rfl rest)
    have first := each t List.mem_cons_self rest ended
    obtain ⟨u, us, written, opens⟩ := tokensOf_starts t
    rw [resultTokens_singleton, readEach?, readEach?]
    rw [written, List.cons_append] at noParen first ⊢
    cases value : read? false t with
    | none => simp [results, noParen, starts_of_startsType opens, first, value]
    | some v => simp [results, noParen, starts_of_startsType opens, first, value]
  · have inside : _ = (readEach? (t :: t' :: ts)).map (·, rest) := list_run (.inl rfl) each
    rw [resultTokens_cons_cons]
    simp only [results, List.cons_append, List.append_assoc, List.nil_append, StateT.run_bind, found_self,
      Option.bind_eq_bind, Option.bind_some, if_pos]
    exact inside

theorem namedType_plain (n : String) (ended : Ends rest) :
    (namedType inner).run (nameTokens n ++ rest) = if Unreserved n then some (.named n [], rest) else none := by
  have noArguments : (found (.symbol .leftBracket)).run rest = some (false, rest) :=
    found_other (ended.head_ne (by decide))
  have read := typeName_run n (ended.head_ne (t := .symbol .dot) (by decide))
  by_cases free : Unreserved n
  · rw [if_pos free] at read ⊢
    simp [namedType, read, noArguments]
  · rw [if_neg free] at read ⊢
    simp [namedType, read]

theorem namedType_generic (n : String) {arg : TypeExpr} (each : ReadsTypes inner [arg]) (rest : List Token) :
    (namedType inner).run (tokensOf (.generic n arg) ++ rest) = (read? false (.generic n arg)).map (·, rest) := by
  have arguments : (list (.symbol .rightBracket) inner).run (listTokens [arg] ++ .symbol .rightBracket :: rest) =
    (readEach? [arg]).map (·, rest) := list_run (.inr rfl) each
  rw [listTokens_singleton] at arguments
  have noDot (us : List Token) : (Token.symbol .leftBracket :: us).head? ≠ some (.symbol .dot) := by
    rintro ⟨⟩
  have read := typeName_run n (noDot (tokensOf arg ++ .symbol .rightBracket :: rest))
  rw [tokensOf_generic, List.append_assoc, List.cons_append, List.append_assoc, List.singleton_append, read?]
  by_cases free : Unreserved n
  · rw [if_pos free] at read ⊢
    cases value : read? false arg with
    | none => simp [namedType, read, arguments, readEach?, value]
    | some t => simp [namedType, read, arguments, readEach?, value, carried]
  · rw [if_neg free] at read ⊢
    simp [namedType, read]

theorem step_name {w : String} (other : w ≠ "map") (ts : List Token) :
    (step inner).run (.ident w :: ts) = (namedType inner).run (.ident w :: ts) := by
  simp [step, other]

/-- Behind `map` stands the type of the keys in brackets. -/
theorem step_map_other {ts : List Token} (other : ts.head? ≠ some (.symbol .leftBracket)) :
    (step inner).run (.ident "map" :: ts) = none := by
  simp [step, expect_other other]

/-- Behind the type of the keys stands the type of the values. -/
theorem step_map_alone {arg : TypeExpr} (each : ReadsTypes inner [arg]) (stops : inner.run rest = none) :
    (step inner).run (.ident "map" :: .symbol .leftBracket :: (tokensOf arg ++ .symbol .rightBracket :: rest)) =
      none := by
  have key := each arg List.mem_cons_self (.symbol .rightBracket :: rest) (ends_cons _ (.inr (.inr rfl)))
  cases value : read? false arg with
  | none => simp [step, key, value]
  | some t => simp [step, key, value, stops]

theorem not_unreserved_map {n : String} {ws : List String} (parts : nameParts n = "map" :: ws) : ¬ Unreserved n := by
  intro free
  exact free "map" (by rw [parts]; exact List.mem_cons_self) (by decide)

theorem step_named (n : String) (ended : Ends rest) :
    (step inner).run (nameTokens n ++ rest) = (read? false (.named n)).map (·, rest) := by
  have read : (namedType inner).run _ = _ := namedType_plain n ended
  have value : (read? false (.named n)).map (·, rest) = if Unreserved n then some (.named n [], rest) else none := by
    rw [read?, apply_ite (Option.map _)]
    rfl
  rw [value, ← read]
  rcases nameTokens_cases n with ⟨written, parts⟩ | ⟨p, m, written, parts, -⟩
  · by_cases isMap : n = "map"
    · rw [isMap] at parts written
      rw [read, isMap, if_neg (not_unreserved_map parts), written]
      exact step_map_other (ended.head_ne (by decide))
    · rw [written]
      exact step_name isMap _
  · by_cases isMap : p = "map"
    · rw [isMap] at parts written
      rw [read, if_neg (not_unreserved_map parts), written]
      exact step_map_other (by rintro ⟨⟩)
    · rw [written]
      exact step_name isMap _

theorem step_generic (n : String) {arg : TypeExpr} (each : ReadsTypes inner [arg]) (stops : inner.run rest = none) :
    (step inner).run (tokensOf (.generic n arg) ++ rest) = (read? false (.generic n arg)).map (·, rest) := by
  have read := namedType_generic n each rest
  have refused (reserved : ¬ Unreserved n) : (read? false (.generic n arg)).map (·, rest) = none := by
    rw [read?, if_neg reserved]
    rfl
  rw [tokensOf_generic] at read ⊢
  rw [List.append_assoc, List.cons_append, List.append_assoc, List.singleton_append] at read ⊢
  rcases nameTokens_cases n with ⟨written, parts⟩ | ⟨p, m, written, parts, -⟩
  · by_cases isMap : n = "map"
    · rw [isMap] at parts written
      rw [refused (isMap ▸ not_unreserved_map parts), isMap, written]
      exact step_map_alone each stops
    · rw [written] at read ⊢
      rw [← read]
      exact step_name isMap _
  · rw [written] at read ⊢
    by_cases isMap : p = "map"
    · rw [isMap] at parts ⊢
      rw [refused (not_unreserved_map parts)]
      exact step_map_other (by rintro ⟨⟩)
    · rw [← read]
      exact step_name isMap _

theorem step_func {params results : List TypeExpr} (first : ReadsTypes inner params)
    (second : ReadsTypes inner results) (ended : Ends rest) :
    (step inner).run (tokensOf (.func params results) ++ rest) =
      (read? false (.func params results)).map (·, rest) := by
  have inside (us : List Token) : (list (.symbol .rightParen) inner).run
    (listTokens params ++ .symbol .rightParen :: us) = (readEach? params).map (·, us) := list_run (.inl rfl) first
  have behind := results_run second ended
  rw [tokensOf_func, List.cons_append, List.cons_append, List.append_assoc, List.cons_append, read?]
  cases value : readEach? params with
  | none => simp [step, inside, value]
  | some ps =>
    cases value' : readEach? results with
    | none => simp [step, inside, behind, value, value']
    | some rs => simp [step, inside, behind, value, value', carried]

/-- Only a receive-only channel starts with an arrow. -/
theorem head_ne_arrow {t : TypeExpr} (other : ∀ e, t ≠ .chan true e) (rest : List Token) :
    (tokensOf t ++ rest).head? ≠ some (.symbol .arrow) := by
  cases t with
  | named n =>
    rcases nameTokens_cases n with ⟨written, -⟩ | ⟨p, m, written, -⟩
    · rw [tokensOf_named, written]
      rintro ⟨⟩
    · rw [tokensOf_named, written]
      rintro ⟨⟩
  | generic n arg =>
    rcases nameTokens_cases n with ⟨written, -⟩ | ⟨p, m, written, -⟩
    · rw [tokensOf_generic, written]
      rintro ⟨⟩
    · rw [tokensOf_generic, written]
      rintro ⟨⟩
  | chan recvOnly elem =>
    cases recvOnly with
    | true => exact absurd rfl (other elem)
    | false => rintro ⟨⟩
  | slice elem => rintro ⟨⟩
  | pointer elem => rintro ⟨⟩
  | func params results =>
    rw [tokensOf_func]
    rintro ⟨⟩

/-- Everything but a receive-only channel is read behind `chan` as it is read alone. -/
theorem read?_behindChan {t : TypeExpr} (other : ∀ e, t ≠ .chan true e) :
    read? true t = (read? false t).map (.chan .both) := by
  cases t with
  | named n =>
    rw [read?, read?, apply_ite (Option.map _)]
    rfl
  | generic n arg =>
    rw [read?, read?, apply_ite (Option.map _), Option.map_map]
    rfl
  | chan recvOnly elem =>
    cases recvOnly with
    | true => exact absurd rfl (other elem)
    | false =>
      rw [read?, read?, Option.map_map]
      rfl
  | slice elem =>
    rw [read?, read?, Option.map_map]
    rfl
  | pointer elem =>
    rw [read?, read?, Option.map_map]
    rfl
  | func params results =>
    rw [read?, read?, Option.map_bind]
    simp only [Function.comp_def, Option.map_map]
    rfl

theorem read?_chan (elem : TypeExpr) : read? false (.chan false elem) = read? true elem := by
  rw [read?]
  cases read? true elem with
  | none => rfl
  | some t => rfl

/-- Behind `chan`, an arrow is read before anything else. -/
theorem step_chan {elem : TypeExpr} (undirected : ReadsTypes inner [elem])
    (directed : ∀ e, elem = .chan true e →
      inner.run (.keyword .chan :: (tokensOf e ++ rest)) = (read? true e).map (·, rest)) (ended : Ends rest) :
    (step inner).run (.keyword .chan :: (tokensOf elem ++ rest)) = (read? true elem).map (·, rest) := by
  by_cases receive : ∃ e, elem = .chan true e
  · obtain ⟨e, rfl⟩ := receive
    have read := directed e rfl
    rw [tokensOf_receive, List.cons_append, List.cons_append, read?, if_pos rfl]
    cases value : read? true e with
    | none => simp [step, read, value]
    | some t => simp [step, read, value]
  · have other (e : TypeExpr) : elem ≠ .chan true e := fun same => receive ⟨e, same⟩
    have noArrow := found_other (head_ne_arrow other rest)
    have read := undirected elem List.mem_cons_self rest ended
    rw [read?_behindChan other]
    cases value : read? false elem with
    | none => simp [step, noArrow, read, value]
    | some t => simp [step, noArrow, read, value]

theorem step_wrapped {t elem : TypeExpr} (read : inner.run (tokensOf elem ++ rest) = (read? false elem).map (·, rest))
    (wrapped : t = .slice elem ∨ t = .pointer elem ∨ t = .chan true elem) :
    (step inner).run (tokensOf t ++ rest) = (read? false t).map (·, rest) := by
  rcases wrapped with rfl | rfl | rfl
  · cases value : read? false elem with
    | none => simp [step, read?, read, value]
    | some e => simp [step, read?, read, value, carried]
  · cases value : read? false elem with
    | none => simp [step, read?, read, value]
    | some e => simp [step, read?, read, value, carried]
  · cases value : read? false elem with
    | none => simp [step, read?, read, value]
    | some e => simp [step, read?, read, value]

/-- The bound goes down with each nested type, and so does the number of tokens. -/
theorem upTo_run (n : Nat) :
    (∀ t, (tokensOf t).length < n → ∀ rest, Ends rest →
      (upTo n).run (tokensOf t ++ rest) = (read? false t).map (·, rest)) ∧
    ∀ t, (tokensOf t).length + 1 < n → ∀ rest, Ends rest →
      (upTo n).run (.keyword .chan :: (tokensOf t ++ rest)) = (read? true t).map (·, rest) := by
  induction n with
  | zero => exact ⟨fun t short => absurd short (Nat.not_lt_zero _), fun t short => absurd short (Nat.not_lt_zero _)⟩
  | succ n ih =>
    obtain ⟨plain, behindChan⟩ := ih
    have each {ts : List TypeExpr} (short : ∀ t ∈ ts, (tokensOf t).length < n) : ReadsTypes (upTo n) ts :=
      fun t member => plain t (short t member)
    have channel (t : TypeExpr) (short : (tokensOf t).length < n) (rest : List Token) (ended : Ends rest) :
        (upTo (n + 1)).run (.keyword .chan :: (tokensOf t ++ rest)) = (read? true t).map (·, rest) := by
      refine step_chan (each (List.forall_mem_singleton.mpr short)) ?_ ended
      rintro e rfl
      rw [tokensOf_receive, List.length_cons, List.length_cons] at short
      exact behindChan e (by omega) rest ended
    refine ⟨?_, fun t short => channel t (by omega)⟩
    intro t short rest ended
    cases t with
    | named name => exact step_named name ended
    | generic name arg =>
      rw [tokensOf_generic, List.length_append, List.length_cons, List.length_append] at short
      exact step_generic name (each (List.forall_mem_singleton.mpr (by omega))) (upTo_ends n ended)
    | chan recvOnly elem =>
      cases recvOnly with
      | true =>
        rw [tokensOf_receive, List.length_cons, List.length_cons] at short
        exact step_wrapped (plain elem (by omega) rest ended) (.inr (.inr rfl))
      | false =>
        rw [tokensOf_chan, List.length_cons] at short
        rw [read?_chan]
        exact channel elem (by omega) rest ended
    | slice elem =>
      rw [tokensOf_slice, List.length_cons, List.length_cons] at short
      exact step_wrapped (plain elem (by omega) rest ended) (.inl rfl)
    | pointer elem =>
      rw [tokensOf_pointer, List.length_cons] at short
      exact step_wrapped (plain elem (by omega) rest ended) (.inr (.inl rfl))
    | func params results =>
      rw [tokensOf_func, List.length_cons, List.length_cons, List.length_append, List.length_cons] at short
      refine step_func (each fun t member => ?_) (each fun t member => ?_) ended
      · have := tokensOf_le_listTokens member
        omega
      · have := tokensOf_le_resultTokens member
        omega

theorem ofText?_render {t : TypeExpr} (readable : Layout.AllReadable (Layout.type t)) :
    ofText? t.render = read? false t := by
  obtain ⟨ts, lexed, same⟩ := Layout.render_tokenizes readable
  have written : Grammar.kinds ts = tokensOf t := same.trans (Layout.render_lays t).kinds
  have length : ts.length = (tokensOf t).length := by rw [← written, Grammar.kinds, List.length_map]
  have nothing : Ends [] := by
    intro k member
    cases member
  have read := (upTo_run (ts.length + 1)).1 t (by omega) [] nothing
  rw [List.append_nil] at read
  rw [ofText?, lexed]
  dsimp only
  rw [written, read]
  cases read? false t with
  | none => rfl
  | some ty => rfl

end ViewLang.Go.Ty
