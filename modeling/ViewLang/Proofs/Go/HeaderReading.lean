import ViewLang.Proofs.Go.BalancedText

namespace ViewLang.Go

def isPathChar (c : Char) : Bool := Lexer.isIdentChar c || c == '.'

structure HeaderScan where
  scan : Scan
  typed : Bool
  behind : List Char

namespace HeaderScan

/-- No bracket is open here, and this is no string literal or comment. -/
def exposed (r : HeaderScan) : Bool := r.scan = .code [] || r.scan = .slash []

/-- Behind `func`, a parenthesis starts a signature. Behind any other name it starts arguments, and the type is over. -/
def typedBehind (r : HeaderScan) (c : Char) : Bool :=
  if c = '(' then r.behind = "cnuf".toList || (r.typed && r.behind.isEmpty)
  else r.typed && c != '\x7b'

def step (r : HeaderScan) (c : Char) : Option HeaderScan := (r.scan.step c).map fun s =>
  if r.exposed then ⟨s, r.typedBehind c, if isPathChar c then c :: r.behind else if c = '[' then ['['] else []⟩
  else if c = ']' ∧ r.behind = ['['] then ⟨s, true, []⟩
  else ⟨s, r.typed, if s = .code [] then [c] else []⟩

def block? (r : HeaderScan) : List Char → Option (List Char)
  | [] => none
  | c :: cs => if r.exposed ∧ c = '\x7b' ∧ r.typed = false then some cs else (r.step c).bind fun r' => r'.block? cs

def outside (typed : Bool) (behind : List Char) : HeaderScan := ⟨.code [], typed, behind⟩

end HeaderScan

open HeaderScan (outside)

/-- The brace behind the text is the first one that opens a block. -/
def OpensBlock (header : String) : Prop :=
  ∀ rest : String, (outside false []).block? (header ++ "\x7b" ++ rest).toList = some rest.toList

example : ((outside false []).block? "x == T \x7b y \x7d".toList).map String.ofList = some " y \x7d" := by decide

example : ((outside false []).block? "range []geo.T\x7b\x7b1\x7d\x7d \x7b y \x7d".toList).map String.ofList =
    some " y \x7d" := by decide

def Passes (r : HeaderScan) (t : String) (r' : HeaderScan) : Prop :=
  ∀ rest, r.block? (t.toList ++ rest) = r'.block? rest

section

variable {r r₁ r₂ : HeaderScan} {s t : String} {typed : Bool} {b : List Char} {cs rest : List Char}

theorem Passes.append (first : Passes r s r₁) (second : Passes r₁ t r₂) : Passes r (s ++ t) r₂ := by
  intro rest
  rw [String.toList_append, List.append_assoc, first, second]

theorem Passes.refl : Passes r "" r := fun _ => rfl

/-- A text that ends where a reader may go on ends in front of the block. -/
theorem Passes.opensBlock (passes : Passes (outside false []) t (outside false b)) : OpensBlock t := by
  intro rest
  rw [String.toList_append, String.toList_append, List.append_assoc, passes]
  rfl

def pathBehind (b : List Char) (cs : List Char) : List Char :=
  cs.foldl (fun b c => if isPathChar c then c :: b else []) b

theorem pathBehind_path (path : ∀ c ∈ cs, isPathChar c = true) : pathBehind b cs = cs.reverse ++ b := by
  induction cs generalizing b with
  | nil => rfl
  | cons c cs ih =>
    obtain ⟨first, others⟩ := List.forall_mem_cons.mp path
    rw [pathBehind, List.foldl_cons, if_pos first]
    exact (ih others).trans (by simp)

theorem subset_pathBehind {c : Char} (member : c ∈ pathBehind b cs) : c ∈ b ∨ c ∈ cs := by
  induction cs generalizing b with
  | nil => exact .inl member
  | cons d cs ih =>
    rw [pathBehind, List.foldl_cons] at member
    rcases ih member with first | later
    · split at first
      · rcases List.mem_cons.mp first with rfl | first
        · exact .inr List.mem_cons_self
        · exact .inl first
      · cases first
    · exact .inr (List.mem_cons_of_mem d later)

/-- A character that has nothing to do with brackets. -/
theorem block?_step {c : Char} (brace : c ≠ '\x7b') :
    r.block? (c :: cs) = (r.step c).bind fun r' => r'.block? cs := by
  rw [HeaderScan.block?, if_neg fun all => brace all.2.1]

theorem words_block? (word : ∀ c ∈ cs, isWordChar c = true) :
    (outside typed b).block? (cs ++ rest) = (outside typed (pathBehind b cs)).block? rest := by
  induction cs generalizing b with
  | nil => rfl
  | cons c cs ih =>
    obtain ⟨first, others⟩ := List.forall_mem_cons.mp word
    have stepped : (outside typed b).step c = some (outside typed (if isPathChar c then c :: b else [])) := by
      have scanned : (outside typed b).scan.step c = some (.code []) := codeStep_word first []
      rw [HeaderScan.step, scanned, Option.map_some, if_pos rfl, if_neg (ne_of_word first (by decide)),
        HeaderScan.typedBehind, if_neg (ne_of_word first (by decide)),
        bne_iff_ne.mpr (ne_of_word first (by decide)), Bool.and_true]
      rfl
    rw [List.cons_append, block?_step (ne_of_word first (by decide)), stepped, Option.bind_some]
    exact ih others

theorem passes_word (word : IsWord s) : Passes (outside typed b) s (outside typed (pathBehind b s.toList)) :=
  fun _ => words_block? word

theorem inside_block? {s s' : Scan} {first : Bracket} (outer : List Bracket) (ran : s.run cs = some s')
    (fresh : b ≠ ['['] ∨ s = .code []) : HeaderScan.block? ⟨s.inside (first :: outer), typed, b⟩ (cs ++ rest) =
      HeaderScan.block? ⟨s'.inside (first :: outer), typed, if cs = [] then b else []⟩ rest := by
  induction cs generalizing s b with
  | nil =>
    cases ran
    rfl
  | cons c cs ih =>
    rw [Scan.run_cons] at ran
    obtain ⟨next, stepped, ran⟩ := Option.bind_eq_some_iff.mp ran
    have hidden : (⟨s.inside (first :: outer), typed, b⟩ : HeaderScan).exposed = false := by
      cases s <;> simp [HeaderScan.exposed, Scan.inside]
    have open' : next.inside (first :: outer) ≠ .code [] := by
      cases next <;> simp [Scan.inside]
    have kept : ¬ (c = ']' ∧ b = ['[']) := by
      rintro ⟨rfl, same⟩
      rcases fresh with other | rfl
      · exact other same
      · cases stepped
    rw [List.cons_append, HeaderScan.block?, if_neg (by rw [hidden]; simp), HeaderScan.step,
      Scan.step_inside _ stepped, Option.map_some, Option.bind_some, hidden, if_neg Bool.false_ne_true, if_neg kept,
      if_neg open', ih ran (.inl (by simp))]
    simp

/-- The text is read between brackets without a stop. -/
theorem Balanced.block? {first : Bracket} (balanced : Balanced t) :
    HeaderScan.block? ⟨.code [first], typed, b⟩ (t.toList ++ rest) =
      HeaderScan.block? ⟨.code [first], typed, if t.toList = [] then b else []⟩ rest :=
  inside_block? (s := .code []) [] balanced (.inr rfl)

/-- Arguments, or the parameters or results of a function. -/
theorem passes_round (balanced : Balanced t) : Passes (outside typed b) ("(" ++ t ++ ")")
    (outside (b = "cnuf".toList || (typed && b.isEmpty)) [')']) := by
  intro rest
  have opened : (outside typed b).step '(' = some ⟨.code [.round], b = "cnuf".toList || (typed && b.isEmpty), []⟩ := rfl
  rw [String.toList_append, String.toList_append, List.append_assoc, List.append_assoc]
  change (outside typed b).block? ('(' :: (t.toList ++ (')' :: rest))) = _
  rw [block?_step (by decide), opened, Option.bind_some, balanced.block?, ite_self]
  rfl

theorem passes_square (balanced : Balanced t) (inhabited : t ≠ "") :
    Passes (outside typed b) ("[" ++ t ++ "]") (outside typed [']']) := by
  intro rest
  have opened : (outside typed b).step '[' = some ⟨.code [.square], typed, ['[']⟩ := by
    cases typed <;> rfl
  rw [String.toList_append, String.toList_append, List.append_assoc, List.append_assoc]
  change (outside typed b).block? ('[' :: (t.toList ++ (']' :: rest))) = _
  rw [block?_step (by decide), opened, Option.bind_some, balanced.block?,
    if_neg fun none => inhabited (String.toList_eq_nil_iff.mp none)]
  rfl

theorem passes_brackets : Passes (outside typed b) "[]" (outside true []) := by
  intro rest
  cases typed <;> rfl

theorem passes_curly (balanced : Balanced t) :
    Passes (outside true b) ("\x7b" ++ t ++ "\x7d") (outside false ['\x7d']) := by
  intro rest
  rw [String.toList_append, String.toList_append, List.append_assoc, List.append_assoc]
  change HeaderScan.block? ⟨.code [.curly], false, []⟩ (t.toList ++ ('\x7d' :: rest)) = _
  rw [balanced.block?, ite_self]
  rfl

theorem literal_block? (each : ∀ c ∈ cs, c ≠ '"' ∧ c ≠ '\\' ∧ c ≠ '\n') :
    HeaderScan.block? ⟨.string [], typed, []⟩ (cs ++ rest) = HeaderScan.block? ⟨.string [], typed, []⟩ rest := by
  induction cs with
  | nil => rfl
  | cons c cs ih =>
    obtain ⟨⟨quote, backslash, newline⟩, others⟩ := List.forall_mem_cons.mp each
    have scanned : Scan.step (.string []) c = some (.string []) := by
      rw [Scan.step, if_neg quote, if_neg backslash, if_neg newline]
    have stepped : HeaderScan.step ⟨.string [], typed, []⟩ c = some ⟨.string [], typed, []⟩ := by
      simp [HeaderScan.step, scanned, HeaderScan.exposed]
    rw [List.cons_append, HeaderScan.block?, if_neg (by simp [HeaderScan.exposed]), stepped, Option.bind_some]
    exact ih others

theorem escaped_block? {mark : Char} (other : mark ≠ '\n') :
    HeaderScan.block? ⟨.string [], typed, []⟩ ('\\' :: mark :: rest) =
      HeaderScan.block? ⟨.string [], typed, []⟩ rest := by
  have stepped : HeaderScan.step ⟨.escape [], typed, []⟩ mark = some ⟨.string [], typed, []⟩ := by
    simp [HeaderScan.step, Scan.step, other, HeaderScan.exposed]
  change HeaderScan.block? ⟨.escape [], typed, []⟩ (mark :: rest) = _
  rw [HeaderScan.block?, if_neg (by simp [HeaderScan.exposed]), stepped, Option.bind_some]

theorem quoteChar_block? (c : Char) :
    HeaderScan.block? ⟨.string [], typed, []⟩ (quoteChar c ++ rest) =
      HeaderScan.block? ⟨.string [], typed, []⟩ rest := by
  have hex (mark : Char) (width : Nat) (other : mark ≠ '\n') :
      HeaderScan.block? ⟨.string [], typed, []⟩ (['\\', mark] ++ Text.hexPadded width c.toNat ++ rest) =
        HeaderScan.block? ⟨.string [], typed, []⟩ rest := by
    rw [List.append_assoc, List.cons_append, List.cons_append, List.nil_append]
    refine (escaped_block? other).trans (literal_block? fun d member => ?_)
    have word := hexPadded_word width c.toNat d member
    exact ⟨ne_of_word word (by decide), ne_of_word word (by decide), ne_of_word word (by decide)⟩
  unfold quoteChar
  split
  · exact escaped_block? (by decide)
  · exact escaped_block? (by decide)
  · exact escaped_block? (by decide)
  · exact escaped_block? (by decide)
  · exact escaped_block? (by decide)
  · rename_i quote backslash newline _ _
    split
    · exact hex 'x' 2 (by decide)
    · split
      · exact hex 'u' 4 (by decide)
      · exact literal_block? (List.forall_mem_singleton.mpr ⟨quote, backslash, newline⟩)

theorem passes_quote (text : String) : Passes (outside typed b) (quote text) (outside typed ['"']) := by
  have inside (cs rest : List Char) : HeaderScan.block? ⟨.string [], typed, []⟩ (cs.flatMap quoteChar ++ rest) =
      HeaderScan.block? ⟨.string [], typed, []⟩ rest := by
    induction cs with
    | nil => rfl
    | cons c cs ih => rw [List.flatMap_cons, List.append_assoc, quoteChar_block?, ih]
  intro rest
  have opened : (outside typed b).step '"' = some ⟨.string [], typed, []⟩ := by
    cases typed <;> rfl
  rw [quote, String.toList_ofList, List.cons_append, List.cons_append, List.append_assoc, block?_step (by decide),
    opened, Option.bind_some, inside]
  rfl

end

end ViewLang.Go
