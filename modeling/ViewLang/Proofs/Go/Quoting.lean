import Mathlib.Algebra.Group.Nat.Defs
import ViewLang.Proofs.Go.Delimiters
import ViewLang.Proofs.Go.Pieces

namespace ViewLang.Go.Literal

open Layout (isControl)

def bytes (s : String) : List UInt8 := s.toUTF8.data.toList

theorem bytes_eq (s : String) : bytes s = s.toList.flatMap String.utf8EncodeChar := by
  rw [bytes, String.toUTF8_eq_toByteArray, ← String.utf8Encode_toList, List.utf8Encode, List.data_toByteArray]

@[simp] theorem bytes_append (s t : String) : bytes (s ++ t) = bytes s ++ bytes t := by
  rw [bytes_eq, bytes_eq, bytes_eq, String.toList_append, List.flatMap_append]

theorem bytes_injective : Function.Injective bytes := by
  intro s t same
  rw [bytes_eq, bytes_eq] at same
  apply String.toByteArray_inj.mp
  rw [← String.utf8Encode_toList, ← String.utf8Encode_toList, List.utf8Encode, List.utf8Encode, same]

def digit? (base : Nat) (c : Char) : Option Nat := (Text.hexValue? c).filter (· < base)

def number? (base : Nat) (cs : List Char) : Option Nat :=
  cs.foldlM (fun n c => (digit? base c).map (base * n + ·)) 0

def fixed? (base width : Nat) (cs : List Char) : Option (Nat × List Char) :=
  if width ≤ cs.length then (number? base (cs.take width)).map (·, cs.drop width) else none

def byteEscape? : Char → Option UInt8
  | 'a' => some 0x07
  | 'b' => some 0x08
  | 'f' => some 0x0C
  | 'n' => some 0x0A
  | 'r' => some 0x0D
  | 't' => some 0x09
  | 'v' => some 0x0B
  | '\\' => some 0x5C
  | '"' => some 0x22
  | _ => none

def pointBytes? (n : Nat) : Option (List UInt8) :=
  if n.isValidChar then some (String.utf8EncodeChar (Char.ofNat n)) else none

def point? (width : Nat) (cs : List Char) : Option (List UInt8 × List Char) :=
  (fixed? 16 width cs).bind fun (n, rest) => (pointBytes? n).map (·, rest)

def byte? (base width : Nat) (cs : List Char) : Option (List UInt8 × List Char) :=
  (fixed? base width cs).bind fun (n, rest) => if n < 256 then some ([UInt8.ofNat n], rest) else none

/-- The bytes of an escape, read from behind its backslash, and what stands behind it. A byte has two hexadecimal or
three octal digits, a code point four or eight hexadecimal ones. -/
def escape? : List Char → Option (List UInt8 × List Char)
  | [] => none
  | c :: cs =>
    match byteEscape? c with
    | some b => some ([b], cs)
    | none =>
      if c = 'x' then byte? 16 2 cs
      else if c = 'u' then point? 4 cs
      else if c = 'U' then point? 8 cs
      else byte? 8 3 (c :: cs)

theorem fixed?_shorter {base width n : Nat} {cs rest : List Char} (found : fixed? base width cs = some (n, rest)) :
    rest.length + width = cs.length := by
  unfold fixed? at found
  split at found
  · rename_i long
    obtain ⟨_, -, same⟩ := Option.map_eq_some_iff.mp found
    obtain ⟨-, rfl⟩ := Prod.mk.inj same
    rw [List.length_drop]
    omega
  · cases found

theorem point?_shorter {width : Nat} {cs rest : List Char} {bs : List UInt8}
    (found : point? width cs = some (bs, rest)) : rest.length + width = cs.length := by
  obtain ⟨⟨n, behind⟩, number, found⟩ := Option.bind_eq_some_iff.mp found
  obtain ⟨_, -, same⟩ := Option.map_eq_some_iff.mp found
  obtain ⟨-, rfl⟩ := Prod.mk.inj same
  exact fixed?_shorter number

theorem byte?_shorter {base width : Nat} {cs rest : List Char} {bs : List UInt8}
    (found : byte? base width cs = some (bs, rest)) : rest.length + width = cs.length := by
  obtain ⟨⟨n, behind⟩, number, found⟩ := Option.bind_eq_some_iff.mp found
  dsimp only at found
  split at found
  · cases found
    exact fixed?_shorter number
  · cases found

theorem escape?_shorter {cs rest : List Char} {bs : List UInt8} (found : escape? cs = some (bs, rest)) :
    rest.length < cs.length := by
  cases cs with
  | nil => cases found
  | cons c cs =>
    rw [List.length_cons]
    rw [escape?] at found
    split at found
    · cases found
      exact Nat.lt_succ_self _
    · split at found
      · have := byte?_shorter found
        omega
      · split at found
        · have := point?_shorter found
          omega
        · split at found
          · have := point?_shorter found
            omega
          · have := byte?_shorter found
            rw [List.length_cons] at this
            omega

def element? : List Char → Option (List UInt8 × List Char)
  | [] => none
  | c :: cs =>
    if c = '\n' then none
    else if c = '\\' then escape? cs
    else some (String.utf8EncodeChar c, cs)

theorem element?_shorter {cs rest : List Char} {bs : List UInt8} (found : element? cs = some (bs, rest)) :
    rest.length < cs.length := by
  cases cs with
  | nil => cases found
  | cons c cs =>
    rw [element?] at found
    split at found
    · cases found
    · split at found
      · exact Nat.lt_succ_of_lt (escape?_shorter found)
      · cases found
        exact Nat.lt_succ_self _

def closing? (cs : List Char) : Option (List UInt8 × List Char) :=
  if cs.head? = some '"' then some ([], cs.tail)
  else
    match _found : element? cs with
    | none => none
    | some (bs, rest) => (closing? rest).map fun (more, behind) => (bs ++ more, behind)
termination_by cs.length
decreasing_by exact element?_shorter _found

def literal? : List Char → Option (List UInt8 × List Char)
  | '"' :: cs => closing? cs
  | _ => none

def unquote? (s : String) : Option (List UInt8) :=
  match literal? s.toList with
  | some (bs, []) => some bs
  | _ => none

theorem closing?_quote (rest : List Char) : closing? ('"' :: rest) = some ([], rest) := by
  rw [closing?, List.head?_cons, if_pos rfl, List.tail_cons]

theorem closing?_element {cs rest behind : List Char} {bs more : List UInt8} (inside : cs.head? ≠ some '"')
    (first : element? cs = some (bs, rest)) (others : closing? rest = some (more, behind)) :
    closing? cs = some (bs ++ more, behind) := by
  rw [closing?, if_neg inside]
  split
  · rename_i none
    cases first.symm.trans none
  · rename_i bs' rest' found
    cases first.symm.trans found
    rw [others]
    rfl

theorem number?_append (base : Nat) {n : Nat} {cs : List Char} (first : number? base cs = some n) (c : Char) :
    number? base (cs ++ [c]) = (digit? base c).map (base * n + ·) := by
  rw [number?, List.foldlM_append, show cs.foldlM _ 0 = some n from first]
  simp only [List.foldlM_cons, List.foldlM_nil, bind_pure, Option.bind_eq_bind, Option.bind_some]

theorem digit?_digitChar : ∀ d < 16, digit? 16 d.digitChar = some d := by decide

theorem number?_hex (n : Nat) : number? 16 (Text.hex n) = some n := by
  unfold Text.hex
  induction n using Nat.strongRecOn with
  | ind n ih =>
    rw [Nat.toDigits_eq_if (by decide)]
    split
    · rename_i small
      rw [← List.nil_append [n.digitChar], number?_append 16 rfl, digit?_digitChar n small]
      simp
    · rename_i large
      rw [number?_append 16 (ih (n / 16) (by omega)), digit?_digitChar (n % 16) (by omega), Option.map_some,
        Nat.div_add_mod]

theorem number?_zeros (k : Nat) (cs : List Char) : number? 16 (List.replicate k '0' ++ cs) = number? 16 cs := by
  induction k with
  | zero => rfl
  | succ k ih =>
    have zero : digit? 16 '0' = some 0 := by decide
    rw [← ih, List.replicate_succ, List.cons_append, number?, List.foldlM_cons, zero]
    rfl

/-- Digits with zeros in front of them are read as the number again. -/
theorem fixed?_hexPadded {width n : Nat} (positive : 0 < width) (small : n < 16 ^ width) (rest : List Char) :
    fixed? 16 width (Text.hexPadded width n ++ rest) = some (n, rest) := by
  have long : (Text.hexPadded width n).length = width := by
    have short : (Text.hex n).length ≤ width := (Nat.length_toDigits_le_iff (by decide) positive).mpr small
    rw [Text.hexPadded, List.length_append, List.length_replicate]
    omega
  have value : number? 16 (Text.hexPadded width n) = some n := by rw [Text.hexPadded, number?_zeros, number?_hex]
  rw [fixed?, if_pos (by rw [List.length_append]; omega), List.take_left' long, List.drop_left' long, value]
  rfl

theorem utf8EncodeChar_ascii {c : Char} (ascii : c.toNat < 0x80) :
    String.utf8EncodeChar c = [UInt8.ofNat c.toNat] := by
  rw [String.utf8EncodeChar]
  exact if_pos (Nat.le_of_lt_succ ascii)

/-- Only the ASCII characters have bytes below 0x80 in UTF-8. -/
theorem utf8EncodeChar_large {c : Char} (large : 0x80 ≤ c.toNat) : ∀ b ∈ String.utf8EncodeChar c, 0x80 ≤ b.toNat := by
  intro b member
  change b ∈ if c.toNat ≤ 127 then _ else if c.toNat ≤ 2047 then _ else if c.toNat ≤ 65535 then _ else _ at member
  rw [if_neg (by omega)] at member
  split at member
  · simp only [List.mem_cons, List.not_mem_nil, or_false] at member
    rcases member with rfl | rfl <;> simp <;> omega
  · split at member
    · simp only [List.mem_cons, List.not_mem_nil, or_false] at member
      rcases member with rfl | rfl | rfl <;> simp <;> omega
    · simp only [List.mem_cons, List.not_mem_nil, or_false] at member
      rcases member with rfl | rfl | rfl | rfl <;> simp <;> omega

/-- The byte of an ASCII character stands in no other character. -/
theorem ascii_not_mem {c : Char} {b : UInt8} (ascii : b.toNat < 0x80) (other : c.toNat ≠ b.toNat) :
    b ∉ String.utf8EncodeChar c := by
  by_cases small : c.toNat < 0x80
  · rw [utf8EncodeChar_ascii small, List.mem_singleton]
    intro same
    have value := (congrArg UInt8.toNat same).trans (UInt8.toNat_ofNat_of_lt' (Nat.lt_trans small (by decide)))
    exact other value.symm
  · intro member
    have large := utf8EncodeChar_large (by omega) b member
    omega

theorem pointBytes?_toNat (c : Char) : pointBytes? c.toNat = some (String.utf8EncodeChar c) := by
  rw [pointBytes?, if_pos (show c.toNat.isValidChar from c.valid), Char.ofNat_toNat]

/-- A quoted character is one element of a literal, and means the bytes of the character. -/
theorem element?_quoteChar (c : Char) (rest : List Char) :
    element? (quoteChar c ++ rest) = some (String.utf8EncodeChar c, rest) := by
  unfold quoteChar
  split
  · rfl
  · rfl
  · rfl
  · rfl
  · rfl
  · rename_i quote backslash newline _ _
    split
    · rename_i control
      have small : c.toNat < 256 := by omega
      have read := fixed?_hexPadded (show 0 < 2 by decide) small rest
      have found : escape? ('x' :: (Text.hexPadded 2 c.toNat ++ rest)) = some ([UInt8.ofNat c.toNat], rest) := by
        simp [escape?, byteEscape?, byte?, read, small]
      rw [utf8EncodeChar_ascii (by omega)]
      simpa [element?] using found
    · split
      · have small : c.toNat < 16 ^ 4 := by omega
        have read := fixed?_hexPadded (by decide) small rest
        have found : escape? ('u' :: (Text.hexPadded 4 c.toNat ++ rest)) = some (String.utf8EncodeChar c, rest) := by
          simp [escape?, byteEscape?, point?, read, pointBytes?_toNat]
        simpa [element?] using found
      · rw [List.cons_append, List.nil_append, element?, if_neg newline, if_neg backslash]

theorem quoteChar_head (c : Char) (rest : List Char) : (quoteChar c ++ rest).head? ≠ some '"' := by
  unfold quoteChar
  split
  · simp
  · simp
  · simp
  · simp
  · simp
  · rename_i quote _ _ _ _
    split
    · simp
    · split
      · simp
      · simpa using quote

theorem closing?_flatMap (cs rest : List Char) :
    closing? (cs.flatMap quoteChar ++ '"' :: rest) = some (cs.flatMap String.utf8EncodeChar, rest) := by
  induction cs with
  | nil => exact closing?_quote rest
  | cons c cs ih =>
    rw [List.flatMap_cons, List.append_assoc, List.flatMap_cons]
    exact closing?_element (quoteChar_head c _) (element?_quoteChar c _) ih

/-- A quoted text is read as a literal up to its last quote, whatever stands behind it. -/
theorem literal?_quote (s : String) (rest : List Char) :
    literal? ((quote s).toList ++ rest) = some (bytes s, rest) := by
  rw [quote, String.toList_ofList, List.cons_append, List.cons_append, List.append_assoc, List.singleton_append,
    literal?, closing?_flatMap, bytes_eq]

theorem unquote?_quote (s : String) : unquote? (quote s) = some (bytes s) := by
  have read := literal?_quote s []
  rw [List.append_nil] at read
  rw [unquote?, read]

theorem quote_injective : Function.Injective quote := by
  intro s t same
  have read := unquote?_quote s
  rw [same, unquote?_quote t] at read
  exact bytes_injective (Option.some.inj read).symm

def escapes (cs : List Char) : Bool := cs.foldl (fun escaped c => c == '\\' && !escaped) false

structure Masked (cs : List Char) : Prop where
  closed : escapes cs = false
  quotes : ∀ before behind, cs = before ++ '"' :: behind → escapes before = true

theorem escapes_append {cs : List Char} (closed : escapes cs = false) (ds : List Char) :
    escapes (cs ++ ds) = escapes ds := by
  rw [escapes, List.foldl_append, show cs.foldl _ false = false from closed]
  rfl

theorem escapes_plain {cs : List Char} (plain : ∀ c ∈ cs, c ≠ '\\' ∧ c ≠ '"') : escapes cs = false := by
  induction cs with
  | nil => rfl
  | cons c cs ih =>
    obtain ⟨⟨backslash, -⟩, others⟩ := List.forall_mem_cons.mp plain
    have first : escapes [c] = false := by simp [escapes, backslash]
    rw [← List.singleton_append, escapes_append first]
    exact ih others

theorem masked_plain {cs : List Char} (plain : ∀ c ∈ cs, c ≠ '\\' ∧ c ≠ '"') : Masked cs := by
  refine ⟨escapes_plain plain, ?_⟩
  rintro before behind rfl
  exact absurd rfl (plain '"' (List.mem_append_right _ List.mem_cons_self)).2

/-- An escape, with digits behind its letter or none. -/
theorem masked_escape (e : Char) {cs : List Char} (plain : ∀ c ∈ cs, c ≠ '\\' ∧ c ≠ '"') :
    Masked ('\\' :: e :: cs) := by
  have letter : escapes ['\\', e] = false := by simp [escapes]
  refine ⟨(escapes_append letter cs).trans (escapes_plain plain), ?_⟩
  intro before behind split
  rcases before with _ | ⟨b, _ | ⟨b', before⟩⟩
  · cases split
  · cases split
    rfl
  · obtain ⟨-, -, rfl⟩ : '\\' = b ∧ e = b' ∧ cs = before ++ '"' :: behind := by simpa using split
    exact absurd rfl (plain '"' (List.mem_append_right _ List.mem_cons_self)).2

theorem Masked.append {cs ds : List Char} (first : Masked cs) (second : Masked ds) : Masked (cs ++ ds) := by
  refine ⟨(escapes_append first.closed ds).trans second.closed, ?_⟩
  intro before behind split
  rcases List.append_eq_append_iff.mp split with ⟨inner, rfl, rest⟩ | ⟨inner, rfl, rest⟩
  · rw [escapes_append first.closed]
    exact second.quotes inner behind rest
  · cases inner with
    | nil => exact absurd (second.quotes [] behind rest.symm) (by decide)
    | cons c inner =>
      obtain ⟨rfl, -⟩ := List.cons.inj rest
      exact first.quotes before inner rfl

theorem hexPadded_plain (width n : Nat) : ∀ c ∈ Text.hexPadded width n, c ≠ '\\' ∧ c ≠ '"' := by
  intro c member
  have word := hexPadded_word width n c member
  exact ⟨ne_of_word word (by decide), ne_of_word word (by decide)⟩

theorem quoteChar_masked (c : Char) : Masked (quoteChar c) := by
  unfold quoteChar
  split
  · exact masked_escape _ nofun
  · exact masked_escape _ nofun
  · exact masked_escape _ nofun
  · exact masked_escape _ nofun
  · exact masked_escape _ nofun
  · rename_i quote backslash _ _ _
    split
    · exact masked_escape _ (hexPadded_plain _ _)
    · split
      · exact masked_escape _ (hexPadded_plain _ _)
      · exact masked_plain (List.forall_mem_singleton.mpr ⟨backslash, quote⟩)

theorem flatMap_masked (cs : List Char) : Masked (cs.flatMap quoteChar) := by
  induction cs with
  | nil => exact masked_plain nofun
  | cons c cs ih =>
    rw [List.flatMap_cons]
    exact (quoteChar_masked c).append ih

theorem hexPadded_visible (width n : Nat) : ∀ c ∈ Text.hexPadded width n, isControl c = false := by
  have digit : ∀ d < 16, isControl d.digitChar = false := by decide
  intro c member
  obtain ⟨d, small, rfl⟩ := digit_of_mem_hexPadded member
  exact digit d small

theorem escape_visible {e : Char} (visible : isControl e = false) {cs : List Char}
    (others : ∀ c ∈ cs, isControl c = false) : ∀ c ∈ '\\' :: e :: cs, isControl c = false :=
  List.forall_mem_cons.mpr ⟨rfl, List.forall_mem_cons.mpr ⟨visible, others⟩⟩

theorem quoteChar_visible (c : Char) : ∀ d ∈ quoteChar c, isControl d = false := by
  unfold quoteChar
  split
  · exact escape_visible rfl nofun
  · exact escape_visible rfl nofun
  · exact escape_visible rfl nofun
  · exact escape_visible rfl nofun
  · exact escape_visible rfl nofun
  · split
    · exact escape_visible rfl (hexPadded_visible _ _)
    · split
      · exact escape_visible rfl (hexPadded_visible _ _)
      · rename_i noByte noPoint
        rw [List.forall_mem_singleton]
        simp only [isControl, Bool.or_eq_false_iff, Bool.and_eq_false_iff, decide_eq_false_iff_not]
        omega

/-- A literal on one line: of its quotes, the first and the last character are the only ones that are not escaped, and
it has no control characters. -/
structure Wellformed (cs : List Char) : Prop where
  delimited : ∃ inner, cs = '"' :: (inner ++ ['"'])
  quotes : ∀ before behind, cs = before ++ '"' :: behind → (escapes before = false ↔ before = [] ∨ behind = [])
  visible : ∀ c ∈ cs, isControl c = false

theorem wellformed_of_masked {inner : List Char} (masked : Masked inner) (visible : ∀ c ∈ inner, isControl c = false) :
    Wellformed ('"' :: (inner ++ ['"'])) := by
  refine ⟨⟨inner, rfl⟩, ?_, ?_⟩
  · intro before behind split
    cases before with
    | nil => simp [escapes]
    | cons b before =>
      obtain ⟨rfl, others⟩ : '"' = b ∧ inner ++ ['"'] = before ++ '"' :: behind := List.cons.inj split
      have quote : escapes ['"'] = false := rfl
      have opened : escapes ('"' :: before) = escapes before := escapes_append quote before
      rw [opened]
      rcases List.eq_nil_or_concat behind with rfl | ⟨behind, c, rfl⟩
      · -- The last quote stands behind all of the text.
        obtain ⟨rfl, -⟩ := List.append_inj' others rfl
        simp [masked.closed]
      · rw [List.concat_eq_append, ← List.cons_append, ← List.append_assoc] at others
        obtain ⟨rfl, -⟩ := List.append_inj' others rfl
        simp [masked.quotes before behind rfl]
  · rw [List.forall_mem_cons, List.forall_mem_append, List.forall_mem_singleton]
    exact ⟨by decide, visible, by decide⟩

theorem quote_wellformed (s : String) : Wellformed (quote s).toList := by
  rw [quote, String.toList_ofList]
  refine wellformed_of_masked (flatMap_masked _) ?_
  intro d member
  obtain ⟨c, -, inside⟩ := List.mem_flatMap.mp member
  exact quoteChar_visible c d inside

/-- A quoted text is a literal that Go reads as the bytes of the text, and different texts are quoted differently. -/
theorem quoting_faithful :
    (∀ s : String, Wellformed (quote s).toList ∧ unquote? (quote s) = some (bytes s)) ∧ Function.Injective quote :=
  ⟨fun s => ⟨quote_wellformed s, unquote?_quote s⟩, quote_injective⟩

end ViewLang.Go.Literal
