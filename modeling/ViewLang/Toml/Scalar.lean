import ViewLang.Toml.Reader
import ViewLang.Toml.Value

namespace ViewLang.Toml

open Reader

def moreDigits (isDigit : Char → Bool) : List Char → List Char × List Char
  | [] => ([], [])
  | '_' :: c :: cs =>
    if isDigit c then
      let (ds, rest) := moreDigits isDigit cs
      (c :: ds, rest)
    else ([], '_' :: c :: cs)
  | c :: cs =>
    if isDigit c then
      let (ds, rest) := moreDigits isDigit cs
      (c :: ds, rest)
    else ([], c :: cs)

def digitRun (isDigit : Char → Bool) : Reader (List Char) := do
  let first ← char
  require (isDigit first)
  fun cs =>
    let (ds, rest) := moreDigits isDigit cs
    some (first :: ds, rest)

def ofDigits (base : Nat) (ds : List Char) : Nat := ds.foldl (fun n d => n * base + (Text.hexValue? d).getD 0) 0

def decimalRun : Reader (List Char) := do
  let ds ← digitRun Char.isDigit
  require (ds.length == 1 || ds.head? != some '0')
  return ds

/-- A sign, if there is one; `true` for minus. -/
def sign : Reader Bool := do
  if ← eat? "-" then pure true
  else
    let _ ← eat? "+"
    pure false

def inRange (n : Int) : Bool := -(Int.pow 2 127) ≤ n && n < Int.pow 2 128

def based (base : Nat) (isDigit : Char → Bool) : Reader (Option Int) := do
  if ← atEnd then pure none
  else return some (Int.ofNat (ofDigits base (← digitRun isDigit)))

/-- A whole number, unless no machine integer holds it. After the mark of a base the digits may be missing: that is
a number, but nothing holds it. -/
def integer : Reader (Option Int) := do
  let n ←
    if ← eat? "0x" then based 16 Text.isHexDigit
    else if ← eat? "0o" then based 8 fun c => '0' ≤ c && c ≤ '7'
    else if ← eat? "0b" then based 2 fun c => c == '0' || c == '1'
    else
      let negative ← sign
      let n := Int.ofNat (ofDigits 10 (← decimalRun))
      pure (some (if negative then -n else n))
  return n.filter inRange

def isFinite (m : Nat) (e : Int) : Bool :=
  let limit := Nat.pow 2 1024 - Nat.pow 2 970
  let size := Int.ofNat (Nat.toDigits 10 m).length + e
  m == 0 || size < 300 || (size < 320 &&
    (if e < 0 then m < limit * Nat.pow 10 e.natAbs else m * Nat.pow 10 e.natAbs < limit))

def fraction : Reader (List Char) := do
  if ← eat? "." then digitRun Char.isDigit else pure []

def exponent? : Reader (Option Int) := do
  if ← eatOneOf? ["e", "E"] then
    let negative ← sign
    let n := Int.ofNat (ofDigits 10 (← digitRun Char.isDigit))
    return some (if negative then -n else n)
  else pure none

/-- A number with a fraction, an exponent or both, or one of the special ones. The result says whether a machine
number holds it. -/
def float : Reader Bool := do
  let _ ← sign
  if ← eatOneOf? ["inf", "nan"] then pure true
  else
    let whole ← decimalRun
    let part ← fraction
    let exponent ← exponent?
    require (!part.isEmpty || exponent.isSome)
    return isFinite (ofDigits 10 (whole ++ part)) (exponent.getD 0 - Int.ofNat part.length)

def fixedDigits : Nat → Reader Nat
  | 0 => pure 0
  | n + 1 => do
    let d ← char
    require d.isDigit
    return (d.toNat - '0'.toNat) * 10 ^ n + (← fixedDigits n)

def isLeapYear (y : Nat) : Bool := y % 4 == 0 && (y % 100 != 0 || y % 400 == 0)

def daysInMonth (y m : Nat) : Nat :=
  if m == 2 then (if isLeapYear y then 29 else 28)
  else if m == 4 || m == 6 || m == 9 || m == 11 then 30
  else 31

def date : Reader Unit := do
  let y ← fixedDigits 4
  expect "-"
  let m ← fixedDigits 2
  expect "-"
  let d ← fixedDigits 2
  require (1 ≤ m && m ≤ 12 && 1 ≤ d && d ≤ daysInMonth y m)

def time : Reader Unit := do
  let h ← fixedDigits 2
  expect ":"
  let m ← fixedDigits 2
  require (h ≤ 23 && m ≤ 59)
  if ← eat? ":" then
    let s ← fixedDigits 2
    require (s ≤ 60)
    if ← eat? "." then
      let ds ← takeWhile Char.isDigit
      require (!ds.isEmpty)

def zoneOffset : Reader Unit := do
  if ← eatOneOf? ["Z", "z"] then pure ()
  else if ← eatOneOf? ["+", "-"] then
    let h ← fixedDigits 2
    expect ":"
    let m ← fixedDigits 2
    require (h ≤ 23 && m ≤ 59)

def dateTime : Reader Unit := do
  date
  if ← eatOneOf? ["T", "t", " "] then
    time
    zoneOffset

def isScalarChar (c : Char) : Bool := c.isAlphanum || c == '_' || c == '+' || c == '-' || c == '.' || c == ':'

/-- The characters of a scalar. A blank belongs to it where it parts a date from a time. -/
def scalarText : Reader (List Char) := do
  let cs ← takeWhile isScalarChar
  if (date.whole cs).isSome then
    fun
    | ' ' :: c :: rest =>
      if c.isDigit then
        some (cs ++ ' ' :: (c :: rest).takeWhile isScalarChar, (c :: rest).dropWhile isScalarChar)
      else some (cs, ' ' :: c :: rest)
    | rest => some (cs, rest)
  else pure cs

def scalarOf? (cs : List Char) : Option Value :=
  if cs = "true".toList then some (.boolean true)
  else if cs = "false".toList then some (.boolean false)
  else
    match integer.whole cs, float.whole cs with
    | some n, _ => some (.integer n)
    | none, some finite => some (.float (String.ofList cs) finite)
    | none, none =>
      if (dateTime.whole cs).isSome || (time.whole cs).isSome then some (.datetime (String.ofList cs)) else none

def scalar : Reader Value := do
  match scalarOf? (← scalarText) with
  | some v => pure v
  | none => refuse

end ViewLang.Toml
