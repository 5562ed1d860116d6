import ViewLang.Text.Hex

namespace ViewLang.Toml

abbrev Reader := StateT (List Char) Option

namespace Reader

variable {α : Type}

def refuse : Reader α := fun _ => none

def require (b : Bool) : Reader Unit := if b then pure () else refuse

def next? : Reader (Option Char) := fun cs => some (cs.head?, cs)

def char : Reader Char := fun
  | [] => none
  | c :: cs => some (c, cs)

def eat? (text : String) : Reader Bool := fun cs =>
  if text.toList.isPrefixOf cs then some (true, cs.drop text.length) else some (false, cs)

def eatOneOf? : List String → Reader Bool
  | [] => pure false
  | text :: texts => do
    if ← eat? text then pure true else eatOneOf? texts

def expect (text : String) : Reader Unit := do
  require (← eat? text)

def takeWhile (p : Char → Bool) : Reader (List Char) := fun cs => some (cs.takeWhile p, cs.dropWhile p)

def sized (p : Nat → Reader α) : Reader α := fun cs => p (cs.length + 1) cs

def whole (p : Reader α) (cs : List Char) : Option α :=
  match p cs with
  | some (a, []) => some a
  | _ => none

end Reader

open Reader

def isBlank (c : Char) : Bool := c == ' ' || c == '\t'

def isControl (c : Char) : Bool := (c < ' ' && c != '\t') || c == '\x7f'

def skipBlanks : Reader Unit := do
  let _ ← takeWhile isBlank

def newline? : Reader Bool := eatOneOf? ["\n", "\r\n"]

def atEnd : Reader Bool := fun cs => some (cs.isEmpty, cs)

def skipComment : Reader Unit := do
  if ← eat? "#" then
    let _ ← takeWhile (!isControl ·)
    let next ← next?
    require (next.all fun c => c == '\n' || c == '\r')

/-- The rest of a line after what it says; `false` at the end of the text. -/
def endLine : Reader Bool := do
  skipBlanks
  skipComment
  if ← newline? then pure true
  else
    require (← atEnd)
    pure false

def skipLinesUpTo : Nat → Reader Unit
  | 0 => refuse
  | n + 1 => do
    skipBlanks
    skipComment
    if ← newline? then skipLinesUpTo n

def skipLines : Reader Unit := sized skipLinesUpTo

def hexDigits : Nat → Reader Nat
  | 0 => pure 0
  | n + 1 => do
    match Text.hexValue? (← char) with
    | some d => return d * 16 ^ n + (← hexDigits n)
    | none => refuse

def codePoint (n : Nat) : Reader Char := do
  let code ← hexDigits n
  if code.isValidChar then pure (Char.ofNat code) else refuse

def escape : Reader Char := do
  match ← char with
  | 'b' => pure '\x08'
  | 't' => pure '\t'
  | 'n' => pure '\n'
  | 'f' => pure '\x0c'
  | 'r' => pure '\r'
  | 'e' => pure '\x1b'
  | '"' => pure '"'
  | '\\' => pure '\\'
  | 'x' => codePoint 2
  | 'u' => codePoint 4
  | 'U' => codePoint 8
  | _ => refuse

def delimitedUpTo (close? : Reader (Option (List Char))) (piece : Reader (List Char)) : Nat → Reader (List Char)
  | 0 => refuse
  | n + 1 => do
    match ← close? with
    | some last => pure last
    | none =>
      let cs ← piece
      return cs ++ (← delimitedUpTo close? piece n)

def delimited (close? : Reader (Option (List Char))) (piece : Reader (List Char)) : Reader String := do
  return String.ofList (← sized (delimitedUpTo close? piece))

def closeShort? (quote : String) : Reader (Option (List Char)) := do
  if ← eat? quote then pure (some []) else pure none

/-- The three closing quotes of a string over lines. One or two more before them belong to the string. -/
def closeLong? (quote : String) : Reader (Option (List Char)) := do
  if ← eat? (quote ++ quote ++ quote) then
    if ← eat? (quote ++ quote) then pure (some (quote ++ quote).toList)
    else if ← eat? quote then pure (some quote.toList)
    else pure (some [])
  else pure none

def plainChar : Reader (List Char) := do
  let c ← char
  require (!isControl c)
  return [c]

def escapedChar : Reader (List Char) := do
  if ← eat? "\\" then return [← escape] else plainChar

def lineChar (piece : Reader (List Char)) : Reader (List Char) := do
  if ← eat? "\n" then return ['\n']
  else if ← eat? "\r\n" then return ['\r', '\n']
  else piece

def dropBlankLines : List Char → List Char
  | '\r' :: '\n' :: cs => dropBlankLines cs
  | c :: cs => if isBlank c || c == '\n' then dropBlankLines cs else c :: cs
  | [] => []

def skipJoint? : Reader Bool := fun cs =>
  match cs with
  | '\\' :: cs =>
    match newline? (cs.dropWhile isBlank) with
    | some (true, rest) => some (true, dropBlankLines rest)
    | _ => some (false, '\\' :: cs)
  | cs => some (false, cs)

def joinedChar : Reader (List Char) := do
  if ← skipJoint? then return [] else lineChar escapedChar

def longString (quote : String) (piece : Reader (List Char)) : Reader String := do
  let _ ← newline?
  delimited (closeLong? quote) piece

def shortString? : Reader (Option String) := do
  if ← eat? "\"" then return some (← delimited (closeShort? "\"") escapedChar)
  else if ← eat? "'" then return some (← delimited (closeShort? "'") plainChar)
  else pure none

def string? : Reader (Option String) := do
  if ← eat? "\"\"\"" then return some (← longString "\"" joinedChar)
  else if ← eat? "'''" then return some (← longString "'" (lineChar plainChar))
  else shortString?

end ViewLang.Toml
