import ViewLang.Toml.Scalar

namespace ViewLang.Toml

open Reader

def isKeyChar (c : Char) : Bool := c.isAlphanum || c == '_' || c == '-'

def simpleKey : Reader String := do
  match ← shortString? with
  | some s => pure s
  | none =>
    let cs ← takeWhile isKeyChar
    require (!cs.isEmpty)
    return String.ofList cs

def pathUpTo : Nat → Reader (List String)
  | 0 => refuse
  | n + 1 => do
    skipBlanks
    let key ← simpleKey
    skipBlanks
    if ← eat? "." then return key :: (← pathUpTo n) else return [key]

def maxKeys : Nat := 80

def path : Reader (List String) := do
  let keys ← sized pathUpTo
  require (keys.length ≤ maxKeys)
  return keys

def pair (gap : Reader Unit) (value : Reader Value) : Reader (List String × Value) := do
  let keys ← path
  gap
  expect "="
  gap
  return (keys, ← value)

def itemsUpTo {α : Type} (close : String) (item : Reader α) : Nat → Reader (List α)
  | 0 => refuse
  | n + 1 => do
    skipLines
    if ← eat? close then pure []
    else
      let a ← item
      skipLines
      if ← eat? "," then return a :: (← itemsUpTo close item n)
      else
        expect close
        return [a]

def items {α : Type} (close : String) (item : Reader α) : Reader (List α) := sized (itemsUpTo close item)

/-- A value with at most so many brackets open at once. Between brackets, lines may end before and after anything
but the dots of a path. -/
def value : Nat → Reader Value
  | 0 => do
    match ← string? with
    | some s => return .string s
    | none => scalar
  | n + 1 => do
    if ← eat? "[" then return .array (← items "]" (value n))
    else if ← eat? "\x7b" then
      match Table.ofPairs [] (← items "\x7d" (pair skipLines (value n))) with
      | some t => return .table .inline_ t
      | none => refuse
    else
      match ← string? with
      | some s => return .string s
      | none => scalar

def maxNesting : Nat := 80

def statement? : Reader (Option Statement) := do
  skipBlanks
  if ← eat? "[[" then
    let keys ← path
    expect "]]"
    return some (.nextHeader keys)
  else if ← eat? "[" then
    let keys ← path
    expect "]"
    return some (.header keys)
  else
    match ← next? with
    | none | some '#' | some '\n' | some '\r' => pure none
    | _ =>
      let (keys, v) ← pair skipBlanks (value maxNesting)
      return some (.pair keys v)

def statementsUpTo : Nat → Reader (List Statement)
  | 0 => refuse
  | n + 1 => do
    let first ← statement?
    if ← endLine then return first.toList ++ (← statementsUpTo n)
    else return first.toList

/-- The table that a text defines, if it is a document. A byte order mark at its front is passed over. -/
def parse? (text : String) : Option Table := do
  let cs := text.toList
  let cs := if cs.head? = some '\ufeff' then cs.tail else cs
  let statements ← (sized statementsUpTo).whole cs
  Table.ofStatements [] [] statements

end ViewLang.Toml
