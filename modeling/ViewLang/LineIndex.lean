import ViewLang.Span

namespace ViewLang

structure LineIndex where
  later : List Nat
deriving Repr

namespace LineIndex

def startsAfter (pos : Nat) : List Char → List Nat
  | [] => []
  | c :: cs =>
    if c = '\n' then (pos + 1) :: startsAfter (pos + 1) cs else startsAfter (pos + c.utf8Size) cs

def ofText (source : String) : LineIndex := ⟨startsAfter 0 source.toList⟩

def starts (index : LineIndex) : List Nat := 0 :: index.later

def lineCount (index : LineIndex) : Nat := index.starts.length

def locate (offset : Nat) : Nat → Nat → List Nat → Nat × Nat
  | line, start, [] => (line, offset - start + 1)
  | line, start, next :: rest =>
    if next ≤ offset then locate offset (line + 1) next rest else (line, offset - start + 1)

def lineCol (index : LineIndex) (offset : Nat) : Nat × Nat := locate offset 1 0 index.later

end LineIndex
end ViewLang
