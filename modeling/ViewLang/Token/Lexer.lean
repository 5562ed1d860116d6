import ViewLang.Diagnostic
import ViewLang.Text.Blank
import ViewLang.Token.Basic

namespace ViewLang

def byteLength : List Char → Nat
  | [] => 0
  | c :: cs => c.utf8Size + byteLength cs

namespace Lexer

/-- What keeps a text from being read. Positions count characters from the place where reading stopped. -/
inductive Fault
  | openString (width : Nat)
  | badStringEscape (before : Nat)
  | badTemplateEscape (before : Nat)
  | openComment
  | badCharacter
deriving Repr, DecidableEq

inductive Front
  | token (t : Token) (width : Nat)
  | trivia (width : Nat)
  | fault (f : Fault)
deriving Repr, DecidableEq

def isIdentStart (c : Char) : Bool := c.isAlpha || c == '_'

def isIdentChar (c : Char) : Bool := c.isAlphanum || c == '_'

def word (cs : List Char) : Front :=
  let text := cs.takeWhile isIdentChar
  match Keyword.ofText? (String.ofList text) with
  | some k => .token (.keyword k) text.length
  | none => .token (.ident (String.ofList text)) text.length

def hexWidth? : List Char → Option Nat
  | '0' :: x :: cs =>
    let digits := (cs.takeWhile Text.isHexDigit).length
    if (x == 'x' || x == 'X') && digits != 0 then some (2 + digits) else none
  | _ => none

/-- Width of a fraction after the integer digits. A point with no digit after it is one only when neither a name
nor another point follows; a point before a name selects. -/
def fractionWidth : List Char → Nat
  | '.' :: cs =>
    let digits := (cs.takeWhile Char.isDigit).length
    if digits != 0 then 1 + digits
    else match cs with
      | c :: _ => if isIdentChar c || c == '.' then 0 else 1
      | [] => 1
  | _ => 0

def exponentWidth : List Char → Nat
  | e :: cs =>
    if e == 'e' || e == 'E' then
      let sign := match cs with
        | c :: _ => if c == '+' || c == '-' then 1 else 0
        | [] => 0
      let digits := ((cs.drop sign).takeWhile Char.isDigit).length
      if digits != 0 then 1 + sign + digits else 0
    else 0
  | [] => 0

def numberWidth (cs : List Char) : Nat × Bool :=
  match hexWidth? cs with
  | some w => (w, false)
  | none =>
    let whole := (cs.takeWhile Char.isDigit).length
    let fraction := fractionWidth (cs.drop whole)
    let exponent := exponentWidth (cs.drop (whole + fraction))
    (whole + fraction + exponent, fraction != 0 || exponent != 0)

def number (cs : List Char) : Front :=
  let (width, isFloat) := numberWidth cs
  if (cs.drop width).head?.any isIdentChar then .fault .badCharacter
  else
    let text := String.ofList (cs.take width)
    .token (if isFloat then .float text else .int text) width

inductive Run
  | closed (text : List Char) (width : Nat)
  | unclosed (width : Nat)
  | badEscape (before : Nat)
deriving Repr, DecidableEq

def Run.cons (c : Char) (width : Nat) : Run → Run
  | closed text w => closed (c :: text) (width + w)
  | unclosed w => unclosed (width + w)
  | badEscape w => badEscape (width + w)

def stringEscape? : Char → Option Char
  | 'n' => some '\n'
  | 'r' => some '\r'
  | 't' => some '\t'
  | '0' => some '\x00'
  | '\\' => some '\\'
  | '"' => some '"'
  | _ => none

def templateEscape? : Char → Option Char
  | 'n' => some '\n'
  | 't' => some '\t'
  | '\\' => some '\\'
  | '\x60' => some '\x60'
  | '\x7b' => some '\x7b'
  | '\x7d' => some '\x7d'
  | _ => none

def stringRest : List Char → Run
  | [] => .unclosed 0
  | '\\' :: [] => .badEscape 0
  | '\\' :: c :: cs =>
    match stringEscape? c with
    | some d => (stringRest cs).cons d 2
    | none => .badEscape 0
  | c :: cs =>
    if c == '"' then .closed [] 1
    else if c == '\n' || c == '\r' then .unclosed 0
    else (stringRest cs).cons c 1

def templateRun : List Char → Run
  | [] => .closed [] 0
  | '\\' :: [] => .badEscape 0
  | '\\' :: c :: cs =>
    match templateEscape? c with
    | some d => (templateRun cs).cons d 2
    | none => .badEscape 0
  | c :: cs =>
    if c == '\x60' || c == '\x7b' then .closed [] 0
    else (templateRun cs).cons c 1

def commentWidth? : List Char → Option Nat
  | [] => none
  | '*' :: '/' :: _ => some 2
  | _ :: cs => (commentWidth? cs).map (· + 1)

def symbol? (cs : List Char) : Option Symbol := Symbol.all.find? fun s => s.text.toList.isPrefixOf cs

def codeFront : List Char → Front
  | '/' :: '/' :: cs => .trivia (2 + (cs.takeWhile (· != '\n')).length)
  | '/' :: '*' :: cs =>
    match commentWidth? cs with
    | some w => .trivia (2 + w)
    | none => .fault .openComment
  | '"' :: cs =>
    match stringRest cs with
    | .closed text w => .token (.string (String.ofList text)) (1 + w)
    | .unclosed w => .fault (.openString (1 + w))
    | .badEscape w => .fault (.badStringEscape (1 + w))
  | '\x60' :: _ => .token .templateStart 1
  | cs =>
    match cs.head? with
    | none => .fault .badCharacter
    | some c =>
      if Text.isBlank c then .trivia (cs.takeWhile Text.isBlank).length
      else if c.isDigit then number cs
      else if isIdentStart c then word cs
      else match symbol? cs with
        | some s => .token (.symbol s) s.text.toList.length
        | none => .fault .badCharacter

def templateFront : List Char → Front
  | '\x60' :: _ => .token .templateEnd 1
  | '\x7b' :: _ => .token .interpOpen 1
  | cs =>
    match templateRun cs with
    | .closed text w => .token (.templateText (String.ofList text)) w
    | .unclosed _ => .fault .badCharacter
    | .badEscape w => .fault (.badTemplateEscape w)

inductive Mode
  | template
  | interp (depth : Nat)
deriving Repr, DecidableEq

/-- What is open at a place: templates and interpolations, and where the templates begin. Innermost ones come
first. -/
structure Nesting where
  modes : List Mode
  starts : List Nat
deriving Repr, DecidableEq

def front : List Mode → List Char → Front
  | .template :: _, cs => templateFront cs
  | _, cs => codeFront cs

def transition (start : Nat) (n : Nesting) (t : Token) : Token × Nesting :=
  match n.modes, t with
  | modes, .templateStart => (.templateStart, ⟨.template :: modes, start :: n.starts⟩)
  | .template :: outer, .templateEnd => (.templateEnd, ⟨outer, n.starts.tail⟩)
  | .template :: outer, .interpOpen => (.interpOpen, ⟨.interp 0 :: .template :: outer, n.starts⟩)
  | .interp d :: outer, .symbol .leftBrace => (.symbol .leftBrace, ⟨.interp (d + 1) :: outer, n.starts⟩)
  | .interp 0 :: outer, .symbol .rightBrace => (.interpClose, ⟨outer, n.starts⟩)
  | .interp (d + 1) :: outer, .symbol .rightBrace => (.symbol .rightBrace, ⟨.interp d :: outer, n.starts⟩)
  | _, t => (t, n)

structure State where
  pos : Nat
  rest : List Char
  nesting : Nesting
deriving Repr, DecidableEq

def State.start (source : String) : State := ⟨0, source.toList, ⟨[], []⟩⟩

def State.advance (s : State) (width : Nat) (nesting : Nesting) : State :=
  match s.rest with
  | [] => { s with nesting := nesting }
  | c :: cs => ⟨s.pos + c.utf8Size + byteLength (cs.take (width - 1)), cs.drop (width - 1), nesting⟩

def State.offset (s : State) (width : Nat) : Nat := s.pos + byteLength (s.rest.take width)

def Fault.diagnostic (s : State) : Fault → Diagnostic
  | openString w =>
    (Diagnostic.errorAt .openString "unterminated string literal" ⟨s.pos, s.offset w⟩
      Code.openString.description).withHelp "add closing `\"`"
  | badStringEscape w =>
    (Diagnostic.errorAt .badEscape "invalid escape sequence" ⟨s.offset w, s.offset w + 1⟩
      Code.badEscape.description).withHelp "valid escapes: `\\n`, `\\r`, `\\t`, `\\\\`, `\\\"`, `\\0`"
  | badTemplateEscape w =>
    (Diagnostic.errorAt .badEscape "invalid escape sequence" ⟨s.offset w, s.offset w + 1⟩
      Code.badEscape.description).withHelp "valid escapes: `\\``, `\\\x7b`, `\\\x7d`, `\\\\`, `\\n`, `\\t`"
  | openComment =>
    (Diagnostic.errorAt .openComment "unterminated block comment" ⟨s.pos, s.pos + 2⟩
      Code.openComment.description).withHelp "add closing `*/`"
  | badCharacter =>
    Diagnostic.errorAt .badCharacter "unexpected character" ⟨s.pos, s.pos + 1⟩ Code.badCharacter.description

def openTemplateDiagnostic (start stop : Nat) : Diagnostic :=
  (Diagnostic.errorAt .openTemplate "unterminated template string" ⟨start, stop⟩
    "template starts here").withHelp "add closing `` ` ``"

def step (s : State) : Except Diagnostic (Option (Located Token) × State) :=
  match front s.nesting.modes s.rest with
  | .token t width =>
    let (t, nesting) := transition s.pos s.nesting t
    let next := s.advance width nesting
    .ok (some ⟨t, ⟨s.pos, next.pos⟩⟩, next)
  | .trivia width => .ok (none, s.advance width s.nesting)
  | .fault f => .error (f.diagnostic s)

theorem advance_rest_lt (s : State) (width : Nat) (nesting : Nesting) (h : s.rest ≠ []) :
    (s.advance width nesting).rest.length < s.rest.length := by
  obtain ⟨pos, rest, old⟩ := s
  cases rest with
  | nil => exact absurd rfl h
  | cons c cs =>
    change (cs.drop (width - 1)).length < (c :: cs).length
    rw [List.length_drop, List.length_cons]
    omega

theorem step_rest_lt {s s' : State} {t : Option (Located Token)} (h : s.rest ≠ []) (hs : step s = .ok (t, s')) :
    s'.rest.length < s.rest.length := by
  simp only [step] at hs
  split at hs
  · cases hs
    exact advance_rest_lt s _ _ h
  · cases hs
    exact advance_rest_lt s _ _ h
  · cases hs

def run (s : State) : Except Diagnostic (List (Located Token)) :=
  if _h : s.rest = [] then
    match s.nesting.starts with
    | start :: _ => .error (openTemplateDiagnostic start s.pos)
    | [] => .ok []
  else
    match _hs : step s with
    | .error d => .error d
    | .ok (t, s') =>
      match run s' with
      | .error d => .error d
      | .ok ts => .ok (t.toList ++ ts)
termination_by s.rest.length
decreasing_by exact step_rest_lt _h _hs

end Lexer

def tokenize (source : String) : Except Diagnostic (List (Located Token)) := Lexer.run (Lexer.State.start source)

end ViewLang
