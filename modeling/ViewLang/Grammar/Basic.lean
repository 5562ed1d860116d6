import ViewLang.Diagnostic
import ViewLang.Token.Basic

namespace ViewLang

abbrev Tokens := List (Located Token)

namespace Grammar

inductive Cause
  | expected (what : String)
  | variadicNotLast (span : Span)
deriving Repr, DecidableEq

/-- A failed reading. Places are given as numbers of tokens left. -/
structure Failure where
  cause : Cause
  left : Nat
  starts : List Nat
deriving Repr, DecidableEq

def Reader (α : Type) : Type := Tokens → Except Failure (α × Tokens)

namespace Reader

variable {α β : Type}

protected def pure (a : α) : Reader α := fun ts => .ok (a, ts)

protected def bind (p : Reader α) (f : α → Reader β) : Reader β := fun ts =>
  match p ts with
  | .ok (a, rest) => f a rest
  | .error e => .error e

instance : Monad Reader where
  pure := Reader.pure
  bind := Reader.bind

def fail (what : String) : Reader α := fun ts => .error ⟨.expected what, ts.length, []⟩

def within (p : Reader α) : Reader α := fun ts =>
  match p ts with
  | .ok r => .ok r
  | .error e => .error { e with starts := e.starts ++ [ts.length] }

def sized (p : Nat → Reader α) : Reader α := fun ts => p ts.length ts

def next? : Reader (Option (Located Token)) := fun ts => .ok (ts.head?, ts)

def peek? : Reader (Option Token) := fun ts => .ok (ts.head?.map (·.value), ts)

def second? : Reader (Option Token) := fun ts => .ok (ts[1]?.map (·.value), ts)

def at? (t : Token) : Reader Bool := fun ts => .ok (ts.head?.any (·.value == t), ts)

def skip : Reader Unit := fun ts => .ok ((), ts.tail)

def eat? (t : Token) : Reader (Option Span) := fun
  | [] => .ok (none, [])
  | u :: us => if u.value = t then .ok (some u.span, us) else .ok (none, u :: us)

def expect (t : Token) (what : String) : Reader Span := fun
  | [] => .error ⟨.expected what, 0, []⟩
  | u :: us => if u.value = t then .ok (u.span, us) else .error ⟨.expected what, us.length + 1, []⟩

def ident : Reader Name := fun
  | ⟨.ident name, span⟩ :: ts => .ok (⟨name, span⟩, ts)
  | ts => .error ⟨.expected "identifier", ts.length, []⟩

def stringLiteral : Reader Name := fun
  | ⟨.string text, span⟩ :: ts => .ok (⟨text, span⟩, ts)
  | ts => .error ⟨.expected "string literal", ts.length, []⟩

def moreIdents : Tokens → List Name × Tokens
  | ⟨.symbol .comma, _⟩ :: ⟨.ident name, span⟩ :: ts =>
    let (names, rest) := moreIdents ts
    (⟨name, span⟩ :: names, rest)
  | ts => ([], ts)

def identList : Reader (List Name) := do
  let first ← ident
  fun ts =>
    let (names, rest) := moreIdents ts
    .ok (first :: names, rest)

def skipSemicolons : Reader Unit := fun ts => .ok ((), ts.dropWhile (·.value == .symbol .semicolon))

def whileSomeUpTo (p : Reader (Option α)) : Nat → Reader (List α)
  | 0 => pure []
  | n + 1 => do
    match ← p with
    | none => pure []
    | some a =>
      let as ← whileSomeUpTo p n
      pure (a :: as)

def whileSome (p : Reader (Option α)) : Reader (List α) := sized fun n => whileSomeUpTo p (n + 1)

def commaListUpTo (close : Token) (what : String) (item : Reader α) : Nat → Reader (List α × Span)
  | 0 => fail what
  | n + 1 => do
    match ← eat? close with
    | some span => pure ([], span)
    | none =>
      let a ← item
      match ← eat? (.symbol .comma) with
      | none =>
        let span ← expect close what
        pure ([a], span)
      | some _ =>
        let (as, span) ← commaListUpTo close what item n
        pure (a :: as, span)

def commaList (close : Token) (what : String) (item : Reader α) : Reader (List α × Span) :=
  sized fun n => commaListUpTo close what item (n + 1)

def itemsUpTo (gap : Reader Unit) (close : Token) (item : Reader α) : Nat → Reader (List α × Span)
  | 0 => fail close.render
  | n + 1 => do
    gap
    match ← eat? close with
    | some span => pure ([], span)
    | none =>
      let a ← item
      let (as, span) ← itemsUpTo gap close item n
      pure (a :: as, span)

def items (gap : Reader Unit) (close : Token) (item : Reader α) : Reader (List α × Span) :=
  sized fun n => itemsUpTo gap close item (n + 1)

end Reader

def Failure.diagnostic (tokens : Tokens) (f : Failure) : Diagnostic :=
  match f.cause with
  | .variadicNotLast span =>
    (Diagnostic.errorAt .variadicNotLast "variadic parameter must be the last parameter" span
      "followed by more parameters").withHelp "move the `...` parameter to the end of the list"
  | .expected what =>
    match tokens[tokens.length - f.left]? with
    | none =>
      Diagnostic.errorAt .endOfInput ("unexpected end of input, expected " ++ what)
        ((tokens.getLast?.map (·.span)).getD Span.none) "input ends here"
    | some found =>
      let d := Diagnostic.errorAt .badToken ("expected " ++ what ++ ", found `" ++ found.value.render ++ "`")
        found.span "unexpected token"
      match f.starts.find? (fun start => tokens.length - start < tokens.length - f.left) with
      | none => d
      | some start =>
        match tokens[tokens.length - start]? with
        | none => d
        | some first => d.withSecondary first.span "while parsing this"

end Grammar
end ViewLang
