namespace ViewLang

structure Span where
  start : Nat
  stop : Nat
deriving Repr, DecidableEq, Inhabited

namespace Span

def none : Span := ⟨0, 0⟩

def len (s : Span) : Nat := s.stop - s.start

def isEmpty (s : Span) : Bool := s.len == 0

def union (a b : Span) : Span := ⟨min a.start b.start, max a.stop b.stop⟩

def render (s : Span) : String := toString s.start ++ ".." ++ toString s.stop

end Span

structure Located (α : Type) where
  value : α
  span : Span
deriving Repr

namespace Located

variable {α β : Type}

def map (f : α → β) (x : Located α) : Located β := ⟨f x.value, x.span⟩

def sameValue [BEq α] (x y : Located α) : Bool := x.value == y.value

end Located

abbrev Name := Located String

end ViewLang
