import ViewLang.Span

namespace ViewLang

inductive TypeExpr
  | named (name : String)
  | generic (name : String) (arg : TypeExpr)
  | chan (recvOnly : Bool) (elem : TypeExpr)
  | slice (elem : TypeExpr)
  | pointer (elem : TypeExpr)
  | func (params results : List TypeExpr)
deriving Repr

namespace TypeExpr

def isChan : TypeExpr → Bool
  | chan .. => true
  | _ => false

def chanElem? : TypeExpr → Option TypeExpr
  | chan _ elem => some elem
  | _ => none

def baseName? : TypeExpr → Option String
  | named name => some name
  | _ => none

def resultSuffix : List String → String
  | [] => ""
  | [r] => " " ++ r
  | rs => " (" ++ ", ".intercalate rs ++ ")"

mutual

def render : TypeExpr → String
  | named name => name
  | generic name arg => name ++ "[" ++ render arg ++ "]"
  | chan true elem => "<-chan " ++ render elem
  | chan false elem => "chan " ++ render elem
  | slice elem => "[]" ++ render elem
  | pointer elem => "*" ++ render elem
  | func params results =>
    "func(" ++ ", ".intercalate (renderEach params) ++ ")" ++ resultSuffix (renderEach results)

def renderEach : List TypeExpr → List String
  | [] => []
  | t :: ts => render t :: renderEach ts

end

mutual

def same : TypeExpr → TypeExpr → Bool
  | named a, named b => a == b
  | generic a x, generic b y => a == b && same x y
  | chan r x, chan q y => r == q && same x y
  | slice x, slice y => same x y
  | pointer x, pointer y => same x y
  | func ps rs, func qs ss => sameEach ps qs && sameEach rs ss
  | _, _ => false

def sameEach : List TypeExpr → List TypeExpr → Bool
  | [], [] => true
  | x :: xs, y :: ys => same x y && sameEach xs ys
  | _, _ => false

end

instance : BEq TypeExpr := ⟨same⟩

end TypeExpr
end ViewLang
