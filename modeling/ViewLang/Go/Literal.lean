import ViewLang.Syntax.Type
import ViewLang.Text.Hex

namespace ViewLang.Go

def quoteChar (c : Char) : List Char :=
  match c with
  | '"' => ['\\', '"']
  | '\\' => ['\\', '\\']
  | '\n' => ['\\', 'n']
  | '\r' => ['\\', 'r']
  | '\t' => ['\\', 't']
  | _ =>
    if c.toNat < 0x20 ∨ c.toNat = 0x7F then ['\\', 'x'] ++ Text.hexPadded 2 c.toNat
    else if 0x80 ≤ c.toNat ∧ c.toNat < 0xA0 then ['\\', 'u'] ++ Text.hexPadded 4 c.toNat
    else [c]

def quote (s : String) : String := String.ofList ('"' :: s.toList.flatMap quoteChar ++ ['"'])

mutual

def type (runtime : String) : TypeExpr → String × Bool
  | .named name => if name = "Node" then (runtime ++ ".Node", true) else (name, false)
  | .generic name arg =>
    let (text, uses) := type runtime arg
    (name ++ "[" ++ text ++ "]", uses)
  | .chan recvOnly elem =>
    let (text, uses) := type runtime elem
    ((if recvOnly then "<-chan " else "chan ") ++ text, uses)
  | .slice elem =>
    let (text, uses) := type runtime elem
    ("[]" ++ text, uses)
  | .pointer elem =>
    let (text, uses) := type runtime elem
    ("*" ++ text, uses)
  | .func params results =>
    let (params, left) := types runtime params
    let (results, right) := types runtime results
    ("func(" ++ ", ".intercalate params ++ ")" ++ TypeExpr.resultSuffix results, left || right)

def types (runtime : String) : List TypeExpr → List String × Bool
  | [] => ([], false)
  | t :: ts =>
    let (text, left) := type runtime t
    let (texts, right) := types runtime ts
    (text :: texts, left || right)

end

end ViewLang.Go
