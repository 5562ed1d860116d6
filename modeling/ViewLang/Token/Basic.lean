import ViewLang.Span
import ViewLang.Text.Quoted

namespace ViewLang

inductive Keyword
  | package_
  | import_
  | type_
  | struct_
  | func
  | var
  | if_
  | else_
  | for_
  | range
  | return_
  | break_
  | continue_
  | chan
  | make
deriving Repr, DecidableEq

namespace Keyword

def all : List Keyword :=
  [package_, import_, type_, struct_, func, var, if_, else_, for_, range, return_, break_, continue_, chan, make]

def text : Keyword → String
  | package_ => "package"
  | import_ => "import"
  | type_ => "type"
  | struct_ => "struct"
  | func => "func"
  | var => "var"
  | if_ => "if"
  | else_ => "else"
  | for_ => "for"
  | range => "range"
  | return_ => "return"
  | break_ => "break"
  | continue_ => "continue"
  | chan => "chan"
  | make => "make"

def ofText? (s : String) : Option Keyword := all.find? (·.text == s)

end Keyword

inductive Symbol
  | ellipsis
  | define
  | arrow
  | plusPlus
  | minusMinus
  | plusAssign
  | minusAssign
  | starAssign
  | slashAssign
  | eqEq
  | notEq
  | ltEq
  | gtEq
  | andAnd
  | orOr
  | shl
  | shr
  | andNot
  | plus
  | minus
  | star
  | slash
  | percent
  | assign
  | lt
  | gt
  | bang
  | amp
  | pipe
  | caret
  | leftParen
  | rightParen
  | leftBrace
  | rightBrace
  | leftBracket
  | rightBracket
  | comma
  | semicolon
  | colon
  | dot
  | at_
deriving Repr, DecidableEq

namespace Symbol

def all : List Symbol :=
  [ellipsis, define, arrow, plusPlus, minusMinus, plusAssign, minusAssign, starAssign, slashAssign, eqEq, notEq,
    ltEq, gtEq, andAnd, orOr, shl, shr, andNot, plus, minus, star, slash, percent, assign, lt, gt, bang, amp, pipe,
    caret, leftParen, rightParen, leftBrace, rightBrace, leftBracket, rightBracket, comma, semicolon, colon, dot,
    at_]

def text : Symbol → String
  | ellipsis => "..."
  | define => ":="
  | arrow => "<-"
  | plusPlus => "++"
  | minusMinus => "--"
  | plusAssign => "+="
  | minusAssign => "-="
  | starAssign => "*="
  | slashAssign => "/="
  | eqEq => "=="
  | notEq => "!="
  | ltEq => "<="
  | gtEq => ">="
  | andAnd => "&&"
  | orOr => "||"
  | shl => "<<"
  | shr => ">>"
  | andNot => "&^"
  | plus => "+"
  | minus => "-"
  | star => "*"
  | slash => "/"
  | percent => "%"
  | assign => "="
  | lt => "<"
  | gt => ">"
  | bang => "!"
  | amp => "&"
  | pipe => "|"
  | caret => "^"
  | leftParen => "("
  | rightParen => ")"
  | leftBrace => "\x7b"
  | rightBrace => "\x7d"
  | leftBracket => "["
  | rightBracket => "]"
  | comma => ","
  | semicolon => ";"
  | colon => ":"
  | dot => "."
  | at_ => "@"

end Symbol

inductive Token
  | keyword (k : Keyword)
  | ident (name : String)
  | int (text : String)
  | float (text : String)
  | string (text : String)
  | templateStart
  | templateText (text : String)
  | interpOpen
  | interpClose
  | templateEnd
  | symbol (s : Symbol)
deriving Repr, DecidableEq

def Token.render : Token → String
  | keyword k => k.text
  | ident name => name
  | int text => text
  | float text => text
  | string text => Text.quoted text
  | templateStart => "`"
  | templateText text => text
  | interpOpen => "\x7b"
  | interpClose => "\x7d"
  | templateEnd => "`"
  | symbol s => s.text

end ViewLang
