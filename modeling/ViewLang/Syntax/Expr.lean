import ViewLang.Syntax.Type

namespace ViewLang

inductive BinaryOp
  | add
  | sub
  | mul
  | div
  | rem
  | eq
  | ne
  | lt
  | le
  | gt
  | ge
  | and
  | or
  | bitAnd
  | bitOr
  | bitXor
  | shl
  | shr
  | andNot
deriving Repr, DecidableEq

def BinaryOp.text : BinaryOp → String
  | add => "+"
  | sub => "-"
  | mul => "*"
  | div => "/"
  | rem => "%"
  | eq => "=="
  | ne => "!="
  | lt => "<"
  | le => "<="
  | gt => ">"
  | ge => ">="
  | and => "&&"
  | or => "||"
  | bitAnd => "&"
  | bitOr => "|"
  | bitXor => "^"
  | shl => "<<"
  | shr => ">>"
  | andNot => "&^"

inductive UnaryOp
  | neg
  | plus
  | not
  | ref
  | deref
  | bitNot
deriving Repr, DecidableEq

def UnaryOp.text : UnaryOp → String
  | neg => "-"
  | plus => "+"
  | not => "!"
  | ref => "&"
  | deref => "*"
  | bitNot => "^"

inductive AssignOp
  | define
  | assign
  | add
  | sub
  | mul
  | div
  | inc
  | dec
deriving Repr, DecidableEq

namespace AssignOp

def text : AssignOp → String
  | define => ":="
  | assign => "="
  | add => "+="
  | sub => "-="
  | mul => "*="
  | div => "/="
  | inc => "++"
  | dec => "--"

def isDeclaring : AssignOp → Bool
  | define => true
  | _ => false

def isPostfix : AssignOp → Bool
  | inc => true
  | dec => true
  | _ => false

end AssignOp

inductive BranchKind
  | break_
  | continue_
deriving Repr, DecidableEq

def BranchKind.text : BranchKind → String
  | break_ => "break"
  | continue_ => "continue"

structure Param where
  name : Name
  ty : Located TypeExpr
  variadic : Bool
deriving Repr

mutual

structure Expr where
  head : Primary
  tail : List Link
  span : Span

structure Link where
  op : Located BinaryOp
  operand : Primary

inductive Primary
  | int (text : Name)
  | float (text : Name)
  | string (text : Name)
  | template (t : Template)
  | composite (ty : Located TypeExpr) (entries : List Entry) (span : Span)
  | make (ty : Located TypeExpr) (args : List Expr) (span : Span)
  | index (target : Primary) (index : Expr) (span : Span)
  | slice (target : Primary) (low high : Option Expr) (span : Span)
  | select (base : Base) (path : List Name) (span : Span)
  /-- The same, called: `a.b.c(x)`. -/
  | call (base : Base) (path : List Name) (args : List Expr) (span : Span)
  | func (params : List Param) (results : List (Located TypeExpr)) (body : Block) (span : Span)
  | receive (channel : Name) (span : Span)
  | unary (op : UnaryOp) (operand : Primary) (span : Span)
  | paren (inner : Expr)

inductive Base
  | name (n : Name)
  | operand (p : Primary)

structure Template where
  fragments : List Fragment
  span : Span

inductive Fragment
  | text (s : String)
  | interp (e : Expr)

structure Entry where
  key : Option Name
  value : Expr

structure Block where
  stmts : List Stmt
  span : Span

inductive Stmt
  | var (d : VarDecl)
  | simple (s : SimpleStmt)
  | ret (values : List Expr) (span : Span)
  | cond (s : IfStmt)
  | loop (header : LoopHeader) (body : Block) (span : Span)
  | branch (kind : BranchKind) (span : Span)

inductive SimpleStmt
  | exprs (targets : List Expr) (span : Span)
  | assign (targets : List Expr) (op : Located AssignOp) (values : List Expr) (span : Span)
  | send (channel value : Expr) (span : Span)

structure VarDecl where
  names : List Name
  ty : Option (Located TypeExpr)
  values : List Expr
  span : Span

structure IfStmt where
  init : Option SimpleStmt
  cond : Expr
  body : Block
  otherwise : Else
  span : Span

inductive Else
  | none
  | block (b : Block)
  | chain (s : IfStmt)

inductive LoopHeader
  | infinite
  | cond (e : Expr)
  | classic (init : Option SimpleStmt) (cond : Option Expr) (post : Option SimpleStmt)
  | range (key value : Option Name) (iterable : Expr)

end

namespace Primary

def span : Primary → Span
  | int text => text.span
  | float text => text.span
  | string text => text.span
  | template t => t.span
  | composite _ _ s => s
  | make _ _ s => s
  | index _ _ s => s
  | slice _ _ _ s => s
  | select _ _ s => s
  | call _ _ _ s => s
  | func _ _ _ s => s
  | receive _ s => s
  | unary _ _ s => s
  | paren inner => inner.span

def ident (n : Name) : Primary := select (.name n) [] n.span

def ident? : Primary → Option Name
  | select (.name n) [] _ => some n
  | _ => none

def isCall : Primary → Bool
  | call .. => true
  | _ => false

end Primary

namespace Base

def name? : Base → Option Name
  | name n => some n
  | operand _ => none

def qualified? (b : Base) (path : List Name) : Option String :=
  b.name?.map fun n => ".".intercalate (n.value :: path.map (·.value))

end Base

namespace Expr

def single (p : Primary) : Expr := ⟨p, [], p.span⟩

def primary? (e : Expr) : Option Primary := if e.tail.isEmpty then some e.head else none

def ident? (e : Expr) : Option Name := e.primary? >>= Primary.ident?

def isCall (e : Expr) : Bool := e.primary?.any Primary.isCall

end Expr

def Template.received (t : Template) : List Name :=
  t.fragments.filterMap fun
    | .text _ => none
    | .interp e => match e.primary? with
      | some (.receive channel _) => some channel
      | _ => none

def SimpleStmt.span : SimpleStmt → Span
  | exprs _ s => s
  | assign _ _ _ s => s
  | send _ _ s => s

def Stmt.span : Stmt → Span
  | var d => d.span
  | simple s => s.span
  | ret _ s => s
  | cond s => s.span
  | loop _ _ s => s
  | branch _ s => s

end ViewLang
