import ViewLang.Syntax.Tree
import ViewLang.Text.Quoted

namespace ViewLang

namespace Part

/-- The line of a part in an outline. Parts without one do not show themselves, only what they contain. -/
def line? : Part → Option String
  | unit package => some ("Unit package=" ++ package)
  | import_ path => some ("Import " ++ Text.quoted path)
  | typeDef name => some ("Type " ++ name)
  | field name ty => some ("Field " ++ name ++ " " ++ ty.render)
  | component name renderable autoProps =>
    some ((if renderable then "Component " else "Func ") ++ name ++ (if autoProps then " @props" else ""))
  | param name variadic ty => some ("Param " ++ name ++ " " ++ (if variadic then "..." else "") ++ ty.render)
  | varDecl names ty =>
    some ("Var " ++ ", ".intercalate names ++ (match ty with
      | some t => " " ++ t.render
      | none => ""))
  | exprs => some "ExprStmt"
  | assign op => some ("Assign " ++ op.text)
  | send => some "Send"
  | ret => some "Return"
  | cond => some "If"
  | loop => some "For"
  | branch kind => some kind.text
  | element tag => some ("Element " ++ tag)
  | elementArg (some name) => some ("Arg " ++ name)
  | elementArg none => some "Arg"
  | text s => some ("Text " ++ Text.quoted s)
  | nodeIf => some "NodeIf"
  | nodeFor => some "NodeFor"
  | expr [] => none
  | expr ops => some ("Binary [" ++ " ".intercalate (ops.map (·.text)) ++ "]")
  | int s => some ("Int " ++ s)
  | float s => some ("Float " ++ s)
  | string s => some ("String " ++ Text.quoted s)
  | template n _ => some ("Template (" ++ toString n ++ " fragments)")
  | composite ty => some ("Composite " ++ ty.render)
  | make ty => some ("Make " ++ ty.render)
  | index => some "Index"
  | select (some name) => some ("Selector " ++ name)
  | select none => some "Selector"
  | call (some name) => some ("Call " ++ name)
  | call none => some "Call"
  | func => some "FuncLit"
  | receive channel => some ("Receive " ++ channel)
  | unary op => some ("Unary " ++ op.text)
  | decorator name => some ("@" ++ name)
  | gpuStruct name => some ("GpuStruct " ++ name)
  | gpuField name ty => some ("Field " ++ name ++ " " ++ ty.render)
  | gpuBinding name ty => some ("GpuBinding " ++ name ++ " " ++ ty.render)
  | gpuFunction name => some ("GpuFunction " ++ name)
  | type _ => none
  | body => none
  | block => none
  | stmt => none
  | node => none
  | primary => none
  | templateLiteral => none
  | gpuParam => none

def isSummary : Part → Bool
  | decorator _ => true
  | gpuField .. => true
  | _ => false

def mention? : Part → Option String
  | import_ path => some ("import " ++ path)
  | type ty => some ("type " ++ ty.render)
  | branch kind => some kind.text
  | text s => some ("text " ++ s)
  | call name => some ("call " ++ name.getD "?")
  | select name => some ("selector " ++ name.getD "?")
  | receive channel => some ("receive " ++ channel)
  | _ => none

end Part

structure OutlineLine where
  depth : Nat
  text : String
deriving Repr, DecidableEq

def OutlineLine.render (l : OutlineLine) : String :=
  String.join (List.replicate l.depth "  ") ++ l.text ++ "\n"

namespace Tree

mutual

/-- The lines of a tree at a depth. What is inside a part with a line stands one deeper. -/
def outlineAt (depth : Nat) : Tree → List OutlineLine
  | mk p ts =>
    match p.line? with
    | some text => ⟨depth, text⟩ :: (if p.isSummary then [] else outlineEach (depth + 1) ts)
    | none => outlineEach depth ts

def outlineEach (depth : Nat) : List Tree → List OutlineLine
  | [] => []
  | t :: ts => outlineAt depth t ++ outlineEach depth ts

end

def mentions (t : Tree) : List String := t.parts.filterMap Part.mention?

end Tree

namespace SourceUnit

def outline (u : SourceUnit) : String := String.join ((u.tree.outlineAt 0).map OutlineLine.render)

def mentionsOf (u : SourceUnit) (kind : Kind) : List (List String) := (u.tree.ofKind kind).map Tree.mentions

end SourceUnit
end ViewLang
