import ViewLang.LineIndex

namespace ViewLang

inductive Severity
  | error
  | warning
deriving Repr, DecidableEq

def Severity.text : Severity → String
  | .error => "error"
  | .warning => "warning"

/-- What a diagnostic is about. Codes from 1 concern tokens, from 100 the grammar, from 200 names
and from 300 the shader side. -/
inductive Code
  | openString
  | badCharacter
  | badEscape
  | openTemplate
  | openComment
  | badToken
  | endOfInput
  | variadicNotLast
  | undefinedVariable
  | undefinedChannel
  | countMismatch
  | ignoredNodes
  | shadowedParam
  | unknownType
  | badDecorator
  | channelOp
  | badConstruct
  | unknownFunction
  | noAddressSpace
deriving Repr, DecidableEq

namespace Code

def all : List Code :=
  [openString, badCharacter, badEscape, openTemplate, openComment, badToken, endOfInput, variadicNotLast,
    undefinedVariable, undefinedChannel, countMismatch, ignoredNodes, shadowedParam, unknownType, badDecorator,
    channelOp, badConstruct, unknownFunction, noAddressSpace]

def text : Code → String
  | openString => "E001"
  | badCharacter => "E002"
  | badEscape => "E003"
  | openTemplate => "E004"
  | openComment => "E005"
  | badToken => "E100"
  | endOfInput => "E101"
  | variadicNotLast => "E102"
  | undefinedVariable => "E200"
  | undefinedChannel => "E201"
  | countMismatch => "E202"
  | ignoredNodes => "E203"
  | shadowedParam => "E204"
  | unknownType => "E300"
  | badDecorator => "E301"
  | channelOp => "E302"
  | badConstruct => "E303"
  | unknownFunction => "E304"
  | noAddressSpace => "E305"

def description : Code → String
  | openString => "unterminated string literal"
  | badCharacter => "unexpected character"
  | badEscape => "invalid escape sequence"
  | openTemplate => "unterminated template string"
  | openComment => "unterminated block comment"
  | badToken => "unexpected token"
  | endOfInput => "incomplete input"
  | variadicNotLast => "variadic parameter must be last"
  | undefinedVariable => "undefined variable"
  | undefinedChannel => "undefined channel"
  | countMismatch => "assignment mismatch"
  | ignoredNodes => "nodes ignored in plain function"
  | shadowedParam => "variable shadows parameter"
  | unknownType => "unknown shader type"
  | badDecorator => "unsupported decorator"
  | channelOp => "channel operation in shader"
  | badConstruct => "unsupported shader construct"
  | unknownFunction => "unknown shader function"
  | noAddressSpace => "missing address space"

def ofText? (s : String) : Option Code := all.find? (·.text == s)

end Code

/-- A message pinned to a range. The primary label marks the problem itself. -/
structure Label where
  span : Span
  message : String
  primary : Bool
deriving Repr, DecidableEq

structure Diagnostic where
  severity : Severity
  code : Option Code
  message : String
  labels : List Label
  help : Option String
deriving Repr, DecidableEq

namespace Diagnostic

def plain (severity : Severity) (message : String) : Diagnostic := ⟨severity, none, message, [], none⟩

def errorAt (code : Code) (message : String) (span : Span) (label : String) : Diagnostic :=
  ⟨.error, some code, message, [⟨span, label, true⟩], none⟩

def warningAt (code : Code) (message : String) (span : Span) (label : String) : Diagnostic :=
  ⟨.warning, some code, message, [⟨span, label, true⟩], none⟩

def withCode (d : Diagnostic) (code : Code) : Diagnostic := { d with code := some code }

def withLabel (d : Diagnostic) (span : Span) (message : String) : Diagnostic :=
  { d with labels := d.labels ++ [⟨span, message, true⟩] }

def withSecondary (d : Diagnostic) (span : Span) (message : String) : Diagnostic :=
  { d with labels := d.labels ++ [⟨span, message, false⟩] }

def withHelp (d : Diagnostic) (help : String) : Diagnostic := { d with help := some help }

def isError (d : Diagnostic) : Bool := d.severity == .error

def primarySpan? (d : Diagnostic) : Option Span := (d.labels.find? (·.primary)).map (·.span)

def render (d : Diagnostic) : String :=
  let code := match d.code with
    | some c => "[" ++ c.text ++ "]"
    | none => ""
  d.severity.text ++ code ++ ": " ++ d.message

/-- One-line form after `file:line:column: `, or after `file: ` without a primary label. -/
def renderLocated (d : Diagnostic) (file : String) (index : LineIndex) : String :=
  match d.primarySpan? with
  | some span =>
    let (line, col) := index.lineCol span.start
    file ++ ":" ++ toString line ++ ":" ++ toString col ++ ": " ++ d.render
  | none => file ++ ": " ++ d.render

end Diagnostic

structure Rejection where
  file : Option String
  diagnostics : List Diagnostic
deriving Repr, DecidableEq

namespace Rejection

def ofDiagnostic (d : Diagnostic) : Rejection := ⟨none, [d]⟩

def withFile (r : Rejection) (file : String) : Rejection := { r with file := some file }

def render (r : Rejection) : String :=
  let before := match r.file with
    | some file => file ++ ": "
    | none => ""
  let text := match r.diagnostics with
    | [] => ""
    | [d] => d.render
    | d :: more => d.render ++ " (+" ++ toString more.length ++ " more)"
  before ++ text

def renderLocated (r : Rejection) (source : String) : String :=
  let index := LineIndex.ofText source
  let file := r.file.getD "<input>"
  "\n".intercalate (r.diagnostics.map (·.renderLocated file index))

end Rejection
end ViewLang
