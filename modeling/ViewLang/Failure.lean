import ViewLang.Compile

namespace ViewLang

inductive FileError
  | missing
  | exists_
  | notDirectory
  | isDirectory
  | nameTooLong
  | nulInName
  | notText
  | system (text : String) (code : Nat)
deriving Repr, DecidableEq

namespace FileError

def numbered (text : String) (code : Nat) : String := text ++ " (os error " ++ toString code ++ ")"

def message : FileError → String
  | missing => numbered "No such file or directory" 2
  | exists_ => numbered "File exists" 17
  | notDirectory => numbered "Not a directory" 20
  | isDirectory => numbered "Is a directory" 21
  | nameTooLong => numbered "File name too long" 36
  | nulInName => "file name contained an unexpected NUL byte"
  | notText => "stream did not contain valid UTF-8"
  | system text code => numbered text code

def isUnreadable : FileError → Bool
  | isDirectory | notText | system .. => true
  | _ => false

end FileError

inductive ConfigError
  | malformed
  | missing (path : String)
  | badAlias (name : String)
  | noImport
deriving Repr, DecidableEq

def ConfigError.message : ConfigError → String
  | malformed => "Failed to parse TOML configuration"
  | missing path => "Missing configuration file: " ++ path
  | badAlias name => "Validation error: runtime_alias `" ++ name ++ "` is not a Go identifier"
  | noImport => "Validation error: runtime_import must not be empty"

inductive Failure
  | file (e : FileError)
  | config (e : ConfigError)
  | compile (e : CompileError)
  | semantic (ds : List Diagnostic)
deriving Repr, DecidableEq

inductive Report
  | diagnostic (d : Diagnostic)
  | bare (code : Option String) (message : String)
deriving Repr, DecidableEq

namespace Report

def message : Report → String
  | diagnostic d => d.message
  | bare _ message => message

def code? : Report → Option String
  | diagnostic d => d.code.map (·.text)
  | bare code _ => code

def severity? : Report → Option Severity
  | diagnostic d => some d.severity
  | bare .. => none

def help? : Report → Option String
  | diagnostic d => d.help
  | bare .. => none

def labels : Report → List Label
  | diagnostic d => d.labels
  | bare .. => []

def showsSource : Report → Bool
  | diagnostic _ => true
  | bare .. => false

end Report

namespace Failure

def message : Failure → String
  | file e => "I/O error: " ++ e.message
  | config e => "Configuration error: " ++ e.message
  | compile e => e.message
  | semantic ds => "semantic analysis found " ++ toString (ds.filter (·.isError)).length ++ " error(s)"

def reports : Failure → List Report
  | f@(file _) => [.bare (some "weft::io") f.message]
  | f@(config _) => [.bare (some "weft::config") f.message]
  | compile (.rejected r) => r.diagnostics.map .diagnostic
  | compile (.shader e) => [.diagnostic e.diagnostic]
  | f@(compile (.overflow _)) => [.bare none f.message]
  | semantic ds => ds.map .diagnostic

end Failure
end ViewLang
