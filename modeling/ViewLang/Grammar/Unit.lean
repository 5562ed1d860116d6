import ViewLang.Grammar.Node
import ViewLang.Token.Lexer

namespace ViewLang
namespace Grammar

open Reader

inductive BodyItem
  | var (d : VarDecl)
  | stmt (s : Stmt)
  | node (n : Node)

def BodyItem.addTo (body : Body) : BodyItem → Body
  | var d => { body with vars := body.vars ++ [d] }
  | stmt s => { body with stmts := body.stmts ++ [s] }
  | node n => { body with nodes := body.nodes ++ [n] }

/-- A statement, or else a node. A statement that failed beyond the end of a node was meant. -/
def stmtOrNode : Reader BodyItem := fun ts =>
  match statement ts with
  | .ok (s, rest) => .ok (.stmt s, rest)
  | .error stmtError =>
    match node ts with
    | .ok (n, rest) => if stmtError.left < rest.length then .error stmtError else .ok (.node n, rest)
    | .error nodeError => if nodeError.left ≤ stmtError.left then .error nodeError else .error stmtError

def bodyItem : Reader BodyItem := do
  if ← at? (.keyword .var) then .var <$> nested varDecl
  else stmtOrNode

def componentBody : Reader (Body × Span) := do
  let start ← expect (.symbol .leftBrace) "`\x7b`"
  let (list, close) ← items skipSemicolons (.symbol .rightBrace) bodyItem
  pure (list.foldl BodyItem.addTo Body.empty, start.union close)

def component (autoProps : Bool) (start : Span) : Reader Component := do
  let _ ← expect (.keyword .func) "`func`"
  within do
    let name ← ident
    let params ← plainParams
    let results ← resultList
    let (body, extent) ← componentBody
    pure ⟨name, params, results, body, autoProps, start.union extent⟩

def decorator : Reader Decorator := do
  let start ← expect (.symbol .at_) "`@`"
  within do
    let name ← ident
    let span := start.union name.span
    match ← eat? (.symbol .leftParen) with
    | none => pure ⟨name, [], span⟩
    | some _ =>
      let (args, close) ← nested callArgs
      pure ⟨name, args, span.union close⟩

def decoratorList : Reader (List Decorator) :=
  whileSome do
    if ← at? (.symbol .at_) then some <$> decorator else pure none

def skipFieldGaps : Reader Unit := fun ts =>
  .ok ((), ts.dropWhile fun t => t.value == .symbol .semicolon || t.value == .symbol .comma)

def fieldGroup (decorated : Bool) : Reader (List GpuField) := do
  if !decorated && (← at? (.symbol .at_)) then fail "field name (decorators need a GPU struct)"
  else
    let decorators ← decoratorList
    let names ← identList
    let ty ← type
    pure (names.map fun name => ⟨decorators, name, ty⟩)

def structFields (decorated : Bool) : Reader (List GpuField × Span) := do
  let _ ← expect (.symbol .leftBrace) "`\x7b`"
  let (groups, close) ← items skipFieldGaps (.symbol .rightBrace) (fieldGroup decorated)
  pure (groups.flatten, close)

inductive Decl
  | type (d : TypeDef)
  | component (c : Component)
  | gpuStruct (s : GpuStruct)
  | gpuBinding (b : GpuBinding)
  | gpuFunction (f : GpuFunction)

def structDecl (decorators : List Decorator) (start : Span) : Reader Decl := do
  let _ ← expect (.keyword .type_) "`type`"
  within do
    let name ← ident
    let _ ← expect (.keyword .struct_) "`struct`"
    let (fields, close) ← structFields (!decorators.isEmpty)
    if decorators.isEmpty then
      pure (.type ⟨name, fields.map fun f => ⟨f.name, f.ty⟩, start.union close⟩)
    else pure (.gpuStruct ⟨decorators, name, fields, start.union close⟩)

def gpuResult? : Reader (Option GpuResult) := do
  if (← at? (.symbol .at_)) || startsType (← peek?) then
    let decorators ← decoratorList
    let ty ← type
    pure (some ⟨decorators, ty⟩)
  else pure none

def gpuFunction (decorators : List Decorator) (start : Span) : Reader GpuFunction := do
  let _ ← expect (.keyword .func) "`func`"
  within do
    let name ← ident
    let params ← paramList decoratorList
    let result ← gpuResult?
    let body ← block
    pure ⟨decorators, name, params.map fun p => ⟨p.decorators, p.param.name, p.param.ty⟩, result, body,
      start.union body.span⟩

def gpuBinding (decorators : List Decorator) (start : Span) : Reader GpuBinding := do
  let _ ← expect (.keyword .var) "`var`"
  within do
    let name ← ident
    let ty ← type
    pure ⟨decorators, name, ty, start.union ty.span⟩

def funcDecl (decorators : List Decorator) (start : Span) : Reader Decl :=
  match decorators with
  | [] => .component <$> component false start
  | [d] => if d.name.value = "props" then .component <$> component true start
    else .gpuFunction <$> gpuFunction decorators start
  | _ => if decorators.any (·.name.value = "props") then fail "`@props` as the only decorator"
    else .gpuFunction <$> gpuFunction decorators start

def topLevelDecl : Reader Decl := do
  match ← next? with
  | none => fail "declaration"
  | some first =>
    let decorators ← decoratorList
    match ← peek?, decorators with
    | some (.keyword .type_), _ => structDecl decorators first.span
    | some (.keyword .func), _ => funcDecl decorators first.span
    | some (.keyword .var), _ :: _ => .gpuBinding <$> gpuBinding decorators first.span
    | _, _ => fail "`type`, `func` or decorated `var`"

def importDecl : Reader (List Name) := do
  let _ ← expect (.keyword .import_) "`import`"
  within do
    match ← eat? (.symbol .leftParen) with
    | none =>
      let path ← stringLiteral
      pure [path]
    | some _ =>
      let (paths, _) ← items skipSemicolons (.symbol .rightParen) stringLiteral
      pure paths

def importGroup? : Reader (Option (List Name)) := do
  if ← at? (.keyword .import_) then
    let paths ← importDecl
    skipSemicolons
    pure (some paths)
  else pure none

def decl? : Reader (Option Decl) := do
  match ← next? with
  | none => pure none
  | some _ =>
    let d ← topLevelDecl
    skipSemicolons
    pure (some d)

def assemble (package : Name) (imports : List Name) (decls : List Decl) : SourceUnit where
  package := package
  imports := imports
  types := decls.filterMap fun | .type d => some d | _ => none
  components := decls.filterMap fun | .component c => some c | _ => none
  gpuStructs := decls.filterMap fun | .gpuStruct s => some s | _ => none
  gpuBindings := decls.filterMap fun | .gpuBinding b => some b | _ => none
  gpuFunctions := decls.filterMap fun | .gpuFunction f => some f | _ => none

def sourceUnit : Reader SourceUnit := do
  skipSemicolons
  let _ ← expect (.keyword .package_) "`package` clause"
  let package ← within ident
  skipSemicolons
  let imports ← whileSome importGroup?
  let decls ← whileSome decl?
  pure (assemble package imports.flatten decls)

end Grammar

def parseTokens (tokens : Tokens) : Except Diagnostic SourceUnit :=
  match Grammar.sourceUnit tokens with
  | .ok (unit, _) => .ok unit
  | .error f => .error (f.diagnostic tokens)

/-- Read a source file. The file's name goes into the rejection. -/
def parse (file source : String) : Except Rejection SourceUnit :=
  match tokenize source with
  | .error d => .error ((Rejection.ofDiagnostic d).withFile file)
  | .ok tokens =>
    match parseTokens tokens with
    | .error d => .error ((Rejection.ofDiagnostic d).withFile file)
    | .ok unit => .ok unit

end ViewLang
