import ViewLang.Go.Component
import ViewLang.Proofs.Go.ScopeDiscipline

namespace ViewLang

def Primary.root? : Primary → Option Name
  | .select (.name n) _ _ => some n
  | .select (.operand p) _ _ => p.root?
  | .index target _ _ => target.root?
  | .slice target _ _ _ => target.root?
  | .unary .deref operand _ => operand.root?
  | .paren ⟨inner, [], _⟩ => inner.root?
  | _ => none

def Primary.isPath : Primary → Bool
  | .select (.name _) _ _ => true
  | _ => false

def Primary.callee? : Primary → Option Name
  | .call (.name n) _ _ _ => some n
  | _ => none

namespace Expr

def root? (e : Expr) : Option Name := e.primary? >>= Primary.root?

def isShallow (e : Expr) : Bool :=
  match e.primary? with
  | some (.index target _ _) => target.isPath
  | some (.slice target _ _ _) => target.isPath
  | some p => p.isPath
  | none => false

def callee? (e : Expr) : Option Name :=
  match e.primary? with
  | some (.index target _ _) => target.callee?
  | some (.slice target _ _ _) => target.callee?
  | some p => p.callee?
  | none => none

end Expr

namespace Go

open Lexical (Locals)

structure Assignment where
  locals : Locals
  target : Expr

namespace Assignment

def reachesState (env : Env) (a : Assignment) : Bool :=
  a.target.root?.any fun x => (Lexical.field? env a.locals x.value).isSome

def callsState (env : Env) (a : Assignment) : Bool :=
  a.target.callee?.any fun x => (Lexical.field? env a.locals x.value).isSome

end Assignment

def simpleAssignments (locals : Locals) : SimpleStmt → List Assignment
  | .assign targets op _ _ => if op.value.isDeclaring then [] else targets.map (Assignment.mk locals)
  | _ => []

def clauseAssignments (locals : Locals) : Option SimpleStmt → List Assignment
  | none => []
  | some s => simpleAssignments locals s

def headerAssignments (locals : Locals) : LoopHeader → List Assignment
  | .classic init _ post =>
    clauseAssignments locals init ++ clauseAssignments (locals.extend (Lexical.declaredByClause init)) post
  | _ => []

mutual

def stmtAssignments (locals : Locals) : Stmt → List Assignment
  | .simple s => simpleAssignments locals s
  | .cond s => ifAssignments locals s
  | .loop header body _ =>
    headerAssignments locals header ++ blockAssignments (locals.extend (Lexical.declaredByHeader header)) body
  | .var _ => []
  | .ret _ _ => []
  | .branch _ _ => []

def stmtsAssignments (locals : Locals) : List Stmt → List Assignment
  | [] => []
  | s :: ss => stmtAssignments locals s ++ stmtsAssignments (locals.extend (Lexical.declaredByStmt s)) ss

def blockAssignments (locals : Locals) : Block → List Assignment
  | ⟨ss, _⟩ => stmtsAssignments locals ss

def ifAssignments (locals : Locals) : IfStmt → List Assignment
  | ⟨init, _, body, otherwise, _⟩ =>
    clauseAssignments locals init ++
      (blockAssignments (locals.extend (Lexical.declaredByClause init)) body ++
        elseAssignments (locals.extend (Lexical.declaredByClause init)) otherwise)

def elseAssignments (locals : Locals) : Else → List Assignment
  | .none => []
  | .block b => blockAssignments locals b
  | .chain s => ifAssignments locals s

end

section

variable (env : Env) (locals : Locals)

/-- The lowering sees the root of a target that is shallow, and takes a call for the function it calls. -/
theorem writtenBase?_eq (target : Expr) :
    Lower.writtenBase? target = if target.isShallow then target.root? else target.callee? := by
  obtain ⟨head, tail, span⟩ := target
  cases tail with
  | cons link links => rfl
  | nil =>
    -- The lowering looks through one index or slice, and no further.
    cases head with
    | select b path span => cases b <;> rfl
    | call b path args span => cases b <;> rfl
    | index target index span =>
      cases target with
      | select b path span => cases b <;> rfl
      | call b path args span => cases b <;> rfl
      | _ => rfl
    | slice target low high span =>
      cases target with
      | select b path span => cases b <;> rfl
      | call b path args span => cases b <;> rfl
      | _ => rfl
    | _ => rfl

theorem callee?_of_shallow {target : Expr} (shallow : target.isShallow = true) : target.callee? = none := by
  obtain ⟨head, tail, span⟩ := target
  cases tail with
  | cons link links => rfl
  | nil =>
    cases head with
    | index target index span =>
      cases target with
      | call b path args span => cases shallow
      | _ => rfl
    | slice target low high span =>
      cases target with
      | call b path args span => cases shallow
      | _ => rfl
    | call b path args span => cases shallow
    | _ => rfl

def Assignment.isNoted (a : Assignment) : Bool := a.target.isShallow && a.reachesState env || a.callsState env

theorem isField_eq (target : Expr) :
    Lexical.isField env locals target = Assignment.isNoted env ⟨locals, target⟩ := by
  rw [Lexical.isField, writtenBase?_eq, Assignment.isNoted, Assignment.reachesState, Assignment.callsState]
  cases shallow : target.isShallow with
  | true =>
    rw [if_pos rfl, callee?_of_shallow shallow, Option.any_none, Bool.true_and, Bool.or_false]
  | false =>
    rw [if_neg Bool.false_ne_true, Bool.false_and, Bool.false_or]

theorem simpleAssigns_eq (s : SimpleStmt) :
    Lexical.simpleAssigns env locals s = (simpleAssignments locals s).any (Assignment.isNoted env) := by
  cases s with
  | exprs targets span => rfl
  | send channel value span => rfl
  | assign targets op values span =>
    rw [Lexical.simpleAssigns, simpleAssignments]
    cases op.value.isDeclaring with
    | true => rfl
    | false =>
      have same : Lexical.isField env locals = Assignment.isNoted env ∘ Assignment.mk locals :=
        funext (isField_eq env locals)
      rw [if_neg Bool.false_ne_true, List.any_map, ← same]
      rfl

theorem clauseAssigns_eq (s : Option SimpleStmt) :
    Lexical.clauseAssigns env locals s = (clauseAssignments locals s).any (Assignment.isNoted env) := by
  cases s with
  | none => rfl
  | some s => exact simpleAssigns_eq env locals s

theorem headerAssigns_eq (header : LoopHeader) :
    Lexical.headerAssigns env locals header = (headerAssignments locals header).any (Assignment.isNoted env) := by
  cases header with
  | infinite => rfl
  | cond e => rfl
  | range key value iterable => rfl
  | classic init cond post =>
    rw [Lexical.headerAssigns, headerAssignments, List.any_append, clauseAssigns_eq, clauseAssigns_eq]

end

mutual

theorem stmtAssigns_eq (env : Env) (locals : Locals) : (s : Stmt) →
    Lexical.stmtAssigns env locals s = (stmtAssignments locals s).any (Assignment.isNoted env)
  | .simple s => by
    rw [Lexical.stmtAssigns, stmtAssignments]
    exact simpleAssigns_eq env locals s
  | .cond s => by
    rw [Lexical.stmtAssigns, stmtAssignments]
    exact ifAssigns_eq env locals s
  | .loop header body _ => by
    rw [Lexical.stmtAssigns, stmtAssignments, List.any_append, headerAssigns_eq, blockAssigns_eq]
  | .var _ => by
    rw [Lexical.stmtAssigns, stmtAssignments]
    rfl
  | .ret _ _ => by
    rw [Lexical.stmtAssigns, stmtAssignments]
    rfl
  | .branch _ _ => by
    rw [Lexical.stmtAssigns, stmtAssignments]
    rfl

theorem stmtsAssign_eq (env : Env) (locals : Locals) : (ss : List Stmt) →
    Lexical.stmtsAssign env locals ss = (stmtsAssignments locals ss).any (Assignment.isNoted env)
  | [] => by
    rw [Lexical.stmtsAssign, stmtsAssignments]
    rfl
  | s :: ss => by
    rw [Lexical.stmtsAssign, stmtsAssignments, List.any_append, stmtAssigns_eq, stmtsAssign_eq]

/-- A block assigns state, as the lowering sees it, when one of its assignments is noted. -/
theorem blockAssigns_eq (env : Env) (locals : Locals) : (b : Block) →
    Lexical.blockAssigns env locals b = (blockAssignments locals b).any (Assignment.isNoted env)
  | ⟨ss, _⟩ => by
    rw [Lexical.blockAssigns, blockAssignments]
    exact stmtsAssign_eq env locals ss

theorem ifAssigns_eq (env : Env) (locals : Locals) : (s : IfStmt) →
    Lexical.ifAssigns env locals s = (ifAssignments locals s).any (Assignment.isNoted env)
  | ⟨init, _, body, otherwise, _⟩ => by
    rw [Lexical.ifAssigns, ifAssignments, List.any_append, List.any_append, clauseAssigns_eq, blockAssigns_eq,
      elseAssigns_eq]

theorem elseAssigns_eq (env : Env) (locals : Locals) : (s : Else) →
    Lexical.elseAssigns env locals s = (elseAssignments locals s).any (Assignment.isNoted env)
  | .none => by
    rw [Lexical.elseAssigns, elseAssignments]
    rfl
  | .block b => by
    rw [Lexical.elseAssigns, elseAssignments]
    exact blockAssigns_eq env locals b
  | .chain s => by
    rw [Lexical.elseAssigns, elseAssignments]
    exact ifAssigns_eq env locals s

end

def literalText (level : Nat) (head : String) (lines : Doc) : String :=
  if lines.isEmpty then head ++ " \x7b\x7d" else head ++ " \x7b\n" ++ lines.render "\t" ++ Lower.pad level ++ "\x7d"

def literalHead (env : Env) (ps : List Param) (results : List (Located TypeExpr)) : String :=
  "func(" ++ ", ".intercalate (Lexical.params env ps) ++ ")" ++
    TypeExpr.resultSuffix (results.map fun t => Lexical.type env t.value)

def deferLine (level : Nat) : Line := .text level "defer c.Update()"

theorem funcText_eq (level : Nat) (head : String) (body : Doc) (writes : Bool) :
    Lower.funcText level head body writes =
      literalText level head (if writes then deferLine (level + 1) :: body else body) := by
  cases writes with
  | false =>
    rw [Lower.funcText, literalText, Bool.not_false, Bool.and_true, if_neg Bool.false_ne_true,
      if_neg Bool.false_ne_true, String.append_empty]
  | true =>
    rw [Lower.funcText, literalText, Bool.not_true, Bool.and_false, if_neg Bool.false_ne_true, if_pos rfl, if_pos rfl,
      if_neg (by simp), Doc.render_cons, deferLine, Line.render, Lower.pad]
    simp only [String.append_assoc]
    rfl

theorem literalText_cons_ne (level : Nat) (head : String) (n : Nat) (lines : Doc) :
    literalText level head (deferLine n :: lines) ≠ literalText level head lines := by
  intro same
  have lengths := congrArg String.length same
  have closed : " \x7b\x7d".length = 3 := rfl
  have asked : "defer c.Update()".length = 16 := rfl
  rw [literalText, if_neg (by simp), Doc.render_cons, deferLine, Line.render, literalText] at lengths
  split at lengths <;> simp only [String.length_append] at lengths <;> omega

/-- A function literal stands for its lines, in front of which it defers the update when an assignment is noted. -/
theorem literal_text (env : Env) (locals : Locals) (level : Nat) (ps : List Param) (results : List (Located TypeExpr))
    (body : Block) (span : Span) :
    let inner := locals.extend (ps.map (·.name.value))
    let lines := Lexical.block env inner (level + 1) body
    Lexical.primary env locals level (.func ps results body span) =
      literalText level (literalHead env ps results)
        (if (blockAssignments inner body).any (Assignment.isNoted env) then deferLine (level + 1) :: lines
          else lines) := by
  intro inner lines
  rw [Lexical.primary, funcText_eq, blockAssigns_eq]
  rfl

/-- Some assignment is noted when one with a shallow target reaches the state, or one calls it. -/
theorem any_isNoted {env : Env} {as : List Assignment} :
    as.any (Assignment.isNoted env) = true ↔
      (∃ a ∈ as, a.target.isShallow ∧ a.reachesState env) ∨ ∃ a ∈ as, a.callsState env := by
  simp only [List.any_eq_true, Assignment.isNoted, Bool.or_eq_true, Bool.and_eq_true, and_or_left, exists_or]

/-- A function literal is its head around the lines of its body, with the deferred update in front of them or not. The
update stands there exactly when the body assigns a shallow target whose root is state, or what a function of the state
returns. That is the same as to assign some target whose root is state if and only if every body that does so also has
an assignment of one of those two kinds, and every body with one of the second kind does so. -/
theorem update_deferred_iff (env : Env) (level : Nat) (ps : List Param) (results : List (Located TypeExpr))
    (body : Block) (span : Span) (scope : List String) (outer : List (List String)) (writes : List Bool) (uses : Uses) :
    let inner := Locals.extend (scope ++ outer.flatten) (ps.map (·.name.value))
    let lines := Lexical.block env inner (level + 1) body
    let assigned := blockAssignments inner body
    let plain := literalText level (literalHead env ps results) lines
    let deferring := literalText level (literalHead env ps results) (deferLine (level + 1) :: lines)
    ∃ text uses', (Lower.primary env level (.func ps results body span)).run ⟨scope :: outer, writes, uses⟩ =
        (text, ⟨scope :: outer, writes, uses'⟩) ∧
      (text = plain ∨ text = deferring) ∧ plain ≠ deferring ∧
      (text = deferring ↔
        (∃ a ∈ assigned, a.target.isShallow ∧ a.reachesState env) ∨ ∃ a ∈ assigned, a.callsState env) ∧
      ((text = deferring ↔ ∃ a ∈ assigned, a.reachesState env) ↔
        ((∃ a ∈ assigned, a.reachesState env) →
          (∃ a ∈ assigned, a.target.isShallow ∧ a.reachesState env) ∨ ∃ a ∈ assigned, a.callsState env) ∧
        ((∃ a ∈ assigned, a.callsState env) → ∃ a ∈ assigned, a.reachesState env)) := by
  intro inner lines assigned plain deferring
  obtain ⟨uses', ran⟩ :=
    primary_runs env (scope ++ outer.flatten) level (.func ps results body span) scope outer writes uses rfl
  rw [extend_nil, noted_false, literal_text] at ran
  have differ : plain ≠ deferring := (literalText_cons_ne level _ (level + 1) lines).symm
  have noted : literalText level (literalHead env ps results)
      (if assigned.any (Assignment.isNoted env) then deferLine (level + 1) :: lines else lines) = deferring ↔
        (∃ a ∈ assigned, a.target.isShallow ∧ a.reachesState env) ∨ ∃ a ∈ assigned, a.callsState env := by
    rw [← any_isNoted]
    cases assigned.any (Assignment.isNoted env) with
    | true => exact iff_of_true rfl rfl
    | false => exact iff_of_false differ Bool.false_ne_true
  refine ⟨_, uses', ran, ?_, differ, noted, ?_⟩
  · cases assigned.any (Assignment.isNoted env) with
    | true => exact .inr rfl
    | false => exact .inl rfl
  · have rooted : (∃ a ∈ assigned, a.target.isShallow ∧ a.reachesState env) → ∃ a ∈ assigned, a.reachesState env :=
      fun ⟨a, member, _, reaches⟩ => ⟨a, member, reaches⟩
    rw [noted]
    constructor
    · intro same
      exact ⟨same.mpr, fun calls => same.mp (.inr calls)⟩
    · intro ⟨seen, called⟩
      exact ⟨fun either => either.elim rooted called, seen⟩

/-- The body of a handler that sets a field of the first item: `items[0].done = true`. -/
def tickBody : Block :=
  ⟨[.simple (.assign [.single (.select (.operand (.index (.ident ⟨"items", .none⟩) (.single (.int ⟨"0", .none⟩)) .none))
    [⟨"done", .none⟩] .none)] ⟨.assign, .none⟩ [.single (.ident ⟨"true", .none⟩)] .none)], .none⟩

def tickList : Component where
  name := ⟨"List", .none⟩
  params := [⟨⟨"items", .none⟩, ⟨.slice (.named "Item"), .none⟩, false⟩]
  results := [⟨.named "Node", .none⟩]
  body := ⟨[], [], [.element ⟨⟨"Button", .none⟩, [⟨some ⟨"onClick", .none⟩, .single (.func [] [] tickBody .none)⟩],
    [.text ⟨"x", .none⟩], .none⟩]⟩
  autoProps := false
  span := .none

/-- The handler assigns inside the list's items, which are state, and defers no update. -/
theorem item_field_not_deferred :
    let env := componentEnv "rt" ⟨⟨"main", .none⟩, [], [], [tickList], [], [], []⟩ tickList
    let text := ((Lower.primary env 1 (.func [] [] tickBody .none)).run .start).1
    text = "func() \x7b\n\t\tc.items[0].done = true\n\t\x7d" ∧
    ¬ (text = literalText 1 (literalHead env [] []) (deferLine 2 :: Lexical.block env [] 2 tickBody) ↔
      ∃ a ∈ blockAssignments [] tickBody, a.reachesState env) := by
  intro env text
  have shown : text = "func() \x7b\n\t\tc.items[0].done = true\n\t\x7d" := by decide +kernel
  refine ⟨shown, fun same => ?_⟩
  have reached : (blockAssignments [] tickBody).any (Assignment.reachesState env) = true := by decide +kernel
  have deferred := same.mpr (List.any_eq_true.mp reached)
  revert deferred
  rw [shown]
  decide +kernel

end Go
end ViewLang
