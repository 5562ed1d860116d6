import ViewLang.Proofs.Syntax.Throughout
import ViewLang.Proofs.Syntax.Words

namespace ViewLang

def IsName (s : String) : Prop := Lexer.Legal (.ident s)

theorem IsName.word {s : String} (name : IsName s) : IsWord s := isWord_of_ident name.2.1

theorem IsName.not_keyword {s : String} (name : IsName s) (k : Keyword) : s ≠ k.text := fun same =>
  name.2.2 k same.symm

theorem IsName.head {s : String} (name : IsName s) : ∃ c cs, s.toList = c :: cs ∧ Lexer.isIdentStart c = true := by
  obtain ⟨⟨c, first, start⟩, -⟩ := name
  obtain ⟨cs, same⟩ := List.head?_eq_some_iff.mp first
  exact ⟨c, cs, same, start⟩

def AllNames (names : List Name) : Prop := ∀ n ∈ names, IsName n.value

theorem AllNames.words {names : List Name} (each : AllNames names) : AllWords names :=
  fun n member => (each n member).word

mutual

/-- The types of the composite literals that are exposed in the operand. -/
def Primary.exposed : Primary → List (Located TypeExpr)
  | .composite ty _ _ => [ty]
  | .index target _ _ => target.exposed
  | .slice target _ _ _ => target.exposed
  | .select b _ _ => b.exposed
  | .call b _ _ _ => b.exposed
  | .unary _ operand _ => operand.exposed
  | .int _ => []
  | .float _ => []
  | .string _ => []
  | .template _ => []
  | .make _ _ _ => []
  | .func _ _ _ _ => []
  | .receive _ _ => []
  | .paren _ => []

def Base.exposed : Base → List (Located TypeExpr)
  | .name _ => []
  | .operand p => p.exposed

end

def Expr.exposed (e : Expr) : List (Located TypeExpr) := e.head.exposed ++ e.tail.flatMap (·.operand.exposed)

def SimpleStmt.exposed : SimpleStmt → List (Located TypeExpr)
  | .exprs targets _ => targets.flatMap Expr.exposed
  | .assign targets _ values _ => targets.flatMap Expr.exposed ++ values.flatMap Expr.exposed
  | .send channel value _ => channel.exposed ++ value.exposed

def LoopHeader.exposed : LoopHeader → List (Located TypeExpr)
  | .infinite => []
  | .cond e => e.exposed
  | .classic init test post =>
    init.toList.flatMap SimpleStmt.exposed ++ test.toList.flatMap Expr.exposed ++
      post.toList.flatMap SimpleStmt.exposed
  | .range _ _ iterable => iterable.exposed

/-- The types of the composite literals that are exposed in the header of a conditional or loop. -/
def Construct.exposed : Construct → List (Located TypeExpr)
  | .cond s => s.init.toList.flatMap SimpleStmt.exposed ++ s.cond.exposed
  | .loop header _ _ => header.exposed
  | .nodeIf c => c.cond.exposed
  | .nodeFor l => l.iterable.exposed
  | _ => []

/-- Literals whose type starts with brackets; no other type may stand in front of an exposed brace. -/
def Bracketed (types : List (Located TypeExpr)) : Prop := ∀ ty ∈ types, ∃ elem, ty.value = .slice elem

theorem bracketed_nil : Bracketed [] := nofun

theorem bracketed_append {types more : List (Located TypeExpr)} :
    Bracketed (types ++ more) ↔ Bracketed types ∧ Bracketed more := List.forall_mem_append

theorem bracketed_flatMap {α : Type} {as : List α} {f : α → List (Located TypeExpr)} :
    Bracketed (as.flatMap f) ↔ ∀ a ∈ as, Bracketed (f a) := List.forall_mem_flatMap

theorem bracketed_toList {α : Type} {o : Option α} {f : α → List (Located TypeExpr)} :
    Bracketed (o.toList.flatMap f) ↔ ∀ a ∈ o, Bracketed (f a) := by
  simp [bracketed_flatMap]

def Base.Formed : Base → Prop
  | .name n => IsName n.value
  | .operand _ => True

theorem Base.Formed.spelled {b : Base} (formed : b.Formed) : b.Spelled := by
  cases b with
  | name n => exact IsName.word formed
  | operand p => trivial

namespace Construct

def Formed : Construct → Prop
  | unit u => IsName u.package.value
  | typeDef d => IsName d.name.value
  | field f => IsName f.name.value
  | component c => IsName c.name.value
  | param p => IsName p.name.value
  | type ty => ty.value.Spelled
  | varDecl d => AllNames d.names
  | cond s => Bracketed (cond s).exposed
  | loop (.range key value iterable) _ _ => AllNames (key.toList ++ value.toList) ∧ Bracketed iterable.exposed
  | loop header _ _ => Bracketed header.exposed
  | element e => IsName e.tag.value
  | elementArg a => AllNames a.key.toList
  | nodeIf c => Bracketed c.cond.exposed
  | nodeFor l => AllNames (l.key.toList ++ l.value.toList) ∧ Bracketed l.iterable.exposed
  | int t => Lexer.Legal (.int t.value)
  | float t => Lexer.Legal (.float t.value)
  | composite _ entries _ => ∀ e ∈ entries, AllNames e.key.toList
  | select base path _ => base.Formed ∧ AllNames path
  | call base path _ _ => base.Formed ∧ AllNames path
  | receive channel _ => IsName channel.value
  | decorator d => IsName d.name.value
  | gpuStruct s => IsName s.name.value
  | gpuField f => IsName f.name.value
  | gpuBinding b => IsName b.name.value
  | gpuFunction f => IsName f.name.value
  | gpuParam p => IsName p.name.value
  | _ => True

theorem Formed.spelled {c : Construct} (formed : c.Formed) : c.Spelled := by
  cases c with
  | unit | typeDef | field | component | param | element | receive => exact IsName.word formed
  | type => exact formed
  | varDecl => exact AllNames.words formed
  | loop header =>
    cases header with
    | range => exact AllNames.words formed.1
    | _ => trivial
  | nodeFor => exact AllNames.words formed.1
  | int => exact isWord_of_int formed
  | float => exact isWord_of_float formed
  | composite => exact fun e member => AllNames.words (formed e member)
  | select | call => exact ⟨formed.1.spelled, AllNames.words formed.2⟩
  | _ => trivial

theorem Formed.bracketed {c : Construct} (formed : c.Formed) : Bracketed c.exposed := by
  cases c with
  | cond | nodeIf => exact formed
  | loop header =>
    cases header with
    | range => exact formed.2
    | _ => exact formed
  | nodeFor => exact formed.2
  | _ => exact bracketed_nil

abbrev AllFormed (c : Construct) : Prop := c.Throughout Formed

theorem AllFormed.spelled {c : Construct} (formed : c.AllFormed) : c.AllSpelled := formed.mono fun _ => Formed.spelled

end Construct

theorem ident_isName {e : Expr} {name : Name} (formed : (Construct.expr e).AllFormed)
    (named : e.ident? = some name) : IsName name.value := by
  obtain ⟨inner, outer, rfl⟩ := eq_of_ident named
  have head := (Construct.throughout_expr.mp formed).2.1
  exact (Construct.throughout_primary.mp head).2.here.1

end ViewLang
