import ViewLang.Proofs.Gpu.Blocks
import ViewLang.Proofs.Grammar.FormedTrees
import ViewLang.Proofs.Success

namespace ViewLang

mutual

/-- The conditionals of a block, at any depth and any place in a chain. -/
def Block.conditionals : Block → List IfStmt
  | ⟨ss, _⟩ => Stmt.conditionalsEach ss

def Stmt.conditionalsEach : List Stmt → List IfStmt
  | [] => []
  | s :: ss => s.conditionals ++ Stmt.conditionalsEach ss

def Stmt.conditionals : Stmt → List IfStmt
  | .cond s => s.conditionals
  | .loop _ body _ => body.conditionals
  | _ => []

def IfStmt.conditionals : IfStmt → List IfStmt
  | ⟨init, cond, body, otherwise, span⟩ =>
    ⟨init, cond, body, otherwise, span⟩ :: (body.conditionals ++ otherwise.conditionals)

def Else.conditionals : Else → List IfStmt
  | .none => []
  | .block b => b.conditionals
  | .chain s => s.conditionals

end

namespace Gpu.Wgsl

variable {env : Env} {a b n : Nat} {d e pre post : Doc} {ss ts : List IfStmt} {s : IfStmt} {init : SimpleStmt}

def declared? : SimpleStmt → Option Name
  | .assign [target] op _ _ => if op.value = .define then target.ident? else none
  | _ => none

theorem declared?_isName {name : Name} (formed : (Construct.stmt (.simple init)).AllFormed)
    (declared : declared? init = some name) : IsName name.value := by
  unfold declared? at declared
  split at declared
  · rename_i target op values span
    split at declared
    · have targets := (Construct.throughout_assign.mp (Construct.throughout_stmt.mp formed).2).2.1
      exact ident_isName (targets target List.mem_cons_self) declared
    · cases declared
  · cases declared

def clauseDoc (first : String) : Doc := Doc.line "\x7b" ++ Doc.indent (Doc.line (first ++ ";"))

def chainDoc (chain : Doc) : Doc := Doc.indent chain ++ Doc.line "\x7d"

/-- Among the lines, the conditional is emitted without its clause in a block that starts with the clause. The block
stands as deep as blocks are open in front of it. -/
structure Stands (env : Env) (a : Nat) (d : Doc) (s : IfStmt) (init : SimpleStmt) (n : Nat) (pre post : Doc)
    (first : String) (chain : Doc) : Prop where
  parts : d = pre ++ (Doc.indent^[n] (clauseDoc first) ++ Doc.indent^[n] (chainDoc chain)) ++ post
  before : Laid a pre n
  clause : simple env init = .ok first
  shown : Shown first
  named : ∀ name ∈ declared? init, IsName name.value
  emitted : ifStmt env { s with init := none } = .ok chain
  laid : Laid 0 chain 0

structure Houses (env : Env) (a : Nat) (d : Doc) (ss : List IfStmt) : Prop where
  laid : Laid a d a
  stands : ∀ s ∈ ss, ∀ init ∈ s.init, ∃ n pre post first chain, Stands env a d s init n pre post first chain

namespace Houses

theorem plain (laid : Laid a d a) : Houses env a d [] := ⟨laid, List.forall_mem_nil _⟩

theorem within (houses : Houses env b d ss) (before : Laid a pre b) (behind : Laid b post a) :
    Houses env a (pre ++ d ++ post) ss where
  laid := (before.append houses.laid).append behind
  stands s member init clause := by
    obtain ⟨n, pre', post', first, chain, stands⟩ := houses.stands s member init clause
    refine ⟨n, pre ++ pre', post' ++ post, first, chain, { stands with parts := ?_, before := ?_ }⟩
    · rw [stands.parts]
      simp only [List.append_assoc]
    · exact before.append stands.before

theorem append (first : Houses env a d ss) (second : Houses env a e ts) : Houses env a (d ++ e) (ss ++ ts) where
  laid := first.laid.append second.laid
  stands := by
    have left := (first.within .nil second.laid).stands
    have right := (second.within first.laid .nil).stands
    rw [List.forall_mem_append]
    constructor
    · simpa only [List.nil_append] using left
    · simpa only [List.append_nil] using right

theorem indent (houses : Houses env a d ss) : Houses env (a + 1) d.indent ss where
  laid := houses.laid.indent
  stands s member init clause := by
    obtain ⟨n, pre, post, first, chain, stands⟩ := houses.stands s member init clause
    refine ⟨n + 1, pre.indent, post.indent, first, chain, { stands with parts := ?_, before := stands.before.indent }⟩
    rw [stands.parts, Function.iterate_succ_apply', Function.iterate_succ_apply']
    simp only [Doc.indent, List.map_append]

/-- A conditional whose clause comes first, or that has none, in front of those inside it. -/
theorem cons (houses : Houses env a d ss)
    (first : ∀ init ∈ s.init, ∃ n pre post first chain, Stands env a d s init n pre post first chain) :
    Houses env a d (s :: ss) where
  laid := houses.laid
  stands := List.forall_mem_cons.mpr ⟨first, houses.stands⟩

theorem intercalate {α : Type} {f : α → List IfStmt} {xs : List α} {ds : List Doc}
    (each : List.Forall₂ (fun x d => Houses env 0 d (f x)) xs ds) :
    Houses env 0 (Doc.blank.intercalate ds) (xs.flatMap f) := by
  induction each with
  | nil => exact .plain .nil
  | cons first others ih =>
    cases others with
    | nil => simpa using first
    | cons second others =>
      rw [List.intercalate_cons_cons, List.flatMap_cons]
      have apart : Houses env 0 Doc.blank [] := .plain (.single .blank)
      simpa only [List.append_nil] using (first.append apart).append ih

end Houses

def chainOf (cond : String) (body otherwise : Doc) : Doc :=
  Doc.line ("if " ++ cond ++ " \x7b") ++ Doc.indent body ++ otherwise ++ Doc.line "\x7d"

theorem chainOf_houses {cond : String} (flat : Flat cond) {body otherwise : Doc} (houses : Houses env 0 body ss)
    (others : Houses env 1 otherwise ts) : Houses env 0 (chainOf cond body otherwise) (ss ++ ts) := by
  have opening := Laid.single (Sits.opening ((by decide : Shown "if ").append flat))
  have whole := (houses.indent.append others).within opening (.single .closing)
  simpa only [chainOf, Doc.line, List.append_assoc] using whole

theorem clause_houses {first : String} {chain : Doc} (shown : Shown first)
    (named : ∀ name ∈ declared? init, IsName name.value) (houses : Houses env 0 chain ss)
    (clause : simple env init = .ok first) (given : s.init = some init)
    (emitted : ifStmt env { s with init := none } = .ok chain) :
    Houses env 0 (Doc.block "\x7b" (Doc.line (first ++ ";") ++ chain) "\x7d") (s :: ss) := by
  have ended : Shown (first ++ ";") := shown.append (by decide)
  have inside := (houses.within (.single (.flat ended)) .nil).indent
  have whole := inside.within (.single .clause) (.single .closing)
  simp only [List.append_nil] at whole
  refine Houses.cons whole fun init' same => ?_
  rw [given] at same
  cases same
  refine ⟨0, [], [], first, chain, ?_, .nil, clause, shown, named, emitted, houses.laid⟩
  simp [Doc.block, Doc.line, Doc.indent, clauseDoc, chainDoc]

mutual

theorem block_houses (fields : env.Spelled) : (b : Block) → (Construct.block b).AllFormed → {d : Doc} →
    block env b = .ok d → Houses env 0 d b.conditionals
  | ⟨ss, _⟩, formed, d, emitted => by
    rw [block] at emitted
    rw [Block.conditionals]
    exact stmts_houses fields ss (Construct.throughout_block.mp formed).2 emitted

theorem stmts_houses (fields : env.Spelled) : (ss : List Stmt) → (∀ s ∈ ss, (Construct.stmt s).AllFormed) → {d : Doc} →
    stmts env ss = .ok d → Houses env 0 d (Stmt.conditionalsEach ss)
  | [], _, d, emitted => by
    rw [stmts] at emitted
    cases emitted
    exact .plain .nil
  | s :: ss, formed, d, emitted => by
    rw [List.forall_mem_cons] at formed
    rw [stmts] at emitted
    obtain ⟨first, written, rest, behind, result⟩ := by simpa only [bind_ok_iff] using emitted
    cases result
    rw [Stmt.conditionalsEach]
    exact (stmt_houses fields s formed.1 written).append (stmts_houses fields ss formed.2 behind)

theorem stmt_houses (fields : env.Spelled) : (s : Stmt) → (Construct.stmt s).AllFormed → {d : Doc} →
    stmt env s = .ok d → Houses env 0 d s.conditionals
  | .var d, formed, doc, emitted => by
    rw [stmt] at emitted
    obtain ⟨texts, written, result⟩ := bind_ok_iff.mp emitted
    cases result
    have shown := varDecl_shown fields (Construct.throughout_stmt.mp formed).2 written
    exact .plain (.lines shown fun t each => each.append (by decide))
  | .simple s, formed, doc, emitted => by
    rw [stmt] at emitted
    obtain ⟨text, written, result⟩ := bind_ok_iff.mp emitted
    cases result
    exact .plain (.single (.flat ((simple_shown fields formed written).append (by decide))))
  | .ret [] _, _, doc, emitted => by
    rw [stmt] at emitted
    cases emitted
    exact .plain (.single (.flat (by decide)))
  | .ret [value] _, formed, doc, emitted => by
    have given := (Construct.throughout_ret.mp (Construct.throughout_stmt.mp formed).2).2
    rw [stmt] at emitted
    obtain ⟨text, written, result⟩ := bind_ok_iff.mp emitted
    cases result
    have flat := (expr_shown fields value (given value List.mem_cons_self) written).flat
    exact .plain (.single (.flat (((by decide : Shown "return ").append flat).append (by decide))))
  | .ret (_ :: _ :: _) _, _, doc, emitted => by
    rw [stmt] at emitted
    · cases emitted
    · exact nofun
    · exact nofun
  | .cond s, formed, doc, emitted => by
    rw [stmt] at emitted
    exact ifStmt_houses fields s (Construct.throughout_stmt.mp formed).2 emitted
  | .loop header body span, formed, doc, emitted => by
    obtain ⟨-, heads, inside⟩ := Construct.throughout_loop.mp (Construct.throughout_stmt.mp formed).2
    rw [stmt] at emitted
    obtain ⟨head, opened, inner, written, result⟩ := by simpa only [bind_ok_iff] using emitted
    cases result
    obtain ⟨front, rfl, shown⟩ := loopHead_shown fields heads opened
    exact (block_houses fields body inside written).indent.within (.single (.opening shown)) (.single .closing)
  | .branch kind _, _, doc, emitted => by
    rw [stmt] at emitted
    cases emitted
    exact .plain (.single (.flat (by cases kind <;> decide)))

theorem ifStmt_houses (fields : env.Spelled) : (s : IfStmt) → (Construct.cond s).AllFormed → {d : Doc} →
    ifStmt env s = .ok d → Houses env 0 d s.conditionals
  | ⟨init, cond, body, otherwise, span⟩, formed, d, emitted => by
    obtain ⟨-, inits, conds, bodies, branches⟩ := Construct.throughout_cond.mp formed
    rw [ifStmt] at emitted
    obtain ⟨clause, started, test, tested, inner, written, others, continued, result⟩ := by
      simpa only [bind_ok_iff] using emitted
    have chain := chainOf_houses (expr_shown fields cond conds tested).flat (block_houses fields body bodies written)
      (else_houses fields otherwise branches continued)
    rw [IfStmt.conditionals]
    cases init with
    | none =>
      cases started
      cases result
      exact chain.cons nofun
    | some simple =>
      obtain ⟨first, stated, same⟩ := bind_ok_iff.mp started
      cases same
      cases result
      have formed := inits simple rfl
      refine clause_houses (simple_shown fields formed stated) (fun _ => declared?_isName formed) chain stated rfl ?_
      rw [ifStmt, tested, written, continued]
      rfl

theorem else_houses (fields : env.Spelled) : (o : Else) → (∀ d ∈ o.constructs, d.AllFormed) → {d : Doc} →
    elseBranch env o = .ok d → Houses env 1 d o.conditionals
  | .none, _, d, emitted => by
    rw [elseBranch] at emitted
    cases emitted
    exact .plain .nil
  | .block b, formed, d, emitted => by
    rw [elseBranch] at emitted
    obtain ⟨inner, written, result⟩ := bind_ok_iff.mp emitted
    cases result
    have inside := block_houses fields b (formed (.block b) List.mem_cons_self) written
    simpa only [Doc.line, Else.conditionals, List.append_nil] using inside.indent.within (.single .otherwise) .nil
  | .chain ⟨none, cond, body, otherwise, span⟩, formed, d, emitted => by
    obtain ⟨-, -, conds, bodies, branches⟩ := Construct.throughout_cond.mp (formed (.cond _) List.mem_cons_self)
    rw [elseBranch] at emitted
    obtain ⟨test, tested, inner, written, others, continued, result⟩ := by simpa only [bind_ok_iff] using emitted
    cases result
    have opening := Laid.single (Sits.elseIf (expr_shown fields cond conds tested).flat)
    have inside := (block_houses fields body bodies written).indent.append
      (else_houses fields otherwise branches continued)
    rw [Else.conditionals, IfStmt.conditionals]
    refine Houses.cons ?_ nofun
    simpa only [Doc.line, List.append_nil, List.append_assoc] using inside.within opening .nil
  | .chain ⟨some init, cond, body, otherwise, span⟩, formed, d, emitted => by
    rw [elseBranch] at emitted
    · obtain ⟨inner, written, result⟩ := bind_ok_iff.mp emitted
      cases result
      have inside := ifStmt_houses fields ⟨some init, cond, body, otherwise, span⟩
        (formed (.cond _) List.mem_cons_self) written
      simpa only [Doc.line, Else.conditionals, List.append_nil] using inside.indent.within (.single .otherwise) .nil
    · exact nofun

end

theorem structDecl_laid (fields : env.Spelled) {s : GpuStruct} (formed : (Construct.gpuStruct s).AllFormed)
    (emitted : structDecl env s = .ok d) : Laid 0 d 0 := by
  obtain ⟨named, -, members⟩ := Construct.throughout_gpuStruct.mp formed
  obtain ⟨_, -, texts, written, result⟩ := by simpa only [structDecl, bind_ok_iff] using emitted
  cases result
  have shown : ∀ t ∈ texts, Shown t := by
    intro t member
    obtain ⟨f, inside, single⟩ := forall₂_mem_right (mapM_ok_forall₂.mp written) member
    obtain ⟨fieldNamed, decorators, spelled⟩ := Construct.throughout_gpuField.mp (members f inside)
    exact member_shown fields decorators fieldNamed spelled single
  exact .block ((by decide : Shown "struct ").append (IsName.shown named).flat)
    (.lines shown fun t each => each.append (by decide))

theorem bindingDecl_laid {b : GpuBinding} (formed : (Construct.gpuBinding b).AllFormed)
    (emitted : bindingDecl env b = .ok d) : Laid 0 d 0 := by
  obtain ⟨named, -, spelled⟩ := Construct.throughout_gpuBinding.mp formed
  obtain ⟨info, -, ty, typed, result⟩ := by simpa only [bindingDecl, bind_ok_iff] using emitted
  cases result
  have space : Flat info.space.text := by
    cases info.space with
    | storage readWrite => cases readWrite <;> decide
    | _ => decide
  have declared : Shown ("var<" ++ info.space.text ++ "> " ++ b.name.value ++ ": " ++ ty ++ ";") :=
    ((((((by decide : Shown "var<").append space).append (by decide)).append (IsName.shown named).flat).append
      (by decide)).append (bindingType_flat spelled typed)).append (by decide)
  refine .single (.flat ?_)
  cases info.slot with
  | none => simpa using declared
  | some slot =>
    have begun : Shown ("@group(" ++ toString slot.1 ++ ") @binding(" ++ toString slot.2 ++ ") ") :=
      ((((by decide : Shown "@group(").append (flat_nat _)).append (by decide)).append (flat_nat _)).append (by decide)
    simpa only [String.append_assoc] using begun.append declared.flat

theorem resultText_flat (fields : env.Spelled) {r : Option GpuResult}
    (formed : ∀ r' ∈ r, (∀ d ∈ r'.decorators, (Construct.decorator d).AllFormed) ∧ r'.ty.value.Spelled) {t : String}
    (emitted : resultText env r = .ok t) : Flat t := by
  cases r with
  | none =>
    cases emitted
    exact List.forall_mem_nil _
  | some r =>
    obtain ⟨decorators, spelled⟩ := formed r rfl
    obtain ⟨attrs, written, ty, typed, result⟩ := by simpa only [resultText, bind_ok_iff] using emitted
    cases result
    obtain ⟨ts, rfl, each⟩ := attributes_shown fields decorators written
    have flat : Flat (String.join ts) := by
      refine flat_join fun t member => ?_
      obtain ⟨behind, rfl, flat⟩ := each t member
      exact (by decide : Flat "@").append flat
    exact ((by decide : Flat " -> ").append flat).append (typeName_flat spelled typed)

theorem functionDecl_houses (fields : env.Spelled) {f : GpuFunction} (formed : (Construct.gpuFunction f).AllFormed)
    (emitted : functionDecl env f = .ok d) : Houses env 0 d f.body.conditionals := by
  obtain ⟨named, decorators, params, results, body⟩ := Construct.throughout_gpuFunction.mp formed
  obtain ⟨stage, staged, texts, written, result, resulted, inner, emittedBody, same⟩ := by
    simpa only [functionDecl, bind_ok_iff] using emitted
  cases same
  have stageLine : Laid 0 (if stage.isEmpty then [] else Doc.line (Text.trimEnd stage)) 0 := by
    split
    · exact .nil
    · rename_i inhabited
      obtain ⟨ts, rfl, each⟩ := attributes_shown fields decorators staged
      cases ts with
      | nil => exact absurd rfl inhabited
      | cons t ts =>
        rw [List.forall_mem_cons] at each
        obtain ⟨⟨behind, rfl, flat⟩, others⟩ := each
        have rest : Flat (String.join ts) := by
          refine flat_join fun t member => ?_
          obtain ⟨behind, rfl, flat⟩ := others t member
          exact (by decide : Flat "@").append flat
        rw [String.join_cons, String.append_assoc]
        refine .single (.flat (((by decide : Shown "@").append (flat.append rest)).trimEnd ?_))
        intro c first
        rw [String.toList_append] at first
        cases Option.some.inj first
        decide
  have given : ∀ t ∈ texts, Flat t := by
    intro t member
    obtain ⟨p, inside, single⟩ := forall₂_mem_right (mapM_ok_forall₂.mp written) member
    obtain ⟨paramNamed, decorators, spelled⟩ := Construct.throughout_gpuParam.mp (params p inside)
    exact (member_shown fields decorators paramNamed spelled single).flat
  have head : Shown ("fn " ++ f.name.value ++ "(" ++ ", ".intercalate texts ++ ")" ++ result) :=
    (((((by decide : Shown "fn ").append (IsName.shown named).flat).append (by decide)).append
      (flat_commas given)).append (by decide)).append (resultText_flat fields results resulted)
  have whole := (block_houses fields f.body body emittedBody).indent.within (stageLine.append (.single (.opening head)))
    (.single .closing)
  simpa only [Doc.block, Doc.line, List.append_assoc] using whole

theorem mapM_laid {α : Type} {f : α → Result Doc} {xs : List α} {ds : List Doc} (emitted : xs.mapM f = .ok ds)
    (each : ∀ x ∈ xs, ∀ d, f x = .ok d → Laid 0 d 0) : ∀ d ∈ ds, Laid 0 d 0 := by
  intro d member
  obtain ⟨x, inside, single⟩ := forall₂_mem_right (mapM_ok_forall₂.mp emitted) member
  exact each x inside d single

theorem document_houses (fields : env.Spelled) {u : SourceUnit} (formed : (Construct.unit u).AllFormed)
    (emitted : document env u = .ok d) : Houses env 0 d (u.gpuFunctions.flatMap (·.body.conditionals)) := by
  obtain ⟨-, -, -, -, structs, bindings, functions⟩ := Construct.throughout_unit.mp formed
  obtain ⟨structDocs, declared, bindingDocs, bound, functionDocs, defined, same⟩ := by
    simpa only [document, bind_ok_iff] using emitted
  cases same
  have front : Laid 0 (structDocs.flatMap (· ++ Doc.blank)) 0 := by
    rw [List.flatMap_def]
    refine .flatten (List.forall_mem_map.mpr fun d member => ?_)
    exact (mapM_laid declared (fun s member _ => structDecl_laid fields (structs s member)) d member).append
      (.single .blank)
  have middle : Laid 0 bindingDocs.flatten 0 :=
    .flatten (mapM_laid bound fun b member _ => bindingDecl_laid (bindings b member))
  have apart : Laid 0 (if bindingDocs.isEmpty then [] else Doc.blank) 0 := by
    split
    · exact .nil
    · exact .single .blank
  have each : List.Forall₂ (fun f d => Houses env 0 d f.body.conditionals) u.gpuFunctions functionDocs := by
    refine forall₂_join (R := Eq) (List.forall₂_refl u.gpuFunctions) (mapM_ok_forall₂.mp defined) ?_
    rintro f member _ d rfl single
    exact functionDecl_houses fields (functions f member) single
  simpa only [List.append_nil] using (Houses.intercalate each).within ((front.append middle).append apart) .nil

theorem simple_declared {name : Name} {first : String} (declared : declared? init = some name)
    (emitted : simple env init = .ok first) : ∃ value, first = "var " ++ name.value ++ " = " ++ value := by
  unfold declared? at declared
  split at declared
  · rename_i target op values span
    split at declared
    · rename_i define
      change assign env [target] op.value values span = _ at emitted
      rw [define] at emitted
      match values with
      | [] => cases emitted
      | _ :: _ :: _ => cases emitted
      | [value] =>
        obtain ⟨text, -, result⟩ := bind_ok_iff.mp (show expr env value >>= _ = .ok first from emitted)
        rw [declared] at result
        cases result
        exact ⟨text, rfl⟩
    · cases declared
  · cases declared

theorem line_clause (scopes : Scopes) : scopes.line (Line.text 0 "\x7b").chars = [] :: scopes := by
  cases scopes <;> rfl

theorem line_closing (scope : List String) (outer : Scopes) :
    Scopes.line (scope :: outer) (Line.text 0 "\x7d").chars = outer := rfl

theorem steps_flat {cs : List Char} (header : List String) (scopes : Scopes)
    (flat : ∀ c ∈ cs, c ≠ '\x7b' ∧ c ≠ '\x7d') :
    cs.foldl (Scopes.step header) scopes = scopes := by
  induction cs with
  | nil => rfl
  | cons c cs ih =>
    obtain ⟨⟨opening, closing⟩, others⟩ := List.forall_mem_cons.mp flat
    rw [List.foldl_cons, Scopes.step, if_neg opening, if_neg closing]
    exact ih others

theorem line_var {name value : String} (named : IsName name) (flat : Flat value) (scope : List String)
    (outer : Scopes) :
    Scopes.line (scope :: outer) (Line.text 0 ("var " ++ name ++ " = " ++ value ++ ";")).chars =
      (name :: scope) :: outer := by
  have parts : visible (Line.text 0 ("var " ++ name ++ " = " ++ value ++ ";")).chars =
      "var ".toList ++ (name.toList ++ (" = " ++ value ++ ";").toList) := by
    rw [Line.chars]
    simp only [String.append_assoc, String.toList_append]
    rfl
  have word : (name.toList ++ (" = " ++ value ++ ";").toList).takeWhile Lexer.isIdentChar = name.toList :=
    Lexer.takeWhile_eq_left named.2.1 (by simp; decide)
  have flatLine : Flat ("var " ++ (name ++ (" = " ++ value ++ ";"))) :=
    (by decide : Flat "var ").append (named.shown.flat.append
      (((by decide : Flat " = ").append flat).append (by decide)))
  have whole (c : Char) (member : c ∈ "var ".toList ++ (name.toList ++ (" = " ++ value ++ ";").toList)) :
      c ≠ '\x7b' ∧ c ≠ '\x7d' := by
    rw [← String.toList_append, ← String.toList_append] at member
    exact ⟨(flatLine c member).1, (flatLine c member).2.1⟩
  rw [Scopes.line, parts, steps_flat _ _ whole, declaredBy, if_pos (by simp), List.drop_left, word,
    String.ofList_toList]
  rfl

/-- Behind a block, what is declared in it is out of scope. -/
theorem behind_block {body : Doc} (laid : Laid 0 body 0) (scopes : Scopes) :
    scopes.behind (Doc.block "\x7b" body "\x7d") = scopes := by
  obtain ⟨inner, height, reached⟩ := laid.scopes_behind [[]] rfl
  obtain ⟨scope, rfl⟩ := List.length_eq_one_iff.mp height
  have inside : Scopes.behind ([] :: scopes) body.indent = scope :: scopes :=
    (laid.behind_indent _).trans (reached scopes)
  rw [Doc.block, Scopes.behind_append, Scopes.behind_append]
  change Scopes.line (Scopes.behind (Scopes.line scopes (Line.text 0 "\x7b").chars) body.indent)
    (Line.text 0 "\x7d").chars = scopes
  rw [line_clause, inside, line_closing]

/-- In the text, the conditional stands in a block of its own that starts with the clause, and what the clause declares
is in scope from there to the end of the block. -/
def Enclosed (env : Env) (text : String) (s : IfStmt) (init : SimpleStmt) : Prop :=
  ∃ (n : Nat) (before after first : String) (chain : Doc),
    simple env init = .ok first ∧ ifStmt env { s with init := none } = .ok chain ∧
    BlockStructured (chain.render "    ") ∧ openBlocks 0 before.toList = some n ∧
    let opened := before ++ (Doc.indent^[n] (clauseDoc first)).render "    "
    let closed := opened ++ (Doc.indent^[n] (chainDoc chain)).render "    "
    text = closed ++ after ∧ namesIn closed = namesIn before ∧
      ∀ name ∈ declared? init, namesIn opened = [name.value] :: namesIn before

theorem Stands.enclosed {first : String} {chain : Doc} (stands : Stands env 0 d s init n pre post first chain) :
    Enclosed env (d.render "    ") s init := by
  have ended : Shown (first ++ ";") := stands.shown.append (by decide)
  have clause : Laid 0 (clauseDoc first) 1 := (Laid.single .clause).append (Laid.single (.flat ended)).indent
  have rest : Laid 1 (chainDoc chain) 0 := stands.laid.indent.append (.single .closing)
  have opened : Laid 0 (pre ++ Doc.indent^[n] (clauseDoc first)) (1 + n) :=
    stands.before.append (by simpa only [Nat.zero_add] using clause.iterate n)
  have closed : Laid 0 (pre ++ Doc.indent^[n] (clauseDoc first) ++ Doc.indent^[n] (chainDoc chain)) n :=
    opened.append (by simpa only [Nat.zero_add] using rest.iterate n)
  have own : clauseDoc first ++ chainDoc chain = Doc.block "\x7b" (Doc.line (first ++ ";") ++ chain) "\x7d" := by
    simp [clauseDoc, chainDoc, Doc.block, Doc.indent]
  refine ⟨n, pre.render "    ", post.render "    ", first, chain, stands.clause, stands.emitted,
    stands.laid.blockStructured, stands.before.openBlocks, ?_⟩
  dsimp only
  rw [← Doc.render_append, ← Doc.render_append, ← Doc.render_append]
  refine ⟨?_, ?_, fun name declared => ?_⟩
  · rw [stands.parts]
    simp only [List.append_assoc]
  · rw [closed.namesIn, stands.before.namesIn, Scopes.behind_append, Scopes.behind_append, clause.behind_iterate,
      rest.behind_iterate, ← Scopes.behind_append, own]
    exact behind_block ((Laid.single (.flat ended)).append stands.laid) _
  · obtain ⟨value, rfl⟩ := simple_declared declared stands.clause
    have flat : Flat value := fun c member => stands.shown.flat c (by simp [member])
    rw [opened.namesIn, stands.before.namesIn, Scopes.behind_append, clause.behind_iterate, clauseDoc,
      Scopes.behind_append]
    refine ((Laid.single (.flat ended)).behind_indent _).trans ?_
    change Scopes.line (Scopes.line _ (Line.text 0 "\x7b").chars) (Line.text 0 _).chars = _
    rw [line_clause]
    exact line_var (stands.named name declared) flat [] _

theorem environment_spelled {u : SourceUnit} (formed : (Construct.unit u).AllFormed) (layouts : LayoutTable) :
    (environment u layouts).Spelled := by
  intro s declared f member
  obtain ⟨-, -, -, -, structs, -⟩ := Construct.throughout_unit.mp formed
  exact (Construct.throughout_gpuField.mp ((Construct.throughout_gpuStruct.mp (structs s declared)).2.2 f member)).2.2

/-- The shader of a unit is structured in blocks, and wherever a function has a conditional with a clause, the clause
stands in a block around that conditional and no more. -/
theorem shader_blocks {file source : String} {u : SourceUnit} {layouts : LayoutTable} {text : String}
    (accepted : parse file source = .ok u) (generated : generate u layouts = .ok text) :
    BlockStructured text ∧ ∀ f ∈ u.gpuFunctions, ∀ s ∈ f.body.conditionals, ∀ init ∈ s.init,
      Enclosed (environment u layouts) text s init := by
  have formed := parsed_formed accepted
  obtain ⟨doc, emitted, result⟩ := bind_ok_iff.mp generated
  cases result
  have houses := document_houses (environment_spelled formed layouts) formed emitted
  refine ⟨houses.laid.blockStructured, fun f declared s member init clause => ?_⟩
  obtain ⟨n, pre, post, first, chain, stands⟩ :=
    houses.stands s (List.mem_flatMap.mpr ⟨f, declared, member⟩) init clause
  exact stands.enclosed

/-- A chain that has a clause at its start and one behind an `else`. -/
def chainSource : String :=
  "package p @compute func f() \x7b if a := 1.0; a > 0.5 \x7b a = 0.0 \x7d else if b := 2.0; b > a \x7b \x7d \x7d"

def chainText : String :=
  "@compute\nfn f() \x7b\n    \x7b\n        var a = 1.0;\n        if a > 0.5 \x7b\n            a = 0.0;\n" ++
    "        \x7d else \x7b\n            \x7b\n                var b = 2.0;\n                if b > a \x7b\n" ++
    "                \x7d\n            \x7d\n        \x7d\n    \x7d\n\x7d\n"

theorem shader_blocks_chain : ∃ u, parse "chain" chainSource = .ok u ∧ generate u [] = .ok chainText ∧
    BlockStructured chainText ∧ ∃ f ∈ u.gpuFunctions, ∃ outer inner, f.body.conditionals = [outer, inner] ∧
      (∃ init ∈ outer.init, Enclosed (environment u []) chainText outer init) ∧
      ∃ init ∈ inner.init, Enclosed (environment u []) chainText inner init := by
  have known : (parse "chain" chainSource).toOption.bind (fun u => (generate u []).toOption.map fun text =>
      (text, u.gpuFunctions.map fun f => f.body.conditionals.map fun s => s.init.isSome)) =
      some (chainText, [[true, true]]) := by decide +kernel
  obtain ⟨u, read, known⟩ := Option.bind_eq_some_iff.mp known
  obtain ⟨text, made, known⟩ := Option.map_eq_some_iff.mp known
  obtain ⟨rfl, lists⟩ := Prod.mk.inj known
  have accepted := toOption_some_iff.mp read
  have generated := toOption_some_iff.mp made
  obtain ⟨structured, each⟩ := shader_blocks accepted generated
  obtain ⟨f, functions, body⟩ := List.map_eq_singleton_iff.mp lists
  obtain ⟨outer, others, conditionals, first, rest⟩ := List.map_eq_cons_iff.mp body
  obtain ⟨inner, rfl, second⟩ := List.map_eq_singleton_iff.mp rest
  have declared : f ∈ u.gpuFunctions := by
    rw [functions]
    exact List.mem_singleton_self f
  obtain ⟨init, given⟩ := Option.isSome_iff_exists.mp first
  obtain ⟨init', given'⟩ := Option.isSome_iff_exists.mp second
  exact ⟨u, accepted, generated, structured, f, declared, outer, inner, conditionals,
    ⟨init, given, each f declared outer (by simp [conditionals]) init given⟩,
    init', given', each f declared inner (by simp [conditionals]) init' given'⟩

end Gpu.Wgsl
end ViewLang
