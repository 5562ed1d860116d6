import ViewLang.Grammar.Stmt

namespace ViewLang

def Located.bare {α : Type} (x : Located α) : Located α := ⟨x.value, Span.none⟩

@[simp] theorem Located.bare_value {α : Type} (x : Located α) : x.bare.value = x.value := rfl

@[simp] theorem Located.bare_span {α : Type} (x : Located α) : x.bare.span = Span.none := rfl

@[simp] theorem Located.bare_bare {α : Type} (x : Located α) : x.bare.bare = x.bare := rfl

@[simp] theorem Span.union_none : Span.none.union Span.none = Span.none := rfl

def BinaryOp.symbol : BinaryOp → Symbol
  | add => .plus
  | sub => .minus
  | mul => .star
  | div => .slash
  | rem => .percent
  | eq => .eqEq
  | ne => .notEq
  | lt => .lt
  | le => .ltEq
  | gt => .gt
  | ge => .gtEq
  | and => .andAnd
  | or => .orOr
  | bitAnd => .amp
  | bitOr => .pipe
  | bitXor => .caret
  | shl => .shl
  | shr => .shr
  | andNot => .andNot

def UnaryOp.symbol : UnaryOp → Symbol
  | neg => .minus
  | plus => .plus
  | not => .bang
  | ref => .amp
  | deref => .star
  | bitNot => .caret

def AssignOp.symbol : AssignOp → Symbol
  | define => .define
  | assign => .assign
  | add => .plusAssign
  | sub => .minusAssign
  | mul => .starAssign
  | div => .slashAssign
  | inc => .plusPlus
  | dec => .minusMinus

def BranchKind.keyword : BranchKind → Keyword
  | break_ => .break_
  | continue_ => .continue_

def front (ts : Tokens) : Option Token := ts.head?.map (·.value)

@[simp] theorem front_nil : front [] = none := rfl

@[simp] theorem front_cons (t : Located Token) (ts : Tokens) : front (t :: ts) = some t.value := rfl

namespace Canonical

abbrev plain (t : Token) : Located Token := ⟨t, Span.none⟩

abbrev sym (s : Symbol) : Located Token := plain (.symbol s)

abbrev word (k : Keyword) : Located Token := plain (.keyword k)

abbrev name (n : Name) : Located Token := plain (.ident n.value)

def commaEach (pieces : List Tokens) : Tokens := pieces.flatMap (sym .comma :: ·)

def commaSep : List Tokens → Tokens
  | [] => []
  | piece :: pieces => piece ++ commaEach pieces

@[simp] theorem commaSep_nil : commaSep [] = [] := rfl

@[simp] theorem commaSep_singleton (piece : Tokens) : commaSep [piece] = piece := List.append_nil piece

@[simp] theorem commaSep_cons_cons (piece other : Tokens) (pieces : List Tokens) :
    commaSep (piece :: other :: pieces) = piece ++ sym .comma :: commaSep (other :: pieces) := rfl

inductive NameStyle
  | parted
  | whole
  /-- In two parts; and the results of a function type stand in parentheses only if there are several. -/
  | spare

def NameStyle.parts : NameStyle → Bool
  | whole => false
  | _ => true

def typeName (style : NameStyle) (n : String) : Tokens :=
  match style.parts, n.toList.dropWhile (· != '.') with
  | true, _ :: member =>
    [plain (.ident (.ofList (n.toList.takeWhile (· != '.')))), sym .dot, plain (.ident (.ofList member))]
  | _, _ => [plain (.ident n)]

def funcResults : NameStyle → List Tokens → Tokens
  | .spare, [] => []
  | .spare, [piece] => piece
  | _, pieces => sym .leftParen :: (commaSep pieces ++ [sym .rightParen])

mutual

def type (style : NameStyle) : TypeExpr → Tokens
  | .named n => typeName style n
  | .generic n arg => typeName style n ++ sym .leftBracket :: (type style arg ++ [sym .rightBracket])
  | .chan true elem => sym .arrow :: word .chan :: type style elem
  | .chan false elem => word .chan :: type style elem
  | .slice elem => sym .leftBracket :: sym .rightBracket :: type style elem
  | .pointer elem => sym .star :: type style elem
  | .func params results =>
    word .func :: sym .leftParen :: (commaSep (types style params) ++ sym .rightParen ::
      funcResults style (types style results))

def types (style : NameStyle) : List TypeExpr → List Tokens
  | [] => []
  | t :: ts => type style t :: types style ts

end

def param (style : NameStyle) (p : Param) : Tokens :=
  name p.name :: ((if p.variadic then [sym .ellipsis] else []) ++ type style p.ty.value)

def params (style : NameStyle) (ps : List Param) : Tokens :=
  sym .leftParen :: (commaSep (ps.map (param style)) ++ [sym .rightParen])

def results (style : NameStyle) (ts : List (Located TypeExpr)) : Tokens :=
  sym .leftParen :: (commaSep (ts.map fun t => type style t.value) ++ [sym .rightParen])

def path (names : List Name) : Tokens := names.flatMap fun n => [sym .dot, name n]

def names (ns : List Name) : Tokens := commaSep (ns.map fun n => [name n])

def optionalType (style : NameStyle) : Option (Located TypeExpr) → Tokens
  | none => []
  | some t => type style t.value

def assigned : List Tokens → Tokens
  | [] => []
  | piece :: pieces => sym .assign :: commaSep (piece :: pieces)

def rangeVars : Option Name → Option Name → Tokens
  | none, _ => []
  | some key, none => [name key, sym .define]
  | some key, some value => [name key, sym .comma, name value, sym .define]

mutual

def expr (style : NameStyle) : Expr → Tokens
  | ⟨head, tail, _⟩ => primary style head ++ links style tail

def links (style : NameStyle) : List Link → Tokens
  | [] => []
  | ⟨op, operand⟩ :: ls => sym op.value.symbol :: (primary style operand ++ links style ls)

def exprs (style : NameStyle) : List Expr → List Tokens
  | [] => []
  | e :: es => expr style e :: exprs style es

def optional (style : NameStyle) : Option Expr → Tokens
  | none => []
  | some e => expr style e

def entries (style : NameStyle) : List Entry → List Tokens
  | [] => []
  | ⟨some key, value⟩ :: es => (name key :: sym .colon :: expr style value) :: entries style es
  | ⟨none, value⟩ :: es => expr style value :: entries style es

def primary (style : NameStyle) : Primary → Tokens
  | .int text => [plain (.int text.value)]
  | .float text => [plain (.float text.value)]
  | .string text => [plain (.string text.value)]
  | .template t => template style t
  | .composite ty es _ =>
    type style ty.value ++ sym .leftBrace :: (commaSep (entries style es) ++ [sym .rightBrace])
  | .make ty args _ =>
    word .make :: sym .leftParen :: (type style ty.value ++ (commaEach (exprs style args) ++ [sym .rightParen]))
  | .index target index _ =>
    primary style target ++ sym .leftBracket :: (expr style index ++ [sym .rightBracket])
  | .slice target low high _ =>
    primary style target ++ sym .leftBracket :: (optional style low ++ sym .colon ::
      (optional style high ++ [sym .rightBracket]))
  | .select b segments _ => base style b ++ path segments
  | .call b segments args _ =>
    base style b ++ (path segments ++ sym .leftParen :: (commaSep (exprs style args) ++ [sym .rightParen]))
  | .func ps rs body _ => word .func :: (params style ps ++ (results style rs ++ block style body))
  | .receive channel _ => [sym .arrow, name channel]
  | .unary op operand _ => sym op.symbol :: primary style operand
  | .paren inner => sym .leftParen :: (expr style inner ++ [sym .rightParen])

def base (style : NameStyle) : Base → Tokens
  | .name n => [name n]
  | .operand p => primary style p

def template (style : NameStyle) : Template → Tokens
  | ⟨fs, _⟩ => plain .templateStart :: (fragments style fs ++ [plain .templateEnd])

def fragments (style : NameStyle) : List Fragment → Tokens
  | [] => []
  | .text s :: fs => plain (.templateText s) :: fragments style fs
  | .interp e :: fs => plain .interpOpen :: (expr style e ++ plain .interpClose :: fragments style fs)

def block (style : NameStyle) : Block → Tokens
  | ⟨ss, _⟩ => sym .leftBrace :: (stmts style ss ++ [sym .rightBrace])

def stmts (style : NameStyle) : List Stmt → Tokens
  | [] => []
  | s :: ss => stmt style s ++ sym .semicolon :: stmts style ss

/-- A statement without its `;`. A type's name whose first part is reserved cannot start one, so it is not parted
there. -/
def stmt (style : NameStyle) : Stmt → Tokens
  | .var d => varDecl style d
  | .simple s =>
    if Grammar.isReservedIdent (front (simple style s)) then simple .whole s else simple style s
  | .ret values _ => word .return_ :: commaSep (exprs style values)
  | .cond s => ifStmt style s
  | .loop header body _ => word .for_ :: (loopHeader style header ++ block style body)
  | .branch kind _ => [word kind.keyword]

def simple (style : NameStyle) : SimpleStmt → Tokens
  | .exprs targets _ => commaSep (exprs style targets)
  | .assign targets op values _ =>
    commaSep (exprs style targets) ++ sym op.value.symbol :: commaSep (exprs style values)
  | .send channel value _ => expr style channel ++ sym .arrow :: expr style value

def clause (style : NameStyle) : Option SimpleStmt → Tokens
  | none => []
  | some s => simple style s

def varDecl (style : NameStyle) : VarDecl → Tokens
  | ⟨ns, ty, values, _⟩ =>
    word .var :: (names ns ++ (optionalType style ty ++ assigned (exprs style values)))

def ifStmt (style : NameStyle) : IfStmt → Tokens
  | ⟨init, cond, body, otherwise, _⟩ =>
    word .if_ :: (clause style init ++ ((if init.isSome then [sym .semicolon] else []) ++
      (expr style cond ++ (block style body ++ orElse style otherwise))))

def orElse (style : NameStyle) : Else → Tokens
  | .none => []
  | .block b => word .else_ :: block style b
  | .chain s => word .else_ :: ifStmt style s

def loopHeader (style : NameStyle) : LoopHeader → Tokens
  | .infinite => []
  | .cond e => expr style e
  | .classic init cond post =>
    clause style init ++ sym .semicolon :: (optional style cond ++ sym .semicolon :: clause style post)
  | .range key value iterable => rangeVars key value ++ word .range :: expr style iterable

end

def link (style : NameStyle) (l : Link) : Tokens := sym l.op.value.symbol :: primary style l.operand

def entry (style : NameStyle) (e : Entry) : Tokens :=
  match e.key with
  | some key => name key :: sym .colon :: expr style e.value
  | none => expr style e.value

def fragment (style : NameStyle) : Fragment → Tokens
  | .text s => [plain (.templateText s)]
  | .interp e => plain .interpOpen :: (expr style e ++ [plain .interpClose])

variable (style : NameStyle)

theorem expr_eq (e : Expr) : expr style e = primary style e.head ++ links style e.tail := by
  cases e
  rw [expr]

theorem types_eq_map (ts : List TypeExpr) : types style ts = ts.map (type style) := by
  induction ts with
  | nil => rfl
  | cons t ts ih => rw [types, ih, List.map_cons]

theorem links_eq_flatMap (ls : List Link) : links style ls = ls.flatMap (link style) := by
  induction ls with
  | nil => rfl
  | cons l ls ih =>
    cases l
    simp [links, link, ih]

theorem exprs_eq_map (es : List Expr) : exprs style es = es.map (expr style) := by
  induction es with
  | nil => rfl
  | cons e es ih => rw [exprs, ih, List.map_cons]

theorem entries_eq_map (es : List Entry) : entries style es = es.map (entry style) := by
  induction es with
  | nil => rfl
  | cons e es ih =>
    obtain ⟨key, value⟩ := e
    cases key <;> simp [entries, entry, ih]

theorem optional_eq (o : Option Expr) : optional style o = o.elim [] (expr style) := by
  cases o <;> rfl

theorem clause_eq (o : Option SimpleStmt) : clause style o = o.elim [] (simple style) := by
  cases o <;> rfl

theorem fragments_eq_flatMap (fs : List Fragment) : fragments style fs = fs.flatMap (fragment style) := by
  induction fs with
  | nil => rfl
  | cons f fs ih => cases f <;> simp [fragments, fragment, ih]

theorem stmts_eq_flatMap (ss : List Stmt) :
    stmts style ss = ss.flatMap fun s => stmt style s ++ [sym .semicolon] := by
  induction ss with
  | nil => rfl
  | cons s ss ih => simp [stmts, ih]

end Canonical

namespace Bare

def param (p : Param) : Param := ⟨p.name.bare, p.ty.bare, p.variadic⟩

mutual

def expr : Expr → Expr
  | ⟨head, tail, _⟩ => ⟨primary head, links tail, Span.none⟩

def links : List Link → List Link
  | [] => []
  | ⟨op, operand⟩ :: ls => ⟨op.bare, primary operand⟩ :: links ls

def exprs : List Expr → List Expr
  | [] => []
  | e :: es => expr e :: exprs es

def optional : Option Expr → Option Expr
  | none => none
  | some e => some (expr e)

def entries : List Entry → List Entry
  | [] => []
  | ⟨key, value⟩ :: es => ⟨key.map Located.bare, expr value⟩ :: entries es

def primary : Primary → Primary
  | .int text => .int text.bare
  | .float text => .float text.bare
  | .string text => .string text.bare
  | .template t => .template (template t)
  | .composite ty es _ => .composite ty.bare (entries es) Span.none
  | .make ty args _ => .make ty.bare (exprs args) Span.none
  | .index target index _ => .index (primary target) (expr index) Span.none
  | .slice target low high _ => .slice (primary target) (optional low) (optional high) Span.none
  | .select b path _ => .select (base b) (path.map Located.bare) Span.none
  | .call b path args _ => .call (base b) (path.map Located.bare) (exprs args) Span.none
  | .func ps rs body _ => .func (ps.map param) (rs.map Located.bare) (block body) Span.none
  | .receive channel _ => .receive channel.bare Span.none
  | .unary op operand _ => .unary op (primary operand) Span.none
  | .paren inner => .paren (expr inner)

def base : Base → Base
  | .name n => .name n.bare
  | .operand p => .operand (primary p)

def template : Template → Template
  | ⟨fs, _⟩ => ⟨fragments fs, Span.none⟩

def fragments : List Fragment → List Fragment
  | [] => []
  | .text s :: fs => .text s :: fragments fs
  | .interp e :: fs => .interp (expr e) :: fragments fs

def block : Block → Block
  | ⟨ss, _⟩ => ⟨stmts ss, Span.none⟩

def stmts : List Stmt → List Stmt
  | [] => []
  | s :: ss => stmt s :: stmts ss

def stmt : Stmt → Stmt
  | .var d => .var (varDecl d)
  | .simple s => .simple (simple s)
  | .ret values _ => .ret (exprs values) Span.none
  | .cond s => .cond (ifStmt s)
  | .loop header body _ => .loop (loopHeader header) (block body) Span.none
  | .branch kind _ => .branch kind Span.none

def simple : SimpleStmt → SimpleStmt
  | .exprs targets _ => .exprs (exprs targets) Span.none
  | .assign targets op values _ => .assign (exprs targets) op.bare (exprs values) Span.none
  | .send channel value _ => .send (expr channel) (expr value) Span.none

def clause : Option SimpleStmt → Option SimpleStmt
  | none => none
  | some s => some (simple s)

def varDecl : VarDecl → VarDecl
  | ⟨ns, ty, values, _⟩ => ⟨ns.map Located.bare, ty.map Located.bare, exprs values, Span.none⟩

def ifStmt : IfStmt → IfStmt
  | ⟨init, cond, body, otherwise, _⟩ => ⟨clause init, expr cond, block body, orElse otherwise, Span.none⟩

def orElse : Else → Else
  | .none => .none
  | .block b => .block (block b)
  | .chain s => .chain (ifStmt s)

def loopHeader : LoopHeader → LoopHeader
  | .infinite => .infinite
  | .cond e => .cond (expr e)
  | .classic init cond post => .classic (clause init) (optional cond) (clause post)
  | .range key value iterable => .range (key.map Located.bare) (value.map Located.bare) (expr iterable)

end

def link (l : Link) : Link := ⟨l.op.bare, primary l.operand⟩

def entry (e : Entry) : Entry := ⟨e.key.map Located.bare, expr e.value⟩

def fragment : Fragment → Fragment
  | .text s => .text s
  | .interp e => .interp (expr e)

theorem expr_eq (e : Expr) : expr e = ⟨primary e.head, links e.tail, Span.none⟩ := by
  cases e
  rw [expr]

theorem links_eq_map (ls : List Link) : links ls = ls.map link := by
  induction ls with
  | nil => rfl
  | cons l ls ih =>
    cases l
    simp [links, link, ih]

theorem exprs_eq_map (es : List Expr) : exprs es = es.map expr := by
  induction es with
  | nil => rfl
  | cons e es ih => rw [exprs, ih, List.map_cons]

theorem entries_eq_map (es : List Entry) : entries es = es.map entry := by
  induction es with
  | nil => rfl
  | cons e es ih =>
    cases e
    simp [entries, entry, ih]

theorem optional_eq_map (o : Option Expr) : optional o = o.map expr := by
  cases o <;> rfl

theorem clause_eq_map (o : Option SimpleStmt) : clause o = o.map simple := by
  cases o <;> rfl

theorem fragments_eq_map (fs : List Fragment) : fragments fs = fs.map fragment := by
  induction fs with
  | nil => rfl
  | cons f fs ih => cases f <;> simp [fragments, fragment, ih]

theorem stmts_eq_map (ss : List Stmt) : stmts ss = ss.map stmt := by
  induction ss with
  | nil => rfl
  | cons s ss ih => rw [stmts, ih, List.map_cons]

@[simp] theorem span_expr (e : Expr) : (expr e).span = Span.none := by
  rw [expr_eq]

@[simp] theorem span_template (t : Template) : (template t).span = Span.none := by
  cases t
  rw [template]

@[simp] theorem span_primary (p : Primary) : (primary p).span = Span.none := by
  cases p <;> simp [primary, Primary.span]

@[simp] theorem span_block (b : Block) : (block b).span = Span.none := by
  cases b
  rw [block]

@[simp] theorem span_ifStmt (s : IfStmt) : (ifStmt s).span = Span.none := by
  cases s
  rw [ifStmt]

mutual

theorem expr_idem : (e : Expr) → expr (expr e) = expr e
  | ⟨head, tail, _⟩ => by simp [expr, primary_idem head, links_idem tail]

theorem links_idem : (ls : List Link) → links (links ls) = links ls
  | [] => rfl
  | ⟨op, operand⟩ :: ls => by simp [links, primary_idem operand, links_idem ls]

theorem exprs_idem : (es : List Expr) → exprs (exprs es) = exprs es
  | [] => rfl
  | e :: es => by simp [exprs, expr_idem e, exprs_idem es]

theorem optional_idem : (o : Option Expr) → optional (optional o) = optional o
  | none => rfl
  | some e => by simp [optional, expr_idem e]

theorem entries_idem : (es : List Entry) → entries (entries es) = entries es
  | [] => rfl
  | ⟨key, value⟩ :: es => by simp [entries, Function.comp_def, expr_idem value, entries_idem es]

theorem primary_idem : (p : Primary) → primary (primary p) = primary p
  | .int _ => rfl
  | .float _ => rfl
  | .string _ => rfl
  | .template t => by simp [primary, template_idem t]
  | .composite ty es _ => by simp [primary, entries_idem es]
  | .make ty args _ => by simp [primary, exprs_idem args]
  | .index target i _ => by simp [primary, primary_idem target, expr_idem i]
  | .slice target low high _ => by simp [primary, primary_idem target, optional_idem low, optional_idem high]
  | .select b path _ => by simp [primary, base_idem b]
  | .call b path args _ => by simp [primary, base_idem b, exprs_idem args]
  | .func ps rs body _ => by simp [primary, param, Function.comp_def, block_idem body]
  | .receive channel _ => rfl
  | .unary op operand _ => by simp [primary, primary_idem operand]
  | .paren inner => by simp [primary, expr_idem inner]

theorem base_idem : (b : Base) → base (base b) = base b
  | .name _ => rfl
  | .operand p => by simp [base, primary_idem p]

theorem template_idem : (t : Template) → template (template t) = template t
  | ⟨fs, _⟩ => by simp [template, fragments_idem fs]

theorem fragments_idem : (fs : List Fragment) → fragments (fragments fs) = fragments fs
  | [] => rfl
  | .text _ :: fs => by simp [fragments, fragments_idem fs]
  | .interp e :: fs => by simp [fragments, expr_idem e, fragments_idem fs]

theorem block_idem : (b : Block) → block (block b) = block b
  | ⟨ss, _⟩ => by simp [block, stmts_idem ss]

theorem stmts_idem : (ss : List Stmt) → stmts (stmts ss) = stmts ss
  | [] => rfl
  | s :: ss => by simp [stmts, stmt_idem s, stmts_idem ss]

theorem stmt_idem : (s : Stmt) → stmt (stmt s) = stmt s
  | .var d => by simp [stmt, varDecl_idem d]
  | .simple s => by simp [stmt, simple_idem s]
  | .ret values _ => by simp [stmt, exprs_idem values]
  | .cond s => by simp [stmt, ifStmt_idem s]
  | .loop header body _ => by simp [stmt, loopHeader_idem header, block_idem body]
  | .branch _ _ => rfl

theorem simple_idem : (s : SimpleStmt) → simple (simple s) = simple s
  | .exprs targets _ => by simp [simple, exprs_idem targets]
  | .assign targets op values _ => by simp [simple, exprs_idem targets, exprs_idem values]
  | .send channel value _ => by simp [simple, expr_idem channel, expr_idem value]

theorem clause_idem : (o : Option SimpleStmt) → clause (clause o) = clause o
  | none => rfl
  | some s => by simp [clause, simple_idem s]

theorem varDecl_idem : (d : VarDecl) → varDecl (varDecl d) = varDecl d
  | ⟨ns, ty, values, _⟩ => by simp [varDecl, Function.comp_def, exprs_idem values]

theorem ifStmt_idem : (s : IfStmt) → ifStmt (ifStmt s) = ifStmt s
  | ⟨init, cond, body, otherwise, _⟩ => by
    simp [ifStmt, clause_idem init, expr_idem cond, block_idem body, orElse_idem otherwise]

theorem orElse_idem : (e : Else) → orElse (orElse e) = orElse e
  | .none => rfl
  | .block b => by simp [orElse, block_idem b]
  | .chain s => by simp [orElse, ifStmt_idem s]

theorem loopHeader_idem : (h : LoopHeader) → loopHeader (loopHeader h) = loopHeader h
  | .infinite => rfl
  | .cond e => by simp [loopHeader, expr_idem e]
  | .classic init cond post => by simp [loopHeader, clause_idem init, optional_idem cond, clause_idem post]
  | .range key value iterable => by simp [loopHeader, Function.comp_def, expr_idem iterable]

end
end Bare
end ViewLang
