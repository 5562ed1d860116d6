import ViewLang.Proofs.Token.Partition
import ViewLang.Syntax.Unit

namespace ViewLang

inductive Places
  | none
  | word (w : Name)
  | part (span : Span) (inside : Places)
  | next (first second : Places)
  | both (one other : Places)

namespace Places

def mark (span : Span) : Places := part span none

def row : List Places → Places
  | [] => none
  | x :: xs => next x (row xs)

def bag : List Places → Places
  | [] => none
  | x :: xs => both x (bag xs)

def maybe {α : Type} (places : α → Places) : Option α → Places
  | Option.none => none
  | some a => places a

def spans : Places → List Span
  | none => []
  | word w => [w.span]
  | part span inside => span :: inside.spans
  | next x y => x.spans ++ y.spans
  | both x y => x.spans ++ y.spans

end Places

def Proper (source : List Char) (span : Span) : Prop := span.start < span.stop ∧ span.stop ≤ byteLength source

/-- The ranges are proper; a part contains what is inside it, what comes before ends before, and words stand where
they are said to. -/
def Places.Sound (source : List Char) : Places → Prop
  | none => True
  | word w => Proper source w.span ∧ ∃ rest, Lexer.StandsAt source w.span w.value.toList rest
  | part span inside =>
    Proper source span ∧ (∀ s ∈ inside.spans, span.start ≤ s.start ∧ s.stop ≤ span.stop) ∧ inside.Sound source
  | next x y => (∀ s ∈ x.spans, ∀ t ∈ y.spans, s.stop ≤ t.start) ∧ x.Sound source ∧ y.Sound source
  | both x y => x.Sound source ∧ y.Sound source

open Places

def Located.place {α : Type} (x : Located α) : Places := mark x.span

def words (names : List Name) : Places := row (names.map word)

def Param.places (p : Param) : Places := both (word p.name) p.ty.place

mutual

def Expr.places : Expr → Places
  | ⟨head, tail, span⟩ => part span (next head.places (row (Link.each tail)))

def Link.each : List Link → List Places
  | [] => []
  | ⟨op, operand⟩ :: links => next op.place operand.places :: Link.each links

def Expr.each : List Expr → List Places
  | [] => []
  | e :: es => e.places :: Expr.each es

def Primary.places : Primary → Places
  | .int text => word text
  | .float text => word text
  | .string text => text.place
  | .template t => t.places
  | .composite ty entries span => part span (next ty.place (row (Entry.each entries)))
  | .make ty args span => part span (next ty.place (row (Expr.each args)))
  | .index target index span => part span (next target.places index.places)
  | .slice target low high span =>
    let lows := match low with
      | Option.none => Places.none
      | some e => e.places
    let highs := match high with
      | Option.none => Places.none
      | some e => e.places
    part span (next target.places (next lows highs))
  | .select base path span => part span (next base.places (words path))
  | .call base path args span => part span (next base.places (next (words path) (row (Expr.each args))))
  | .func params results body span =>
    part span (next (bag (params.map Param.places)) (next (row (results.map Located.place)) body.places))
  | .receive channel span => part span (word channel)
  | .unary _ operand span => part span operand.places
  | .paren inner => inner.places

def Base.places : Base → Places
  | .name n => word n
  | .operand p => p.places

def Template.places : Template → Places
  | ⟨fragments, span⟩ => part span (row (Fragment.each fragments))

def Fragment.each : List Fragment → List Places
  | [] => []
  | .text _ :: fs => Places.none :: Fragment.each fs
  | .interp e :: fs => e.places :: Fragment.each fs

def Entry.each : List Entry → List Places
  | [] => []
  | ⟨key, value⟩ :: es => next (maybe word key) value.places :: Entry.each es

def Block.places : Block → Places
  | ⟨stmts, span⟩ => part span (row (Stmt.each stmts))

def Stmt.each : List Stmt → List Places
  | [] => []
  | s :: ss => s.places :: Stmt.each ss

def Stmt.places : Stmt → Places
  | .var d => d.places
  | .simple s => s.places
  | .ret values span => part span (row (Expr.each values))
  | .cond s => s.places
  | .loop header body span => part span (next header.places body.places)
  | .branch _ span => mark span

def SimpleStmt.places : SimpleStmt → Places
  | .exprs targets span => part span (row (Expr.each targets))
  | .assign targets op values span =>
    part span (next (row (Expr.each targets)) (next op.place (row (Expr.each values))))
  | .send channel value span => part span (next channel.places value.places)

def VarDecl.places : VarDecl → Places
  | ⟨names, ty, values, span⟩ =>
    part span (next (words names) (next (maybe Located.place ty) (row (Expr.each values))))

def IfStmt.places : IfStmt → Places
  | ⟨init, cond, body, otherwise, span⟩ =>
    let inits := match init with
      | Option.none => Places.none
      | some s => s.places
    part span (next inits (next cond.places (next body.places otherwise.places)))

def Else.places : Else → Places
  | .none => Places.none
  | .block b => b.places
  | .chain s => s.places

def LoopHeader.places : LoopHeader → Places
  | .infinite => Places.none
  | .cond e => e.places
  | .classic init cond post =>
    let inits := match init with
      | Option.none => Places.none
      | some s => s.places
    let conds := match cond with
      | Option.none => Places.none
      | some e => e.places
    let posts := match post with
      | Option.none => Places.none
      | some s => s.places
    next inits (next conds posts)
  | .range key value iterable => next (maybe word key) (next (maybe word value) iterable.places)

end

def Link.places (l : Link) : Places := next l.op.place l.operand.places

def Fragment.places : Fragment → Places
  | .text _ => Places.none
  | .interp e => e.places

def Entry.places (e : Entry) : Places := next (maybe word e.key) e.value.places

mutual

def Node.places : Node → Places
  | .element e => e.places
  | .text t => t.place
  | .template t => t.places
  | .cond c => c.places
  | .loop l => l.places

def Node.each : List Node → List Places
  | [] => []
  | n :: ns => n.places :: Node.each ns

def Element.places : Element → Places
  | ⟨tag, args, children, span⟩ =>
    part span (next (word tag) (next (row (args.map Entry.places)) (row (Node.each children))))

def NodeIf.places : NodeIf → Places
  | ⟨cond, body, otherwise, span⟩ =>
    part span (next cond.places (next (row (Node.each body)) (row (Node.each otherwise))))

def NodeFor.places : NodeFor → Places
  | ⟨key, value, iterable, children, span⟩ =>
    part span (next (maybe word key) (next (maybe word value) (next iterable.places (row (Node.each children)))))

end

/-- Variables, statements and nodes may stand between each other. -/
def Body.places (b : Body) : Places :=
  bag [row (b.vars.map VarDecl.places), row (b.stmts.map Stmt.places), row (b.nodes.map Node.places)]

def Component.places (c : Component) : Places :=
  part c.span (next (word c.name) (next (bag (c.params.map Param.places))
    (next (row (c.results.map Located.place)) c.body.places)))

def Field.places (f : Field) : Places := both (word f.name) f.ty.place

def TypeDef.places (d : TypeDef) : Places := part d.span (next (word d.name) (bag (d.fields.map Field.places)))

def Decorator.places (d : Decorator) : Places := part d.span (next (word d.name) (row (d.args.map Expr.places)))

def decoratorPlaces (ds : List Decorator) : Places := row (ds.map Decorator.places)

/-- Fields that are written together share decorators and a type. -/
def GpuField.places (f : GpuField) : Places := bag [decoratorPlaces f.decorators, word f.name, f.ty.place]

def GpuStruct.places (s : GpuStruct) : Places :=
  part s.span (next (decoratorPlaces s.decorators) (next (word s.name) (bag (s.fields.map GpuField.places))))

def GpuBinding.places (b : GpuBinding) : Places :=
  part b.span (next (decoratorPlaces b.decorators) (next (word b.name) b.ty.place))

def GpuResult.places (r : GpuResult) : Places := next (decoratorPlaces r.decorators) r.ty.place

def GpuFunction.places (f : GpuFunction) : Places :=
  part f.span (next (decoratorPlaces f.decorators) (next (word f.name) (next (bag (f.params.map GpuField.places))
    (next (maybe GpuResult.places f.result) f.body.places))))

def SourceUnit.places (u : SourceUnit) : Places :=
  next (word u.package) (next (row (u.imports.map Located.place)) (bag [row (u.types.map TypeDef.places),
    row (u.components.map Component.places), row (u.gpuStructs.map GpuStruct.places),
    row (u.gpuBindings.map GpuBinding.places), row (u.gpuFunctions.map GpuFunction.places)]))

@[simp] theorem Link.each_eq (ls : List Link) : Link.each ls = ls.map Link.places := by
  induction ls with
  | nil => rw [Link.each, List.map_nil]
  | cons l ls ih =>
    cases l
    rw [Link.each, ih, List.map_cons, Link.places]

@[simp] theorem Expr.each_eq (es : List Expr) : Expr.each es = es.map Expr.places := by
  induction es with
  | nil => rw [Expr.each, List.map_nil]
  | cons e es ih => rw [Expr.each, ih, List.map_cons]

@[simp] theorem Entry.each_eq (es : List Entry) : Entry.each es = es.map Entry.places := by
  induction es with
  | nil => rw [Entry.each, List.map_nil]
  | cons e es ih =>
    cases e
    rw [Entry.each, ih, List.map_cons, Entry.places]

@[simp] theorem Fragment.each_eq (fs : List Fragment) : Fragment.each fs = fs.map Fragment.places := by
  induction fs with
  | nil => rw [Fragment.each, List.map_nil]
  | cons f fs ih => cases f <;> rw [Fragment.each, ih, List.map_cons, Fragment.places]

@[simp] theorem Stmt.each_eq (ss : List Stmt) : Stmt.each ss = ss.map Stmt.places := by
  induction ss with
  | nil => rw [Stmt.each, List.map_nil]
  | cons s ss ih => rw [Stmt.each, ih, List.map_cons]

@[simp] theorem Node.each_eq (ns : List Node) : Node.each ns = ns.map Node.places := by
  induction ns with
  | nil => rw [Node.each, List.map_nil]
  | cons n ns ih => rw [Node.each, ih, List.map_cons]

namespace Places

variable {source : List Char} {lo mid hi : Nat} {x y : Places} {s t : Span}

def Lies (source : List Char) : Nat → Nat → Places → Prop
  | _, _, none => True
  | lo, hi, word w =>
    lo ≤ w.span.start ∧ w.span.stop ≤ hi ∧ Proper source w.span ∧
      ∃ rest, Lexer.StandsAt source w.span w.value.toList rest
  | lo, hi, part span inside =>
    lo ≤ span.start ∧ span.stop ≤ hi ∧ Proper source span ∧ Lies source span.start span.stop inside
  | lo, hi, next x y => ∃ mid, lo ≤ mid ∧ mid ≤ hi ∧ Lies source lo mid x ∧ Lies source mid hi y
  | lo, hi, both x y => Lies source lo hi x ∧ Lies source lo hi y

theorem Lies.mono {lo' hi' : Nat} (lies : Lies source lo hi x) (low : lo' ≤ lo) (high : hi ≤ hi') :
    Lies source lo' hi' x := by
  induction x generalizing lo hi lo' hi' with
  | none => trivial
  | word w =>
    obtain ⟨start, stop, proper⟩ := lies
    exact ⟨by omega, by omega, proper⟩
  | part s x ih =>
    obtain ⟨start, stop, proper⟩ := lies
    exact ⟨by omega, by omega, proper⟩
  | next x y ihx ihy =>
    obtain ⟨mid, low', high', first, second⟩ := lies
    exact ⟨mid, by omega, by omega, ihx first low (Nat.le_refl _), ihy second (Nat.le_refl _) high⟩
  | both x y ihx ihy => exact ⟨ihx lies.1 low high, ihy lies.2 low high⟩

theorem Lies.spans (lies : Lies source lo hi x) (member : s ∈ x.spans) : lo ≤ s.start ∧ s.stop ≤ hi := by
  induction x generalizing lo hi with
  | none => cases member
  | word w =>
    obtain ⟨start, stop, -⟩ := lies
    rw [List.mem_singleton.mp member]
    exact ⟨start, stop⟩
  | part t x ih =>
    obtain ⟨start, stop, -, inside⟩ := lies
    rcases List.mem_cons.mp member with rfl | deeper
    · exact ⟨start, stop⟩
    · have := ih inside deeper
      omega
  | next x y ihx ihy =>
    obtain ⟨mid, low, high, first, second⟩ := lies
    rcases List.mem_append.mp member with left | right
    · have := ihx first left
      omega
    · have := ihy second right
      omega
  | both x y ihx ihy =>
    rcases List.mem_append.mp member with left | right
    · exact ihx lies.1 left
    · exact ihy lies.2 right

theorem Lies.sound (lies : Lies source lo hi x) : x.Sound source := by
  induction x generalizing lo hi with
  | none => trivial
  | word w => exact lies.2.2
  | part t x ih =>
    obtain ⟨-, -, proper, inside⟩ := lies
    exact ⟨proper, fun s member => inside.spans member, ih inside⟩
  | next x y ihx ihy =>
    obtain ⟨mid, -, -, first, second⟩ := lies
    refine ⟨?_, ihx first, ihy second⟩
    intro s left t right
    exact Nat.le_trans (first.spans left).2 (second.spans right).1
  | both x y ihx ihy => exact ⟨ihx lies.1, ihy lies.2⟩

theorem Lies.lower {lo' : Nat} (lies : Lies source lo hi x) (low : lo' ≤ lo) : Lies source lo' hi x :=
  lies.mono low (Nat.le_refl _)

theorem Lies.raise {hi' : Nat} (lies : Lies source lo hi x) (high : hi ≤ hi') : Lies source lo hi' x :=
  lies.mono (Nat.le_refl _) high

theorem Lies.next (first : Lies source lo mid x) (low : lo ≤ mid) (high : mid ≤ hi) (second : Lies source mid hi y) :
    Lies source lo hi (.next x y) :=
  ⟨mid, low, high, first, second⟩

def extent? : Places → Option Span
  | word w => some w.span
  | part span _ => some span
  | _ => Option.none

/-- Places with a range of their own are all inside it. -/
theorem Lies.within (lies : Lies source lo hi x) (whole : x.extent? = some s) :
    lo ≤ s.start ∧ s.stop ≤ hi ∧ Proper source s ∧ Lies source s.start s.stop x := by
  cases x with
  | word w =>
    cases whole
    exact ⟨lies.1, lies.2.1, lies.2.2.1, Nat.le_refl _, Nat.le_refl _, lies.2.2⟩
  | part t x =>
    cases whole
    exact ⟨lies.1, lies.2.1, lies.2.2.1, Nat.le_refl _, Nat.le_refl _, lies.2.2⟩
  | _ => cases whole

theorem lies_row_append {xs ys : List Places} (first : Lies source lo mid (row xs)) (low : lo ≤ mid) (high : mid ≤ hi)
    (second : Lies source mid hi (row ys)) : Lies source lo hi (row (xs ++ ys)) := by
  induction xs generalizing lo with
  | nil => exact second.lower low
  | cons x xs ih =>
    obtain ⟨m, low', high', one, others⟩ := first
    exact ⟨m, low', by omega, one, ih others high'⟩

theorem lies_row_single (lies : Lies source lo hi x) (le : lo ≤ hi) : Lies source lo hi (row [x]) :=
  ⟨hi, le, Nat.le_refl _, lies, trivial⟩

/-- In a row with some left out, the others stay where they are. -/
theorem Lies.sublist {xs ys : List Places} (lies : Lies source lo hi (row ys)) (fewer : xs.Sublist ys) :
    Lies source lo hi (row xs) := by
  induction fewer generalizing lo with
  | slnil => trivial
  | cons y _ ih =>
    obtain ⟨m, low, -, -, others⟩ := lies
    exact (ih others).lower low
  | cons_cons y _ ih =>
    obtain ⟨m, low, high, one, others⟩ := lies
    exact ⟨m, low, high, one, ih others⟩

theorem lies_bag {xs : List Places} : Lies source lo hi (bag xs) ↔ ∀ x ∈ xs, Lies source lo hi x := by
  induction xs with
  | nil => simp [bag, Lies]
  | cons x xs ih => simp [bag, Lies, ih]

theorem Lies.of_mem_row {xs : List Places} (lies : Lies source lo hi (row xs)) (member : x ∈ xs) :
    Lies source lo hi x := by
  induction xs generalizing lo with
  | nil => cases member
  | cons y ys ih =>
    obtain ⟨m, low, high, one, others⟩ := lies
    rcases List.mem_cons.mp member with rfl | later
    · exact one.raise high
    · exact (ih others later).lower low

end Places

theorem Span.union_eq {a b : Span} (start : a.start ≤ b.start) (stop : a.stop ≤ b.stop) :
    a.union b = ⟨a.start, b.stop⟩ := by
  rw [Span.union, Nat.min_eq_left start, Nat.max_eq_right stop]

end ViewLang
