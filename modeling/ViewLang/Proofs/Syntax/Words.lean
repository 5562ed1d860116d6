import ViewLang.Exported
import ViewLang.Proofs.Syntax.Throughout
import ViewLang.Proofs.Token.Writing

namespace ViewLang

theorem eq_of_ident {e : Expr} {name : Name} (found : e.ident? = some name) :
    ∃ inner outer, e = ⟨.select (.name name) [] inner, [], outer⟩ := by
  obtain ⟨head, tail, outer⟩ := e
  cases tail with
  | cons link links => cases found
  | nil =>
    change head.ident? = some name at found
    unfold Primary.ident? at found
    split at found
    · cases found
      exact ⟨_, _, rfl⟩
    · cases found

def isWordChar (c : Char) : Bool := Lexer.isIdentChar c || ['.', '+', '-'].contains c

def IsWord (s : String) : Prop := ∀ c ∈ s.toList, isWordChar c = true

instance (s : String) : Decidable (IsWord s) := decidable_of_iff (s.toList.all isWordChar = true) List.all_eq_true

theorem IsWord.append {s t : String} (first : IsWord s) (second : IsWord t) : IsWord (s ++ t) := by
  intro c member
  rw [String.toList_append] at member
  rcases List.mem_append.mp member with left | right
  · exact first c left
  · exact second c right

/-- What holds of texts, and of two with a separator between them if it holds of both, holds of a list of them. -/
theorem intercalate_gives {P : String → Prop} {sep : String} (empty : P "")
    (joined : ∀ s t, P s → P t → P (s ++ sep ++ t)) {texts : List String} (each : ∀ t ∈ texts, P t) :
    P (sep.intercalate texts) := by
  induction texts with
  | nil => exact empty
  | cons t texts ih =>
    obtain ⟨first, others⟩ := List.forall_mem_cons.mp each
    cases texts with
    | nil =>
      rw [String.intercalate_singleton]
      exact first
    | cons u texts =>
      rw [String.intercalate_cons_cons]
      exact joined _ _ first (ih others)

theorem IsWord.intercalate {sep : String} (apart : IsWord sep) {words : List String} (each : ∀ s ∈ words, IsWord s) :
    IsWord (sep.intercalate words) :=
  intercalate_gives nofun (fun _ _ first second => (first.append apart).append second) each

theorem isWord_of_ident {s : String} (each : ∀ c ∈ s.toList, Lexer.isIdentChar c = true) : IsWord s := by
  intro c member
  rw [isWordChar, each c member, Bool.true_or]

theorem isWordChar_of_ident {c : Char} (inside : Lexer.isIdentChar c = true) : isWordChar c = true := by
  rw [isWordChar, inside, Bool.true_or]

theorem isWordChar_of_digit {c : Char} (digit : c.isDigit = true) : isWordChar c = true :=
  isWordChar_of_ident (Lexer.isIdentChar_of_digit digit)

theorem isWord_of_int {s : String} (legal : Lexer.IntText s.toList) : IsWord s := by
  intro c member
  generalize s.toList = cs at legal member
  cases legal with
  | decimal digits => exact isWordChar_of_digit (digits.2 c member)
  | @hex x cs mark _ digits =>
    rcases List.mem_cons.mp member with rfl | member
    · decide
    · rcases List.mem_cons.mp member with rfl | member
      · rcases mark with rfl | rfl <;> decide
      · exact isWordChar_of_ident (Lexer.isIdentChar_of_hexDigit (digits c member))

theorem intText_ne_nil {cs : List Char} (legal : Lexer.IntText cs) : cs ≠ [] := by
  cases legal with
  | decimal digits => exact digits.1
  | hex => exact List.cons_ne_nil _ _

theorem isWordChar_of_exponent {cs : List Char} (legal : Lexer.ExponentText cs) {c : Char} (member : c ∈ cs) :
    isWordChar c = true := by
  cases legal with
  | plain mark digits =>
    rcases List.mem_cons.mp member with rfl | member
    · rcases mark with rfl | rfl <;> decide
    · exact isWordChar_of_digit (digits.2 c member)
  | signed mark sign digits =>
    rcases List.mem_cons.mp member with rfl | member
    · rcases mark with rfl | rfl <;> decide
    · rcases List.mem_cons.mp member with rfl | member
      · rcases sign with rfl | rfl <;> decide
      · exact isWordChar_of_digit (digits.2 c member)

theorem isWord_of_float {s : String} (legal : Lexer.FloatText s.toList) : IsWord s := by
  intro c member
  have point : isWordChar '.' = true := by decide
  generalize s.toList = cs at legal member
  cases legal with
  | point digits =>
    simp only [List.mem_append, List.mem_singleton] at member
    rcases member with member | rfl
    · exact isWordChar_of_digit (digits.2 c member)
    · exact point
  | fraction digits fraction =>
    simp only [List.mem_append, List.mem_cons] at member
    rcases member with member | rfl | member
    · exact isWordChar_of_digit (digits.2 c member)
    · exact point
    · exact isWordChar_of_digit (fraction.2 c member)
  | exponent digits exponent =>
    rcases List.mem_append.mp member with member | member
    · exact isWordChar_of_digit (digits.2 c member)
    · exact isWordChar_of_exponent exponent member
  | both digits fraction exponent =>
    simp only [List.mem_append, List.mem_cons] at member
    rcases member with member | rfl | member | member
    · exact isWordChar_of_digit (digits.2 c member)
    · exact point
    · exact isWordChar_of_digit (fraction.2 c member)
    · exact isWordChar_of_exponent exponent member

theorem hex_digits (n : Nat) : ∀ c ∈ Text.hex n, ∃ d < 16, c = d.digitChar := by
  unfold Text.hex
  induction n using Nat.strongRecOn with
  | ind n ih =>
    rw [Nat.toDigits_eq_if (by decide)]
    split
    · rename_i small
      exact List.forall_mem_singleton.mpr ⟨n, small, rfl⟩
    · rename_i large
      rw [List.forall_mem_append, List.forall_mem_singleton]
      exact ⟨ih (n / 16) (by omega), n % 16, by omega, rfl⟩

theorem digit_of_mem_hexPadded {width n : Nat} {c : Char} (member : c ∈ Text.hexPadded width n) :
    ∃ d < 16, c = d.digitChar := by
  rcases List.mem_append.mp member with zero | member
  · exact ⟨0, by decide, List.eq_of_mem_replicate zero⟩
  · exact hex_digits n c member

theorem hexPadded_word (width n : Nat) : ∀ c ∈ Text.hexPadded width n, isWordChar c = true := by
  have digit : ∀ d < 16, isWordChar d.digitChar = true := by decide
  intro c member
  obtain ⟨d, small, rfl⟩ := digit_of_mem_hexPadded member
  exact digit d small

theorem floatText_ne_nil {cs : List Char} (legal : Lexer.FloatText cs) : cs ≠ [] := by
  have whole {digits rest : List Char} (legal : Lexer.Digits digits) : digits ++ rest ≠ [] := fun none =>
    legal.1 (List.append_eq_nil_iff.mp none).1
  cases legal with
  | point digits | fraction digits | exponent digits | both digits => exact whole digits

theorem isIdentChar_toUpper {c : Char} (inside : Lexer.isIdentChar c = true) : Lexer.isIdentChar c.toUpper = true := by
  unfold Char.toUpper
  split
  · rename_i lower
    have low : 97 ≤ c.val.toNat := UInt32.le_iff_toNat_le.mp lower.1
    have high : c.val.toNat ≤ 122 := UInt32.le_iff_toNat_le.mp lower.2
    simp only [Lexer.isIdentChar, Char.isAlphanum, Bool.or_eq_true]
    refine .inl (.inl (Lexer.isAlpha_iff_range.mpr (.inl ?_)))
    have shifted : (c.val + ('A'.val - 'a'.val)).toNat = c.val.toNat - 32 := by
      rw [UInt32.toNat_add]
      have : ('A'.val - 'a'.val).toNat = 4294967264 := by decide
      omega
    change 65 ≤ (c.val + ('A'.val - 'a'.val)).toNat ∧ (c.val + ('A'.val - 'a'.val)).toNat ≤ 90
    omega
  · exact inside

theorem isWordChar_toUpper {c : Char} (word : isWordChar c = true) : isWordChar c.toUpper = true := by
  rw [isWordChar, Bool.or_eq_true] at word
  rcases word with inside | mark
  · exact isWordChar_of_ident (isIdentChar_toUpper inside)
  · have mark : c = '.' ∨ c = '+' ∨ c = '-' := by simpa using mark
    rcases mark with rfl | rfl | rfl <;> decide

theorem IsWord.exported {s : String} (word : IsWord s) : IsWord (exported s) := by
  intro c member
  rw [ViewLang.exported] at member
  split at member
  · cases member
  · rename_i first rest same
    rw [String.toList_ofList] at member
    rcases List.mem_cons.mp member with rfl | member
    · exact isWordChar_toUpper (word first (same ▸ List.mem_cons_self))
    · exact word c (same ▸ List.mem_cons_of_mem first member)

mutual

def TypeExpr.names : TypeExpr → List String
  | named name => [name]
  | generic name arg => name :: arg.names
  | chan _ elem => elem.names
  | slice elem => elem.names
  | pointer elem => elem.names
  | func params results => TypeExpr.namesEach params ++ TypeExpr.namesEach results

def TypeExpr.namesEach : List TypeExpr → List String
  | [] => []
  | t :: ts => t.names ++ TypeExpr.namesEach ts

end

def TypeExpr.Spelled (t : TypeExpr) : Prop := ∀ name ∈ t.names, IsWord name

namespace TypeExpr

theorem namesEach_eq (ts : List TypeExpr) : namesEach ts = ts.flatMap names := by
  induction ts with
  | nil => rw [namesEach, List.flatMap_nil]
  | cons t ts ih => rw [namesEach, ih, List.flatMap_cons]

@[simp] theorem spelled_named {name : String} : (named name).Spelled ↔ IsWord name := by
  simp [Spelled, names]

@[simp] theorem spelled_generic {name : String} {arg : TypeExpr} :
    (generic name arg).Spelled ↔ IsWord name ∧ arg.Spelled := by
  simp [Spelled, names]

@[simp] theorem spelled_chan {recvOnly : Bool} {elem : TypeExpr} : (chan recvOnly elem).Spelled ↔ elem.Spelled := by
  simp [Spelled, names]

@[simp] theorem spelled_slice {elem : TypeExpr} : (slice elem).Spelled ↔ elem.Spelled := by
  simp [Spelled, names]

@[simp] theorem spelled_pointer {elem : TypeExpr} : (pointer elem).Spelled ↔ elem.Spelled := by
  simp [Spelled, names]

@[simp] theorem spelled_func {params results : List TypeExpr} :
    (func params results).Spelled ↔ (∀ t ∈ params, t.Spelled) ∧ ∀ t ∈ results, t.Spelled := by
  simp only [Spelled, names, namesEach_eq, List.forall_mem_append, List.forall_mem_flatMap]

end TypeExpr

def AllWords (names : List Name) : Prop := ∀ n ∈ names, IsWord n.value

def Base.Spelled : Base → Prop
  | .name n => IsWord n.value
  | .operand _ => True

namespace Construct

@[simp] def Spelled : Construct → Prop
  | unit u => IsWord u.package.value
  | typeDef d => IsWord d.name.value
  | field f => IsWord f.name.value
  | component c => IsWord c.name.value
  | param p => IsWord p.name.value
  | type ty => ty.value.Spelled
  | varDecl d => AllWords d.names
  | loop (.range key value _) _ _ => AllWords (key.toList ++ value.toList)
  | element e => IsWord e.tag.value
  | nodeFor l => AllWords (l.key.toList ++ l.value.toList)
  | int t => IsWord t.value
  | float t => IsWord t.value
  | composite _ entries _ => ∀ e ∈ entries, AllWords e.key.toList
  | select base path _ => base.Spelled ∧ AllWords path
  | call base path _ _ => base.Spelled ∧ AllWords path
  | receive channel _ => IsWord channel.value
  | _ => True

def AllSpelled (c : Construct) : Prop := ∀ address d, c.at? address = some d → d.Spelled

theorem allSpelled_iff {c : Construct} : c.AllSpelled ↔ c.Spelled ∧ ∀ d ∈ c.children, d.AllSpelled := throughout_iff

theorem allSpelled_leaf {c : Construct} (leaf : c.children = []) : c.AllSpelled ↔ c.Spelled := by
  rw [allSpelled_iff, leaf]
  simp

theorem allSpelled_type {ty : Located TypeExpr} : (type ty).AllSpelled ↔ ty.value.Spelled := allSpelled_leaf rfl

theorem allSpelled_param {p : Param} : (param p).AllSpelled ↔ IsWord p.name.value ∧ p.ty.value.Spelled := by
  rw [allSpelled_iff]
  simp [allSpelled_type]

theorem allSpelled_field {f : Field} : (field f).AllSpelled ↔ IsWord f.name.value ∧ f.ty.value.Spelled := by
  rw [allSpelled_iff]
  simp [allSpelled_type]

theorem allSpelled_typeDef {d : TypeDef} :
    (typeDef d).AllSpelled ↔ IsWord d.name.value ∧ ∀ f ∈ d.fields, (field f).AllSpelled := by
  rw [allSpelled_iff]
  simp

theorem allSpelled_expr {e : Expr} :
    (expr e).AllSpelled ↔ (primary e.head).AllSpelled ∧ ∀ l ∈ e.tail, (primary l.operand).AllSpelled := by
  rw [allSpelled_iff]
  simp

/-- An operand has no words besides those of what it is. -/
theorem allSpelled_primary {p : Primary} : (primary p).AllSpelled ↔ p.inner.AllSpelled := by
  rw [allSpelled_iff]
  simp

theorem allSpelled_base {b : Base} :
    (b.Spelled ∧ ∀ c ∈ b.constructs, c.AllSpelled) ↔ match b with
      | .name n => IsWord n.value
      | .operand p => (primary p).AllSpelled := by
  cases b <;> simp [Base.Spelled, Base.constructs]

theorem allSpelled_template {t : Template} :
    (template t).AllSpelled ↔ ∀ f ∈ t.fragments, ∀ c ∈ f.constructs, c.AllSpelled := by
  rw [allSpelled_iff]
  simp only [children, Spelled, true_and, List.forall_mem_flatMap]

theorem allSpelled_templateLiteral {t : Template} : (templateLiteral t).AllSpelled ↔ (template t).AllSpelled := by
  rw [allSpelled_iff]
  simp

theorem allSpelled_composite {ty : Located TypeExpr} {entries : List Entry} {s : Span} :
    (composite ty entries s).AllSpelled ↔
      ty.value.Spelled ∧ ∀ e ∈ entries, AllWords e.key.toList ∧ (expr e.value).AllSpelled := by
  rw [allSpelled_iff]
  simp only [children, Spelled, List.forall_mem_cons, List.forall_mem_map, allSpelled_type]
  grind

theorem allSpelled_make {ty : Located TypeExpr} {args : List Expr} {s : Span} :
    (make ty args s).AllSpelled ↔ ty.value.Spelled ∧ ∀ e ∈ args, (expr e).AllSpelled := by
  rw [allSpelled_iff]
  simp [allSpelled_type]

theorem allSpelled_index {target : Primary} {i : Expr} {s : Span} :
    (index target i s).AllSpelled ↔ (primary target).AllSpelled ∧ (expr i).AllSpelled := by
  rw [allSpelled_iff]
  simp

theorem allSpelled_slice {target : Primary} {low high : Option Expr} {s : Span} :
    (slice target low high s).AllSpelled ↔
      (primary target).AllSpelled ∧ (∀ e ∈ low, (expr e).AllSpelled) ∧ ∀ e ∈ high, (expr e).AllSpelled := by
  rw [allSpelled_iff]
  simp only [children, Spelled, true_and, List.forall_mem_cons, List.forall_mem_append, List.forall_mem_map,
    Option.mem_toList, Option.mem_def]

theorem allSpelled_select {b : Base} {path : List Name} {s : Span} :
    (select b path s).AllSpelled ↔ (b.Spelled ∧ ∀ c ∈ b.constructs, c.AllSpelled) ∧ AllWords path := by
  rw [allSpelled_iff]
  simp only [children, Spelled]
  tauto

theorem allSpelled_call {b : Base} {path : List Name} {args : List Expr} {s : Span} :
    (call b path args s).AllSpelled ↔
      (b.Spelled ∧ ∀ c ∈ b.constructs, c.AllSpelled) ∧ AllWords path ∧ ∀ e ∈ args, (expr e).AllSpelled := by
  rw [allSpelled_iff]
  simp only [children, Spelled, List.forall_mem_append, List.forall_mem_map]
  tauto

theorem allSpelled_func {params : List Param} {results : List (Located TypeExpr)} {body : Block} {s : Span} :
    (func params results body s).AllSpelled ↔ (∀ p ∈ params, (param p).AllSpelled) ∧
      (∀ t ∈ results, t.value.Spelled) ∧ (block body).AllSpelled := by
  rw [allSpelled_iff]
  simp only [children, Spelled, true_and, List.forall_mem_append, List.forall_mem_map, List.forall_mem_singleton,
    allSpelled_type, and_assoc]

theorem allSpelled_unary {op : UnaryOp} {operand : Primary} {s : Span} :
    (unary op operand s).AllSpelled ↔ (primary operand).AllSpelled := by
  rw [allSpelled_iff]
  simp

theorem allSpelled_block {b : Block} : (block b).AllSpelled ↔ ∀ s ∈ b.stmts, (stmt s).AllSpelled := by
  rw [allSpelled_iff]
  simp

theorem allSpelled_stmt {s : Stmt} : (stmt s).AllSpelled ↔ s.inner.AllSpelled := by
  rw [allSpelled_iff]
  simp

theorem allSpelled_varDecl {d : VarDecl} :
    (varDecl d).AllSpelled ↔
      AllWords d.names ∧ (∀ t ∈ d.ty, t.value.Spelled) ∧ ∀ e ∈ d.values, (expr e).AllSpelled := by
  rw [allSpelled_iff]
  simp only [children, Spelled, List.forall_mem_append, List.forall_mem_map, Option.mem_toList, Option.mem_def,
    allSpelled_type]

theorem allSpelled_exprs {targets : List Expr} {s : Span} :
    (exprs targets s).AllSpelled ↔ ∀ e ∈ targets, (expr e).AllSpelled := by
  rw [allSpelled_iff]
  simp

theorem allSpelled_assign {targets values : List Expr} {op : Located AssignOp} {s : Span} :
    (assign targets op values s).AllSpelled ↔
      (∀ e ∈ targets, (expr e).AllSpelled) ∧ ∀ e ∈ values, (expr e).AllSpelled := by
  rw [allSpelled_iff]
  simp only [children, Spelled, true_and, List.forall_mem_append, List.forall_mem_map]

theorem allSpelled_send {channel value : Expr} {s : Span} :
    (send channel value s).AllSpelled ↔ (expr channel).AllSpelled ∧ (expr value).AllSpelled := by
  rw [allSpelled_iff]
  simp

theorem allSpelled_ret {values : List Expr} {s : Span} :
    (ret values s).AllSpelled ↔ ∀ e ∈ values, (expr e).AllSpelled := by
  rw [allSpelled_iff]
  simp

theorem allSpelled_cond {s : IfStmt} :
    (cond s).AllSpelled ↔ (∀ init ∈ s.init, (stmt (.simple init)).AllSpelled) ∧ (expr s.cond).AllSpelled ∧
      (block s.body).AllSpelled ∧ ∀ c ∈ s.otherwise.constructs, c.AllSpelled := by
  rw [allSpelled_iff]
  simp only [children, Spelled, true_and, List.forall_mem_append, List.forall_mem_map, List.forall_mem_cons,
    Option.mem_toList, Option.mem_def, List.not_mem_nil, false_imp_iff, implies_true, and_true, and_assoc]

def HeaderSpelled (h : LoopHeader) : Prop :=
  (loop h ⟨[], Span.none⟩ Span.none).Spelled ∧ ∀ c ∈ h.constructs, c.AllSpelled

@[simp] theorem headerSpelled_cond {e : Expr} : HeaderSpelled (.cond e) ↔ (expr e).AllSpelled := by
  simp [HeaderSpelled, LoopHeader.constructs]

@[simp] theorem headerSpelled_classic {init post : Option SimpleStmt} {test : Option Expr} :
    HeaderSpelled (.classic init test post) ↔ (∀ s ∈ init, (stmt (.simple s)).AllSpelled) ∧
      (∀ e ∈ test, (expr e).AllSpelled) ∧ ∀ s ∈ post, (stmt (.simple s)).AllSpelled := by
  simp only [HeaderSpelled, LoopHeader.constructs, Spelled, true_and, List.forall_mem_append, List.forall_mem_map,
    Option.mem_toList, Option.mem_def, and_assoc]

@[simp] theorem headerSpelled_range {key value : Option Name} {iterable : Expr} :
    HeaderSpelled (.range key value iterable) ↔
      AllWords (key.toList ++ value.toList) ∧ (expr iterable).AllSpelled := by
  simp [HeaderSpelled, LoopHeader.constructs]

theorem allSpelled_loop {header : LoopHeader} {body : Block} {s : Span} :
    (loop header body s).AllSpelled ↔ HeaderSpelled header ∧ (block body).AllSpelled := by
  rw [allSpelled_iff, HeaderSpelled]
  simp only [children, List.forall_mem_append, List.forall_mem_singleton, ← and_assoc]
  cases header <;> rfl

theorem allSpelled_node {n : Node} : (node n).AllSpelled ↔ n.inner.AllSpelled := by
  rw [allSpelled_iff]
  simp

theorem allSpelled_element {e : Element} :
    (element e).AllSpelled ↔ IsWord e.tag.value ∧ (∀ a ∈ e.args, (expr a.value).AllSpelled) ∧
      ∀ n ∈ e.children, (node n).AllSpelled := by
  have arg (a : Entry) : (elementArg a).AllSpelled ↔ (expr a.value).AllSpelled := by
    rw [allSpelled_iff]
    simp
  rw [allSpelled_iff]
  simp only [children, Spelled, List.forall_mem_append, List.forall_mem_map, arg]

theorem allSpelled_nodeIf {c : NodeIf} :
    (nodeIf c).AllSpelled ↔ (expr c.cond).AllSpelled ∧ (∀ n ∈ c.body, (node n).AllSpelled) ∧
      ∀ n ∈ c.otherwise, (node n).AllSpelled := by
  rw [allSpelled_iff]
  simp only [children, Spelled, true_and, List.forall_mem_cons, List.forall_mem_append, List.forall_mem_map]

theorem allSpelled_nodeFor {l : NodeFor} :
    (nodeFor l).AllSpelled ↔ AllWords (l.key.toList ++ l.value.toList) ∧ (expr l.iterable).AllSpelled ∧
      ∀ n ∈ l.children, (node n).AllSpelled := by
  rw [allSpelled_iff]
  simp only [children, Spelled, List.forall_mem_cons, List.forall_mem_map]

theorem allSpelled_body {b : Body} :
    (body b).AllSpelled ↔ (∀ d ∈ b.vars, (varDecl d).AllSpelled) ∧ (∀ s ∈ b.stmts, (stmt s).AllSpelled) ∧
      ∀ n ∈ b.nodes, (node n).AllSpelled := by
  rw [allSpelled_iff]
  simp only [children, Spelled, true_and, List.forall_mem_append, List.forall_mem_map, and_assoc]

theorem allSpelled_component {c : Component} :
    (component c).AllSpelled ↔ IsWord c.name.value ∧ (∀ p ∈ c.params, (param p).AllSpelled) ∧
      (∀ t ∈ c.results, t.value.Spelled) ∧ (body c.body).AllSpelled := by
  rw [allSpelled_iff]
  simp only [children, Spelled, List.forall_mem_append, List.forall_mem_map, List.forall_mem_singleton, allSpelled_type,
    and_assoc]

end Construct
end ViewLang
