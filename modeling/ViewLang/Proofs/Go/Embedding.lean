import Mathlib.Data.List.Nodup
import ViewLang.Proofs.Go.ChannelFields
import ViewLang.Proofs.Go.NodeScopes
import ViewLang.Proofs.Success

namespace ViewLang.Go

open Lexical (Locals)

structure Arg where
  entry : Entry
  place : Nat

namespace Arg

def name? (a : Arg) : Option String := a.entry.key.map (·.value)

def names (a : Arg) (p : Param) : Bool := a.name? == some p.name.value

end Arg

def placed (args : List Entry) : List Arg := args.zipIdx.map fun (entry, place) => ⟨entry, place⟩

def positionals (args : List Arg) : List Arg := args.filter (·.name?.isNone)

inductive Passed
  | value (a : Arg)
  | spread (a : Arg)
  | zero (ty : TypeExpr)

namespace Passed

def text (env : Env) (locals : Locals) (level : Nat) : Passed → String
  | value a => Lexical.expr env locals level a.entry.value
  | spread a => Lexical.expr env locals level a.entry.value ++ "..."
  | zero ty => "*new(" ++ Lexical.type env ty ++ ")"

def arg? : Passed → Option Arg
  | value a => some a
  | spread _ => none
  | zero _ => none

end Passed

/-- What is passed to the constructor for parameters, if these positional arguments are left. -/
def constructorCall (args : List Arg) : List Arg → List Param → List Passed
  | _, [] => []
  | rest, p :: ps =>
    match args.find? (·.names p), p.variadic, rest with
    | some a, true, rest => .spread a :: constructorCall args rest ps
    | none, true, rest => rest.map .value ++ constructorCall args [] ps
    | some a, false, rest => .value a :: constructorCall args rest ps
    | none, false, a :: rest => .value a :: constructorCall args rest ps
    | none, false, [] => .zero p.ty.value :: constructorCall args [] ps

def optionCalls (params : List Param) : List Param → List Arg → List (Param × Arg)
  | _, [] => []
  | rest, a :: as =>
    match a.name?, rest with
    | some name, rest =>
      match params.find? (·.name.value == name) with
      | none => optionCalls params rest as
      | some p => (p, a) :: optionCalls params rest as
    | none, [] => optionCalls params [] as
    | none, p :: rest => (p, a) :: optionCalls params rest as

def optionText (env : Env) (locals : Locals) (level : Nat) (tag : String) : Param × Arg → String
  | (p, a) => tag ++ "With" ++ exported p.name.value ++ "(" ++ Lexical.expr env locals level a.entry.value ++ ")"

section

variable {env : Env} {locals : Locals} {level : Nat}

theorem placed_entries (args : List Entry) : (placed args).map (·.entry) = args := by
  rw [placed, List.map_map]
  exact List.zipIdx_map_fst 0 args

theorem placed_positionals (args : List Entry) :
    (positionals (placed args)).map (·.entry) = args.filter (·.key.isNone) := by
  conv_rhs => rw [← placed_entries args, List.filter_map]
  rw [positionals]
  congr 2
  funext a
  rw [Arg.name?, Option.isNone_map]
  rfl

theorem namedArg?_entries (args : List Arg) (p : Param) :
    Lower.namedArg? (args.map (·.entry)) p = (args.find? (·.names p)).map (·.entry) := by
  rw [Lower.namedArg?, List.find?_map]
  rfl

theorem exprs_eq_map (es : List Expr) :
    Lexical.exprs env locals level es = es.map (Lexical.expr env locals level) := by
  induction es with
  | nil => rfl
  | cons e es ih => exact congrArg (_ :: ·) ih

theorem paramArgs_eq (args rest : List Arg) (ps : List Param) :
    Lexical.paramArgs env locals level (args.map (·.entry)) (rest.map (·.entry)) ps =
      (constructorCall args rest ps).map (·.text env locals level) := by
  induction ps generalizing rest with
  | nil => rfl
  | cons p ps ih =>
    have done : Lexical.paramArgs env locals level (args.map (·.entry)) [] ps = _ := ih []
    rw [Lexical.paramArgs.eq_def, constructorCall.eq_def]
    dsimp only
    rw [namedArg?_entries]
    cases args.find? (·.names p) with
    | some a =>
      cases p.variadic with
      | true => exact congrArg (_ :: ·) (ih rest)
      | false => exact congrArg (_ :: ·) (ih rest)
    | none =>
      cases p.variadic with
      | true =>
        change Lexical.exprs env locals level _ ++ Lexical.paramArgs env locals level _ [] ps = _
        rw [exprs_eq_map, List.map_append, ← done, List.map_map, List.map_map, List.map_map]
        rfl
      | false =>
        cases rest with
        | nil => exact congrArg (_ :: ·) done
        | cons a rest => exact congrArg (_ :: ·) (ih rest)

/-- Of a component that takes its parameters in order, the constructor is given what they take. -/
theorem embedArgs_inOrder {c : Component} {tag : String} (known : env.components.find? (·.name.value == tag) = some c)
    (renderable : c.isRenderable = true) (ordered : c.autoProps = false) (entries : List Entry) :
    Lexical.embedArgs env locals level tag entries =
      (constructorCall (placed entries) (positionals (placed entries)) c.params).map (·.text env locals level) := by
  rw [← paramArgs_eq, placed_entries, placed_positionals, Lexical.embedArgs, known]
  dsimp only
  rw [renderable, ordered]
  rfl

theorem optionArgs_eq (tag : String) (params rest : List Param) (args : List Arg) :
    Lexical.optionArgs env locals level tag params rest (args.map (·.entry)) =
      (optionCalls params rest args).map (optionText env locals level tag) := by
  induction args generalizing rest with
  | nil =>
    rw [List.map_nil, Lexical.optionArgs, optionCalls]
    rfl
  | cons a args ih =>
    obtain ⟨⟨key, value⟩, place⟩ := a
    cases key with
    | some name =>
      rw [List.map_cons, Lexical.optionArgs, optionCalls.eq_def]
      dsimp only [Arg.name?, Option.map_some]
      cases params.find? (·.name.value == name.value) with
      | none => exact ih rest
      | some p => exact congrArg (_ :: ·) (ih rest)
    | none =>
      cases rest with
      | nil =>
        rw [List.map_cons, Lexical.optionArgs, optionCalls.eq_def]
        exact ih []
      | cons p rest =>
        rw [List.map_cons, Lexical.optionArgs, optionCalls.eq_def]
        exact congrArg (_ :: ·) (ih rest)

end

inductive Bound
  | zero
  | one (a : Arg)
  | list (as : List Arg)
  | elements (a : Arg)

def Bound.ofOption : Option Arg → Bound
  | some a => one a
  | none => zero

def Bound.ofRest : List Passed → Bound
  | [.spread a] => elements a
  | rest => list (rest.filterMap Passed.arg?)

/-- What the `i`th parameter of a constructor is bound to. A variadic one takes the rest of the call. -/
def boundByPlace (call : List Passed) (i : Nat) (p : Param) : Bound :=
  if p.variadic then .ofRest (call.drop i) else .ofOption (call[i]? >>= Passed.arg?)

def optionsFor (options : List (Param × Arg)) (p : Param) : List Arg :=
  (options.filter fun option => exported option.1.name.value == exported p.name.value).map (·.2)

/-- What options bind a parameter to: the last one counts. For a variadic parameter it makes a list of its one
argument. -/
def boundByOption (options : List (Param × Arg)) (p : Param) : Bound :=
  let last := (optionsFor options p).getLast?
  if p.variadic then .list last.toList else .ofOption last

def unnamed (args : List Arg) (ps : List Param) : Nat := ps.countP fun p => !args.any (·.names p)

section

variable {args : List Arg} {params : List Param} {p : Param} {i : Nat}

theorem ofOption_inj {a b : Option Arg} : Bound.ofOption a = Bound.ofOption b ↔ a = b := by
  cases a <;> cases b <;> simp [Bound.ofOption]

theorem any_names : args.any (·.names p) = (args.find? (·.names p)).isSome := by
  rw [Bool.eq_iff_iff, List.any_eq_true, List.find?_isSome]

/-- A parameter that is not variadic takes the argument with its name, else the next positional one. -/
theorem constructorCall_single (rest : List Arg) (ps : List Param) (single : p.variadic = false) :
    constructorCall args rest (p :: ps) =
      ((args.find? (·.names p)).or rest.head?).elim (.zero p.ty.value) .value ::
        constructorCall args (rest.drop (unnamed args [p])) ps := by
  rw [constructorCall.eq_def, unnamed, List.countP_singleton, any_names]
  dsimp only
  rw [single]
  cases args.find? (·.names p) with
  | some a => rfl
  | none =>
    cases rest with
    | nil => rfl
    | cons a rest => rfl

theorem constructorCall_variadic (rest : List Arg) (several : p.variadic = true) :
    constructorCall args rest [p] =
      match args.find? (·.names p) with
      | some a => [.spread a]
      | none => rest.map .value := by
  rw [constructorCall.eq_def]
  dsimp only
  rw [several]
  cases args.find? (·.names p) with
  | some a => rfl
  | none => exact List.append_nil _

theorem ofRest_values (as : List Arg) : Bound.ofRest (as.map .value) = .list as := by
  have values : (as.map Passed.value).filterMap Passed.arg? = as := by
    rw [List.filterMap_map]
    exact List.filterMap_some
  rw [Bound.ofRest.eq_def]
  split
  · rename_i a single
    cases as <;> simp at single
  · rw [values]

/-- A constructor call goes on, behind parameters that are not variadic, with what they leave. -/
theorem constructorCall_drop (rest : List Arg) (ps : List Param) (i : Nat)
    (single : ∀ q ∈ ps.take i, q.variadic = false) :
    (constructorCall args rest ps).drop i =
      constructorCall args (rest.drop (unnamed args (ps.take i))) (ps.drop i) := by
  induction ps generalizing rest i with
  | nil => simp [constructorCall]
  | cons q qs ih =>
    cases i with
    | zero => simp [unnamed]
    | succ i =>
      rw [List.take_succ_cons, List.forall_mem_cons] at single
      have taken : unnamed args (q :: qs.take i) = unnamed args [q] + unnamed args (qs.take i) := by
        rw [unnamed, unnamed, unnamed, ← List.countP_append, List.singleton_append]
      rw [List.take_succ_cons, List.drop_succ_cons, constructorCall_single rest qs single.1, List.drop_succ_cons,
        ih _ i single.2, List.drop_drop, taken]

/-- The place of a parameter that is not variadic: the argument with its name, else the positional one that those before
it leave, else its zero value. -/
theorem constructorCall_getElem? (known : params[i]? = some p) (front : ∀ q ∈ params.take i, q.variadic = false)
    (single : p.variadic = false) :
    (constructorCall args (positionals args) params)[i]? =
      some (((args.find? (·.names p)).or (positionals args)[unnamed args (params.take i)]?).elim (.zero p.ty.value)
        .value) := by
  have split : params.drop i = p :: params.drop (i + 1) := by
    rw [List.drop_eq_getElem?_toList_append, known]
    rfl
  rw [← List.head?_drop, constructorCall_drop _ _ _ front, split, constructorCall_single _ _ single, List.head?_cons,
    List.head?_drop]

/-- From the place of a last parameter that is variadic on: all elements of the argument with its name, else all
positional arguments that are left. -/
theorem constructorCall_drop_last (known : params[i]? = some p) (front : ∀ q ∈ params.take i, q.variadic = false)
    (last : params.drop (i + 1) = []) (several : p.variadic = true) :
    (constructorCall args (positionals args) params).drop i =
      match args.find? (·.names p) with
      | some a => [.spread a]
      | none => ((positionals args).drop (unnamed args (params.take i))).map .value := by
  have split : params.drop i = [p] := by
    rw [List.drop_eq_getElem?_toList_append, known, last]
    rfl
  rw [constructorCall_drop _ _ _ front, split, constructorCall_variadic _ several]

/-- What a constructor binds a parameter to that is not variadic. -/
theorem boundByPlace_single (known : params[i]? = some p) (front : ∀ q ∈ params.take i, q.variadic = false)
    (single : p.variadic = false) :
    boundByPlace (constructorCall args (positionals args) params) i p =
      .ofOption ((args.find? (·.names p)).or (positionals args)[unnamed args (params.take i)]?) := by
  rw [boundByPlace, if_neg (by simp [single]), constructorCall_getElem? known front single]
  cases (args.find? (·.names p)).or (positionals args)[unnamed args (params.take i)]? with
  | some a => rfl
  | none => rfl

/-- What a constructor binds its last parameter to if that is variadic. -/
theorem boundByPlace_variadic (known : params[i]? = some p) (front : ∀ q ∈ params.take i, q.variadic = false)
    (last : params.drop (i + 1) = []) (several : p.variadic = true) :
    boundByPlace (constructorCall args (positionals args) params) i p =
      match args.find? (·.names p) with
      | some a => .elements a
      | none => .list ((positionals args).drop (unnamed args (params.take i))) := by
  rw [boundByPlace, if_pos several, constructorCall_drop_last known front last several]
  cases args.find? (·.names p) with
  | some a => rfl
  | none => exact ofRest_values _

theorem optionsFor_append (front back : List (Param × Arg)) (p : Param) :
    optionsFor (front ++ back) p = optionsFor front p ++ optionsFor back p := by
  rw [optionsFor, List.filter_append, List.map_append]
  rfl

theorem optionsFor_cons (q : Param) (a : Arg) (options : List (Param × Arg)) (p : Param) :
    optionsFor ((q, a) :: options) p =
      if exported q.name.value = exported p.name.value then a :: optionsFor options p else optionsFor options p := by
  rw [optionsFor, List.filter_cons]
  split_ifs with same other other <;> simp_all [optionsFor]

theorem optionCalls_named (rest : List Param) {a : Arg} {name : String} (named : a.name? = some name)
    (as : List Arg) :
    optionCalls params rest (a :: as) =
      ((params.find? (·.name.value == name)).map (·, a)).toList ++ optionCalls params rest as := by
  rw [optionCalls.eq_def]
  dsimp only
  rw [named]
  dsimp only
  cases params.find? (·.name.value == name) with
  | none => rfl
  | some q => rfl

theorem optionCalls_positional (rest : List Param) {a : Arg} (nameless : a.name? = none) (as : List Arg) :
    optionCalls params rest (a :: as) = (rest.head?.map (·, a)).toList ++ optionCalls params rest.tail as := by
  rw [optionCalls.eq_def]
  dsimp only
  rw [nameless]
  cases rest with
  | nil => rfl
  | cons q rest => rfl

theorem positionals_named {a : Arg} {name : String} (named : a.name? = some name) (as : List Arg) :
    positionals (a :: as) = positionals as :=
  List.filter_cons_of_neg (by simp [named])

theorem positionals_positional {a : Arg} (nameless : a.name? = none) (as : List Arg) :
    positionals (a :: as) = a :: positionals as :=
  List.filter_cons_of_pos (by simp [nameless])

theorem optionCalls_append (rest : List Param) (before behind : List Arg) :
    optionCalls params rest (before ++ behind) =
      optionCalls params rest before ++ optionCalls params (rest.drop (positionals before).length) behind := by
  induction before generalizing rest with
  | nil =>
    rw [optionCalls]
    rfl
  | cons a before ih =>
    rw [List.cons_append]
    cases named : a.name? with
    | some name =>
      rw [optionCalls_named rest named, optionCalls_named rest named, positionals_named named, ih, List.append_assoc]
    | none =>
      rw [optionCalls_positional rest named, optionCalls_positional rest named, positionals_positional named, ih,
        List.append_assoc, List.length_cons, List.drop_tail]

theorem optionCalls_args (rest : List Param) (args : List Arg) :
    ((optionCalls params rest args).map (·.2)).Sublist args := by
  induction args generalizing rest with
  | nil =>
    rw [optionCalls]
    exact .slnil
  | cons a args ih =>
    have step (target : Option Param) (others : List (Param × Arg)) (later : (others.map (·.2)).Sublist args) :
        (((target.map (·, a)).toList ++ others).map (·.2)).Sublist (a :: args) := by
      cases target with
      | none => exact later.cons a
      | some q => exact later.cons_cons a
    cases named : a.name? with
    | some name =>
      rw [optionCalls_named rest named]
      exact step _ _ (ih rest)
    | none =>
      rw [optionCalls_positional rest named]
      exact step _ _ (ih rest.tail)

theorem optionsFor_args (rest : List Param) (args : List Arg) (p : Param) :
    (optionsFor (optionCalls params rest args) p).Sublist args :=
  (List.filter_sublist.map _).trans (optionCalls_args rest args)

theorem optionsFor_other {target : Option Param} (other : ∀ q ∈ target, exported q.name.value ≠ exported p.name.value)
    (a : Arg) : optionsFor (target.map (·, a)).toList p = [] := by
  cases target with
  | none => rfl
  | some q =>
    rw [Option.map_some, Option.toList_some, optionsFor_cons, if_neg (other q rfl)]
    rfl

variable (distinct : (params.map fun p => exported p.name.value).Nodup)

include distinct

theorem exported_inj {q : Param} (known : p ∈ params) (other : q ∈ params)
    (same : exported q.name.value = exported p.name.value) : q = p :=
  List.inj_on_of_nodup_map distinct other known same

theorem find?_name (known : p ∈ params) : params.find? (·.name.value == p.name.value) = some p := by
  have names : (params.map (·.name.value)).Nodup := by
    apply List.Nodup.of_map exported
    rw [List.map_map]
    exact distinct
  exact find?_key names known

/-- A parameter in another place has another property. -/
theorem exported_ne_of_place (known : params[i]? = some p) {m : Nat} (other : m ≠ i) :
    ∀ q ∈ params[m]?, exported q.name.value ≠ exported p.name.value := by
  intro q found same
  obtain rfl := exported_inj distinct (List.mem_of_getElem? known) (List.mem_of_getElem? found) same
  have bound : m < params.length := (List.getElem?_eq_some_iff.mp found).1
  exact other ((List.getElem?_inj bound distinct.of_map).mp (found.trans known.symm))

/-- A parameter of another name has another property. -/
theorem exported_ne_of_name (known : p ∈ params) {name : String} (other : name ≠ p.name.value) :
    ∀ q ∈ params.find? (·.name.value == name), exported q.name.value ≠ exported p.name.value := by
  intro q found same
  obtain rfl := exported_inj distinct known (List.mem_of_find?_eq_some found) same
  have hit := List.find?_some found
  rw [beq_iff_eq] at hit
  exact other hit.symm

/-- An argument with the name of a parameter sets its property. -/
theorem mem_optionsFor (known : p ∈ params) {a : Arg} (member : a ∈ args) (named : a.names p = true)
    (rest : List Param) : a ∈ optionsFor (optionCalls params rest args) p := by
  obtain ⟨before, behind, rfl⟩ := List.append_of_mem member
  rw [Arg.names, beq_iff_eq] at named
  rw [optionCalls_append, optionsFor_append, optionCalls_named _ named, find?_name distinct known]
  apply List.mem_append_right
  rw [Option.map_some, Option.toList_some, List.singleton_append, optionsFor_cons, if_pos rfl]
  exact List.mem_cons_self

/-- Where no argument has the parameter's name, its property is set by the positional argument in its place. -/
theorem optionsFor_unnamed (known : params[i]? = some p) (nameless : ∀ a ∈ args, a.names p = false) (m : Nat) :
    optionsFor (optionCalls params (params.drop m) args) p =
      if m ≤ i then ((positionals args)[i - m]?).toList else [] := by
  have inside : p ∈ params := List.mem_of_getElem? known
  induction args generalizing m with
  | nil =>
    rw [optionCalls]
    split_ifs <;> rfl
  | cons a args ih =>
    obtain ⟨other, nameless⟩ := List.forall_mem_cons.mp nameless
    have later := ih nameless
    cases named : a.name? with
    | some name =>
      have different : name ≠ p.name.value := by
        rintro rfl
        simp [Arg.names, named] at other
      rw [optionCalls_named _ named, positionals_named named, optionsFor_append,
        optionsFor_other (exported_ne_of_name distinct inside different), later]
      rfl
    | none =>
      rw [optionCalls_positional _ named, positionals_positional named, optionsFor_append, List.head?_drop,
        List.tail_drop, later]
      rcases Nat.lt_trichotomy m i with before | rfl | behind
      · rw [optionsFor_other (exported_ne_of_place distinct known (Nat.ne_of_lt before)),
          if_pos (Nat.succ_le_of_lt before), if_pos (Nat.le_of_lt before)]
        have shift : i - m = i - (m + 1) + 1 := by omega
        rw [shift, List.getElem?_cons_succ]
        rfl
      · rw [known, Option.map_some, Option.toList_some, optionsFor_cons, if_pos rfl, if_neg (Nat.not_succ_le_self m),
          if_pos (Nat.le_refl m), Nat.sub_self]
        rfl
      · rw [optionsFor_other (exported_ne_of_place distinct known (Nat.ne_of_gt behind)), if_neg (by omega),
          if_neg (by omega)]
        rfl

/-- Which arguments leave a property alone: none has the parameter's name, and no positional one is in its place. -/
theorem optionsFor_eq_nil_iff (known : params[i]? = some p) (m : Nat) :
    optionsFor (optionCalls params (params.drop m) args) p = [] ↔
      (∀ a ∈ args, a.names p = false) ∧ (i < m ∨ m + (positionals args).length ≤ i) := by
  constructor
  · intro untouched
    have nameless : ∀ a ∈ args, a.names p = false := by
      intro a member
      by_contra named
      rw [Bool.not_eq_false] at named
      have set := mem_optionsFor distinct (List.mem_of_getElem? known) member named (params.drop m)
      rw [untouched] at set
      cases set
    refine ⟨nameless, ?_⟩
    rw [optionsFor_unnamed distinct known nameless] at untouched
    split_ifs at untouched with le
    · rw [Option.toList_eq_nil_iff, List.getElem?_eq_none_iff] at untouched
      omega
    · omega
  · rintro ⟨nameless, outside⟩
    rw [optionsFor_unnamed distinct known nameless]
    split_ifs with le
    · rw [Option.toList_eq_nil_iff, List.getElem?_eq_none_iff]
      omega
    · rfl

end

/-- When both ways bind the `i`th parameter alike. Without an argument of its name: it takes the positional argument in
its own place, because no parameter before it is named, and at most that one if it is variadic; or positional arguments
do not reach it at all. With an argument of its name: that is the only one, the parameter is not variadic, and no
positional argument in its place comes later. -/
inductive BindsAlike (params : List Param) (args : List Arg) (i : Nat) (p : Param) : Prop
  | inPlace (nameless : ∀ a ∈ args, a.names p = false)
    (front : ∀ q ∈ params.take i, ∀ a ∈ args, a.names q = false)
    (fits : p.variadic = true → (positionals args).length ≤ i + 1)
  | unreached (nameless : ∀ a ∈ args, a.names p = false)
    (few : (positionals args).length ≤ unnamed args (params.take i))
  | byName (before : List Arg) (a : Arg) (behind : List Arg) (split : args = before ++ a :: behind)
    (named : a.names p = true) (once : ∀ b ∈ before ++ behind, b.names p = false) (single : p.variadic = false)
    (last : i < (positionals before).length ∨ (positionals args).length ≤ i)

section

variable {args : List Arg} {params : List Param} {p : Param} {i : Nat}

theorem unnamed_le (args : List Arg) (params : List Param) (i : Nat) : unnamed args (params.take i) ≤ i :=
  Nat.le_trans List.countP_le_length (List.length_take_le i params)

theorem unnamed_eq_iff (known : params[i]? = some p) :
    unnamed args (params.take i) = i ↔ ∀ q ∈ params.take i, ∀ a ∈ args, a.names q = false := by
  have bound : i < params.length := (List.getElem?_eq_some_iff.mp known).1
  have all : unnamed args (params.take i) = (params.take i).length ↔ _ := List.countP_eq_length
  rw [List.length_take_of_le (Nat.le_of_lt bound)] at all
  rw [all]
  simp

/-- Two places of a list without repetition hold the same only if they are one, or both lie behind its end. -/
theorem getElem?_eq_iff {α : Type} {xs : List α} (nodup : xs.Nodup) {j i : Nat} (le : j ≤ i) :
    xs[j]? = xs[i]? ↔ j = i ∨ xs.length ≤ j := by
  by_cases inside : j < xs.length
  · rw [List.getElem?_inj inside nodup, or_iff_left (Nat.not_le.mpr inside)]
  · have outside : xs.length ≤ j := Nat.le_of_not_lt inside
    rw [List.getElem?_eq_none outside, List.getElem?_eq_none (Nat.le_trans outside le)]
    exact iff_of_true rfl (.inr outside)

theorem drop_eq_iff {α : Type} {xs : List α} (nodup : xs.Nodup) {j i : Nat} (le : j ≤ i) :
    xs.drop j = xs[i]?.toList ↔ j = i ∧ xs.length ≤ i + 1 ∨ xs.length ≤ j := by
  by_cases inside : j < xs.length
  · have same : xs[i]? = some (xs[j]) ↔ j = i := by
      rw [← List.getElem?_eq_getElem inside, eq_comm, List.getElem?_inj inside nodup]
    rw [or_iff_left (Nat.not_le.mpr inside), List.drop_eq_getElem_cons inside]
    constructor
    · intro shown
      cases found : xs[i]? with
      | none =>
        rw [found] at shown
        cases shown
      | some x =>
        rw [found] at shown
        obtain ⟨first, short⟩ := List.cons.inj shown
        obtain rfl := same.mp (found.trans (congrArg some first.symm))
        exact ⟨rfl, List.drop_eq_nil_iff.mp short⟩
    · rintro ⟨rfl, short⟩
      rw [List.drop_eq_nil_of_le short, List.getElem?_eq_getElem inside]
      rfl
  · have outside : xs.length ≤ j := Nat.le_of_not_lt inside
    rw [List.drop_eq_nil_of_le outside, List.getElem?_eq_none (Nat.le_trans outside le)]
    exact iff_of_true rfl (.inr outside)

/-- The last of a list is an element that does not come again exactly if nothing comes behind it. -/
theorem getLast?_eq_iff {α : Type} {front behind : List α} {a : α} (once : a ∉ behind) :
    (front ++ a :: behind).getLast? = some a ↔ behind = [] := by
  rcases List.eq_nil_or_concat behind with rfl | ⟨middle, last, rfl⟩
  · rw [List.getLast?_concat]
    exact iff_of_true rfl rfl
  · rw [List.concat_eq_append] at once ⊢
    have ending : front ++ a :: (middle ++ [last]) = (front ++ a :: middle) ++ [last] := by simp
    rw [ending, List.getLast?_concat]
    refine iff_of_false (fun same => ?_) (List.concat_ne_nil last middle)
    rw [Option.some.inj same] at once
    exact once (List.mem_append_right _ (List.mem_singleton_self a))

variable (known : params[i]? = some p) (distinct : (params.map fun p => exported p.name.value).Nodup)
  (nodup : args.Nodup) (front : ∀ q ∈ params.take i, q.variadic = false)
  (last : p.variadic = true → params.drop (i + 1) = [])

include known distinct nodup front last

/-- Both ways for a parameter that no argument names. -/
theorem bound_nameless_iff (nameless : ∀ a ∈ args, a.names p = false) :
    boundByPlace (constructorCall args (positionals args) params) i p =
        boundByOption (optionCalls params params args) p ↔
      unnamed args (params.take i) = i ∧ (p.variadic = true → (positionals args).length ≤ i + 1) ∨
        (positionals args).length ≤ unnamed args (params.take i) := by
  have absent : args.find? (·.names p) = none := by
    rw [List.find?_eq_none]
    intro a member
    rw [nameless a member]
    exact Bool.false_ne_true
  have options : (optionsFor (optionCalls params params args) p).getLast? = (positionals args)[i]? := by
    have set := optionsFor_unnamed distinct known nameless 0
    rw [List.drop_zero, if_pos (Nat.zero_le i), Nat.sub_zero] at set
    rw [set]
    cases (positionals args)[i]? <;> rfl
  have apart : (positionals args).Nodup := nodup.filter _
  rw [boundByOption, options]
  cases several : p.variadic with
  | false =>
    rw [boundByPlace_single known front several, absent, Option.none_or, if_neg Bool.false_ne_true, ofOption_inj,
      getElem?_eq_iff apart (unnamed_le args params i)]
    simp
  | true =>
    rw [boundByPlace_variadic known front (last several) several, absent, if_pos rfl, Bound.list.injEq,
      drop_eq_iff apart (unnamed_le args params i)]
    simp

/-- Both ways for a parameter that an argument names, from the first such argument on. -/
theorem bound_named_iff {before behind : List Arg} {a : Arg} (split : args = before ++ a :: behind)
    (named : a.names p = true) (first : ∀ b ∈ before, b.names p = false) :
    boundByPlace (constructorCall args (positionals args) params) i p =
        boundByOption (optionCalls params params args) p ↔
      p.variadic = false ∧ (∀ b ∈ behind, b.names p = false) ∧
        (i < (positionals before).length ∨ (positionals args).length ≤ i) := by
  have inside : p ∈ params := List.mem_of_getElem? known
  have name : a.name? = some p.name.value := by simpa [Arg.names] using named
  have found : args.find? (·.names p) = some a := by
    have absent : before.find? (·.names p) = none := by simpa using first
    rw [split, List.find?_append, absent, Option.none_or]
    exact List.find?_cons_of_pos named
  have length : (positionals args).length = (positionals before).length + (positionals behind).length := by
    rw [split, positionals, List.filter_append, List.length_append]
    exact congrArg (_ + ·.length) (positionals_named name behind)
  -- The argument sets the property, and what sets it later comes from behind it.
  let later := optionsFor (optionCalls params (params.drop (positionals before).length) behind) p
  have options : optionsFor (optionCalls params params args) p =
      optionsFor (optionCalls params params before) p ++ a :: later := by
    rw [split, optionCalls_append, optionsFor_append, optionCalls_named _ name, find?_name distinct inside,
      Option.map_some, Option.toList_some, List.singleton_append, optionsFor_cons, if_pos rfl]
  have fresh : a ∉ later := by
    intro again
    rw [split, List.nodup_append] at nodup
    have member : a ∈ behind := (optionsFor_args _ behind p).subset again
    exact (List.nodup_cons.mp nodup.2.1).1 member
  have none : later = [] ↔ _ := optionsFor_eq_nil_iff distinct known (positionals before).length
  rw [boundByOption, options]
  cases several : p.variadic with
  | false =>
    rw [boundByPlace_single known front several, found, Option.some_or, if_neg Bool.false_ne_true, ofOption_inj,
      eq_comm, getLast?_eq_iff fresh, none, length]
    simp
  | true =>
    rw [boundByPlace_variadic known front (last several) several, found, if_pos rfl]
    simp

/-- Both ways bind a parameter alike exactly under the conditions of `BindsAlike`. -/
theorem bound_alike_iff :
    boundByPlace (constructorCall args (positionals args) params) i p =
        boundByOption (optionCalls params params args) p ↔ BindsAlike params args i p := by
  cases found : args.find? (·.names p) with
  | none =>
    have nameless : ∀ a ∈ args, a.names p = false := by
      intro a member
      rw [← Bool.not_eq_true]
      exact List.find?_eq_none.mp found a member
    rw [bound_nameless_iff known distinct nodup front last nameless, unnamed_eq_iff known]
    constructor
    · rintro (⟨unbroken, fits⟩ | few)
      · exact .inPlace nameless unbroken fits
      · exact .unreached nameless few
    · rintro (⟨-, unbroken, fits⟩ | ⟨-, few⟩ | ⟨before, a, behind, split, named⟩)
      · exact .inl ⟨unbroken, fits⟩
      · exact .inr few
      · have member : a ∈ args := by
          rw [split]
          exact List.mem_append_right _ List.mem_cons_self
        rw [nameless a member] at named
        cases named
  | some a =>
    obtain ⟨named, before, behind, split, others⟩ := List.find?_eq_some_iff_append.mp found
    have first : ∀ b ∈ before, b.names p = false := by simpa using others
    have member : a ∈ args := List.mem_of_find?_eq_some found
    constructor
    · intro alike
      obtain ⟨single, once, late⟩ := (bound_named_iff known distinct nodup front last split named first).mp alike
      exact .byName before a behind split named (List.forall_mem_append.mpr ⟨first, once⟩) single late
    · rintro (⟨nameless, -⟩ | ⟨nameless, -⟩ | ⟨before, a, behind, split, named, once, single, late⟩)
      · rw [nameless a member] at named
        cases named
      · rw [nameless a member] at named
        cases named
      · obtain ⟨first, others⟩ := List.forall_mem_append.mp once
        exact (bound_named_iff known distinct nodup front last split named first).mpr ⟨single, others, late⟩

end

theorem placed_nodup (args : List Entry) : (placed args).Nodup := by
  apply List.Nodup.of_map Arg.place
  have places : (placed args).map (·.place) = List.range' 0 args.length := by
    rw [placed, List.map_map]
    exact List.zipIdx_map_snd 0 args
  rw [places]
  exact List.nodup_range'

/-- Where only the last parameter may be variadic: those before a place are not, and a variadic one has none behind
it. -/
theorem variadic_places {params : List Param} (variadicLast : ∀ q ∈ params.dropLast, q.variadic = false) {i : Nat}
    {p : Param} (known : params[i]? = some p) :
    (∀ q ∈ params.take i, q.variadic = false) ∧ (p.variadic = true → params.drop (i + 1) = []) := by
  have bound : i < params.length := (List.getElem?_eq_some_iff.mp known).1
  rw [List.dropLast_eq_take] at variadicLast
  constructor
  · intro q member
    exact variadicLast q ((List.take_prefix_take_left (by omega)).subset member)
  · intro several
    by_contra more
    rw [List.drop_eq_nil_iff] at more
    have inside : p ∈ params.take (params.length - 1) := by
      apply List.mem_of_getElem? (i := i)
      rw [List.getElem?_take_of_lt (by omega), known]
    rw [variadicLast p inside] at several
    cases several

/-- An element that embeds a component passes its arguments to the constructor, or sets an option for each. If options
have distinct names and only the last parameter may be variadic, both ways bind a parameter to the same argument, or to
the same list of arguments, exactly under the conditions of `BindsAlike`. -/
theorem strategies_bind_alike_iff (c : Component) (tag : String) (entries : List Entry)
    (renderable : c.isRenderable = true) (distinct : (c.params.map fun p => exported p.name.value).Nodup)
    (variadicLast : ∀ q ∈ c.params.dropLast, q.variadic = false) :
    let args := placed entries
    let call := constructorCall args (positionals args) c.params
    let options := optionCalls c.params c.params args
    (∀ (env : Env) (locals : Locals) (level : Nat),
      env.components.find? (·.name.value == tag) = some { c with autoProps := false } →
        Runs (Lower.embedArgs env level tag entries) locals (call.map (·.text env locals level)) [] false) ∧
    (∀ (env : Env) (locals : Locals) (level : Nat),
      env.components.find? (·.name.value == tag) = some { c with autoProps := true } →
        Runs (Lower.embedArgs env level tag entries) locals (options.map (optionText env locals level tag)) [] false) ∧
    ∀ (i : Nat) (p : Param), c.params[i]? = some p →
      (boundByPlace call i p = boundByOption options p ↔ BindsAlike c.params args i p) := by
  intro args call options
  refine ⟨fun env locals level found => ?_, fun env locals level found => ?_, fun i p known => ?_⟩
  · have texts : Lexical.embedArgs env locals level tag entries = call.map (·.text env locals level) :=
      embedArgs_inOrder found renderable rfl entries
    rw [← texts]
    exact embedArgs_runs tag entries
  · have texts : Lexical.embedArgs env locals level tag entries = options.map (optionText env locals level tag) := by
      have shown : ({ c with autoProps := true } : Component).isRenderable = true := renderable
      rw [← optionArgs_eq, placed_entries, Lexical.embedArgs, found]
      dsimp only
      rw [shown]
      rfl
    rw [← texts]
    exact embedArgs_runs tag entries
  · obtain ⟨front, last⟩ := variadic_places variadicLast known
    exact bound_alike_iff known distinct (placed_nodup entries) front last

def pairFirst : Param := ⟨⟨"a", .none⟩, ⟨.named "int", .none⟩, false⟩

def pairSecond : Param := ⟨⟨"b", .none⟩, ⟨.named "int", .none⟩, false⟩

/-- A component with two parameters: `a int, b int`. -/
def pairOf (autoProps : Bool) : Component where
  name := ⟨"Pair", .none⟩
  params := [pairFirst, pairSecond]
  results := [⟨.named "Node", .none⟩]
  body := ⟨[], [], [.template ⟨[.text "x"], .none⟩]⟩
  autoProps := autoProps
  span := .none

def numberArg (name : Option String) (text : String) : Entry := ⟨name.map (⟨·, .none⟩), .single (.int ⟨text, .none⟩)⟩

/-- In `Pair(1, b: 2)` both ways bind `b` to `2`. -/
theorem strategies_bind_alike_iff_pair :
    let args := placed [numberArg none "1", numberArg (some "b") "2"]
    (pairOf false).isRenderable = true ∧ ((pairOf false).params.map fun p => exported p.name.value).Nodup ∧
    (∀ q ∈ (pairOf false).params.dropLast, q.variadic = false) ∧ (pairOf false).params[1]? = some pairSecond ∧
    boundByPlace (constructorCall args (positionals args) (pairOf false).params) 1 pairSecond =
      boundByOption (optionCalls (pairOf false).params (pairOf false).params args) pairSecond := by
  intro args
  have distinct : ((pairOf false).params.map fun p => exported p.name.value).Nodup := by decide
  have variadicLast : ∀ q ∈ (pairOf false).params.dropLast, q.variadic = false := by
    intro q member
    cases List.mem_singleton.mp member
    rfl
  obtain ⟨-, -, alike⟩ := strategies_bind_alike_iff (pairOf false) "Pair"
    [numberArg none "1", numberArg (some "b") "2"] rfl distinct variadicLast
  refine ⟨rfl, distinct, variadicLast, rfl, (alike 1 pairSecond rfl).mpr ?_⟩
  exact .byName [⟨numberArg none "1", 0⟩] ⟨numberArg (some "b") "2", 1⟩ [] rfl rfl (by decide) rfl (.inr (by decide))

/-- Of `Pair(a: 1, 2)` the constructor takes `2` for `b`, but options set `a` twice and `b` not at all. -/
theorem name_in_front_rebinds :
    let entries := [numberArg (some "a") "1", numberArg none "2"]
    let args := placed entries
    let call := constructorCall args (positionals args) (pairOf false).params
    let options := optionCalls (pairOf true).params (pairOf true).params args
    let unit (autoProps : Bool) : SourceUnit := ⟨⟨"main", .none⟩, [], [], [pairOf autoProps], [], [], []⟩
    answer (Lower.embedArgs (plainEnv "rt" (unit false)) 1 "Pair" entries) = ["1", "2"] ∧
    answer (Lower.embedArgs (plainEnv "rt" (unit true)) 1 "Pair" entries) = ["PairWithA(1)", "PairWithA(2)"] ∧
    (boundByPlace call 0 pairFirst = .one ⟨numberArg (some "a") "1", 0⟩ ∧
      boundByOption options pairFirst = .one ⟨numberArg none "2", 1⟩) ∧
    (boundByPlace call 1 pairSecond = .one ⟨numberArg none "2", 1⟩ ∧ boundByOption options pairSecond = .zero) ∧
    boundByPlace call 1 pairSecond ≠ boundByOption options pairSecond := by
  refine ⟨by decide +kernel, by decide +kernel, ⟨rfl, rfl⟩, ⟨rfl, rfl⟩, nofun⟩

end ViewLang.Go
