import ViewLang.Proofs.Go.Lexical
import ViewLang.Proofs.Go.Quoting

namespace ViewLang

def Fragment.expr? : Fragment → Option Expr
  | .text _ => none
  | .interp e => some e

def Fragment.ownText : Fragment → String
  | .text s => s
  | .interp _ => ""

def Template.values (t : Template) : List Expr := t.fragments.filterMap Fragment.expr?

namespace Go.Formatting

open Literal (bytes bytes_eq unquote? literal?)
open Lower (formatText)

def percent : UInt8 := 0x25

def verb : UInt8 := 0x76

/-- What `fmt.Sprintf` prints, given its format and what `%v` makes of each argument. A doubled percent sign stands for
one and `%v` for the next argument. Nothing for other verbs, and nothing if an argument is missing or left over. -/
def sprintf? : List UInt8 → List (List UInt8) → Option (List UInt8)
  | [], [] => some []
  | [], _ :: _ => none
  | b :: format, args =>
    if b = percent then
      match format with
      | [] => none
      | kind :: format =>
        if kind = percent then (sprintf? format args).map (percent :: ·)
        else if kind = verb then
          match args with
          | [] => none
          | arg :: args => (sprintf? format args).map (arg ++ ·)
        else none
    else (sprintf? format args).map (b :: ·)

def woven : List Fragment → List (List UInt8) → List UInt8
  | [], _ => []
  | .text s :: fs, values => bytes s ++ woven fs values
  | .interp _ :: fs, values => values.headD [] ++ woven fs values.tail

def undoubled : List Char → List Char
  | [] => []
  | [c] => [c]
  | c :: d :: cs => if c = '%' ∧ d = '%' then '%' :: undoubled cs else c :: undoubled (d :: cs)

def doubled (c : Char) : List Char := if c = '%' then ['%', '%'] else [c]

theorem formatText_toList (s : String) : (formatText s).toList = s.toList.flatMap doubled := by
  rw [formatText, String.toList_ofList]
  rfl

theorem undoubled_cons {c : Char} (other : c ≠ '%') (cs : List Char) : undoubled (c :: cs) = c :: undoubled cs := by
  cases cs with
  | nil => rfl
  | cons d cs => rw [undoubled, if_neg fun both => other both.1]

theorem undoubled_doubled (cs : List Char) : undoubled (cs.flatMap doubled) = cs := by
  induction cs with
  | nil => rfl
  | cons c cs ih =>
    rw [List.flatMap_cons, doubled]
    split
    · rename_i same
      rw [List.cons_append, List.cons_append, undoubled, if_pos ⟨rfl, rfl⟩, List.nil_append, ih, same]
    · rename_i other
      rw [List.singleton_append, undoubled_cons other, ih]

theorem percent_not_mem {c : Char} (other : c ≠ '%') : percent ∉ String.utf8EncodeChar c := by
  refine Literal.ascii_not_mem (by decide) fun same => other (Char.toNat_inj.mp ?_)
  exact same

theorem sprintf?_other {b : UInt8} (other : b ≠ percent) (format : List UInt8) (args : List (List UInt8)) :
    sprintf? (b :: format) args = (sprintf? format args).map (b :: ·) := by
  rw [sprintf?.eq_def]
  exact if_neg other

theorem sprintf?_percent (format : List UInt8) (args : List (List UInt8)) :
    sprintf? (percent :: percent :: format) args = (sprintf? format args).map (percent :: ·) := by
  rw [sprintf?.eq_def]
  rfl

theorem sprintf?_verb (format : List UInt8) (args : List (List UInt8)) :
    sprintf? (percent :: verb :: format) args =
      args.head?.bind fun arg => (sprintf? format args.tail).map (arg ++ ·) := by
  rw [sprintf?.eq_def]
  cases args with
  | nil => rfl
  | cons arg args => rfl

theorem sprintf?_plain {bs : List UInt8} (plain : percent ∉ bs) (format : List UInt8) (args : List (List UInt8)) :
    sprintf? (bs ++ format) args = (sprintf? format args).map (bs ++ ·) := by
  induction bs with
  | nil => simp
  | cons b bs ih =>
    rw [List.mem_cons, not_or] at plain
    rw [List.cons_append, sprintf?_other (Ne.symm plain.1), ih plain.2, Option.map_map]
    rfl

theorem sprintf?_formatText (s : String) (format : List UInt8) (args : List (List UInt8)) :
    sprintf? (bytes (formatText s) ++ format) args = (sprintf? format args).map (bytes s ++ ·) := by
  have percents : ['%', '%'].flatMap String.utf8EncodeChar = [percent, percent] := by decide
  rw [bytes_eq, formatText_toList, bytes_eq]
  induction s.toList with
  | nil => simp
  | cons c cs ih =>
    rw [List.flatMap_cons, List.flatMap_append, List.append_assoc, List.flatMap_cons, doubled]
    split
    · rename_i same
      rw [percents, List.cons_append, List.cons_append, sprintf?_percent, List.nil_append, ih, Option.map_map, same]
      rfl
    · rename_i other
      rw [List.flatMap_singleton, sprintf?_plain (percent_not_mem other), ih, Option.map_map]
      simp [Function.comp_def]

/-- The format of a template takes one value for each interpolation and prints them between the texts. -/
theorem sprintf?_format (fs : List Fragment) (printed : List (List UInt8)) :
    sprintf? (bytes (Lexical.format fs)) printed =
      if printed.length = (fs.filterMap Fragment.expr?).length then some (woven fs printed) else none := by
  have verbs : bytes "%v" = [percent, verb] := by decide
  induction fs generalizing printed with
  | nil =>
    cases printed with
    | nil => rfl
    | cons value printed => rfl
  | cons f fs ih =>
    cases f with
    | text s =>
      rw [Lexical.format, Literal.bytes_append, sprintf?_formatText, ih, apply_ite (Option.map _)]
      rfl
    | interp e =>
      rw [Lexical.format, Literal.bytes_append, verbs, List.cons_append, List.cons_append, List.nil_append,
        sprintf?_verb]
      cases printed with
      | nil => simp [Fragment.expr?]
      | cons value printed =>
        rw [List.head?_cons, Option.bind_some, List.tail_cons, ih, apply_ite (Option.map _)]
        simp [Fragment.expr?, woven]

theorem exprs_cons (env : Env) (level : Nat) (e : Expr) (es : List Expr) (s : LowerState) :
    Lower.exprs env level (e :: es) s =
      let first := Lower.expr env level e s
      let others := Lower.exprs env level es first.2
      (first.1 :: others.1, others.2) := by
  rw [Lower.exprs]
  rfl

theorem exprs_length (env : Env) (level : Nat) (es : List Expr) (s : LowerState) :
    (Lower.exprs env level es s).1.length = es.length := by
  induction es generalizing s with
  | nil =>
    rw [Lower.exprs]
    rfl
  | cons e es ih => rw [exprs_cons, List.length_cons, ih, List.length_cons]

theorem exprs_isEmpty (env : Env) (level : Nat) (es : List Expr) (s : LowerState) :
    (Lower.exprs env level es s).1.isEmpty = es.isEmpty := by
  cases es with
  | nil =>
    rw [Lower.exprs]
    rfl
  | cons e es =>
    rw [exprs_cons]
    rfl

/-- The fragments are lowered to the format and to the values, lowered from left to right. -/
theorem fragments_lowered (env : Env) (level : Nat) (fs : List Fragment) (s : LowerState) :
    Lower.fragments env level fs s =
      let values := Lower.exprs env level (fs.filterMap Fragment.expr?) s
      ((Lexical.format fs, values.1), values.2) := by
  induction fs generalizing s with
  | nil =>
    rw [Lower.fragments, List.filterMap_nil, Lower.exprs]
    rfl
  | cons f fs ih =>
    cases f with
    | text t =>
      rw [Lower.fragments]
      change ((formatText t ++ (Lower.fragments env level fs s).1.1, _), _) = _
      rw [ih]
      rfl
    | interp e =>
      rw [Lower.fragments, show (Fragment.interp e :: fs).filterMap _ = e :: fs.filterMap _ from rfl, exprs_cons]
      change (("%v" ++ (Lower.fragments env level fs (Lower.expr env level e s).2).1.1, _), _) = _
      rw [ih]
      rfl

theorem bytes_join (fs : List Fragment) : bytes (String.join (fs.map Fragment.ownText)) = woven fs [] := by
  induction fs with
  | nil => rfl
  | cons f fs ih =>
    cases f with
    | text s => simp [Fragment.ownText, woven, ih]
    | interp e => simp [Fragment.ownText, woven, ih]

/-- Without interpolations, undoubling the percent signs of the format gives the texts. -/
theorem undoubled_format {fs : List Fragment} (plain : fs.filterMap Fragment.expr? = []) :
    String.ofList (undoubled (Lexical.format fs).toList) = String.join (fs.map Fragment.ownText) := by
  have texts : (Lexical.format fs).toList = (String.join (fs.map Fragment.ownText)).toList.flatMap doubled := by
    induction fs with
    | nil => rfl
    | cons f fs ih =>
      cases f with
      | text s => simp [Lexical.format, formatText_toList, Fragment.ownText, ih plain]
      | interp e => cases plain
  rw [texts, undoubled_doubled, String.ofList_toList]

theorem template_lowered (env : Env) (level : Nat) (t : Template) (s : LowerState) :
    (Lower.template env level t s).1 =
      if t.values.isEmpty then quote (String.join (t.fragments.map Fragment.ownText))
      else "fmt.Sprintf(" ++ quote (Lexical.format t.fragments) ++ ", " ++
        ", ".intercalate (Lower.exprs env level t.values s).1 ++ ")" := by
  have empty := exprs_isEmpty env level t.values s
  obtain ⟨fs, span⟩ := t
  rw [Lower.template]
  simp only [bind, StateT.bind, fragments_lowered]
  rw [Template.values] at empty ⊢
  rw [empty]
  split
  · refine congrArg (fun texts => quote (String.join texts)) (List.map_congr_left fun f _ => ?_)
    cases f with
    | text s => rfl
    | interp e => rfl
  · rfl

/-- What a generated template prints. Without interpolations it is the literal of the template's format with one percent
sign for every two, and means the texts. Otherwise it calls `fmt.Sprintf` with a format and the lowered values, and
prints the texts and the values in their order, when every value is used and none is missing. -/
theorem template_prints (env : Env) (level : Nat) (t : Template) (s : LowerState) :
    let text := (Lower.template env level t s).1
    let args := (Lower.exprs env level t.values s).1
    if t.values.isEmpty then
      text = quote (String.ofList (undoubled (Lexical.format t.fragments).toList)) ∧
        unquote? text = some (woven t.fragments [])
    else
      ∃ call format, text.toList = "fmt.Sprintf(".toList ++ call ∧
        literal? call = some (format, (", " ++ ", ".intercalate args ++ ")").toList) ∧
        args.length = t.values.length ∧
        ∀ printed, sprintf? format printed =
          if printed.length = args.length then some (woven t.fragments printed) else none := by
  have lowered := template_lowered env level t s
  have length := exprs_length env level t.values s
  dsimp only at lowered ⊢
  split
  · rename_i empty
    rw [if_pos empty] at lowered
    rw [lowered, undoubled_format (List.isEmpty_iff.mp empty), Literal.unquote?_quote, bytes_join]
    exact ⟨rfl, rfl⟩
  · rename_i interpolated
    rw [if_neg interpolated] at lowered
    refine ⟨_, _, ?_, Literal.literal?_quote (Lexical.format t.fragments) _, length, ?_⟩
    · rw [lowered]
      simp only [String.toList_append, List.append_assoc]
    · intro printed
      rw [length]
      exact sprintf?_format t.fragments printed

example : sprintf? (bytes "%v of 100%%") [bytes "7%"] = some (bytes "7% of 100%") := by decide

end Go.Formatting
end ViewLang
