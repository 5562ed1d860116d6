import ViewLang.Go.Lower
import ViewLang.Proofs.Go.TypeText

namespace ViewLang

namespace TypeExpr

inductive Piece
  | bare (name : String)
  | sign (text : String)
deriving DecidableEq

namespace Piece

def text : Piece → String
  | bare name => name
  | sign s => s

/-- The piece with the runtime's name in front of `Node`. -/
def qualified (runtime : String) : Piece → Piece
  | bare name => bare (if name = "Node" then runtime ++ ".Node" else name)
  | sign s => sign s

def join (ps : List Piece) : String := String.join (ps.map text)

def separated (pss : List (List Piece)) : List Piece := [sign ", "].intercalate pss

/-- One result stands alone, several stand in parentheses. -/
def results : List (List Piece) → List Piece
  | [] => []
  | [ps] => sign " " :: ps
  | pss => sign " (" :: (separated pss ++ [sign ")"])

end Piece

mutual

def pieces : TypeExpr → List Piece
  | named name => [.bare name]
  | generic name arg => .sign name :: .sign "[" :: (arg.pieces ++ [.sign "]"])
  | chan true elem => .sign "<-chan " :: elem.pieces
  | chan false elem => .sign "chan " :: elem.pieces
  | slice elem => .sign "[]" :: elem.pieces
  | pointer elem => .sign "*" :: elem.pieces
  | func params results =>
    .sign "func(" :: (Piece.separated (piecesEach params) ++ .sign ")" :: Piece.results (piecesEach results))

def piecesEach : List TypeExpr → List (List Piece)
  | [] => []
  | t :: ts => t.pieces :: piecesEach ts

end

namespace Piece

theorem results_cons_cons (ps qs : List Piece) (pss : List (List Piece)) :
    results (ps :: qs :: pss) = sign " (" :: (separated (ps :: qs :: pss) ++ [sign ")"]) := rfl

@[simp] theorem join_nil : join [] = "" := rfl

@[simp] theorem join_cons (p : Piece) (ps : List Piece) : join (p :: ps) = p.text ++ join ps := String.join_cons

@[simp] theorem join_append (ps qs : List Piece) : join (ps ++ qs) = join ps ++ join qs := by
  rw [join, List.map_append, String.join_append]
  rfl

theorem separated_cons_cons (ps qs : List Piece) (pss : List (List Piece)) :
    separated (ps :: qs :: pss) = ps ++ sign ", " :: separated (qs :: pss) := by
  simp [separated, List.intercalate_cons_cons]

theorem join_separated (pss : List (List Piece)) : join (separated pss) = ", ".intercalate (pss.map join) := by
  induction pss with
  | nil => rfl
  | cons ps pss ih =>
    cases pss with
    | nil => simp [separated]
    | cons qs pss =>
      rw [separated_cons_cons, join_append, join_cons, ih]
      simp [String.intercalate_cons_cons, text, String.append_assoc]

theorem join_results (pss : List (List Piece)) : join (results pss) = resultSuffix (pss.map join) := by
  match pss with
  | [] => rfl
  | [ps] => exact join_cons _ _
  | ps :: qs :: pss =>
    have inside := join_separated (ps :: qs :: pss)
    rw [results_cons_cons, join_cons, join_append, inside]
    simp [resultSuffix, text, String.append_assoc]

theorem separated_map (f : Piece → Piece) (kept : ∀ s, f (sign s) = sign s) (pss : List (List Piece)) :
    (separated pss).map f = separated (pss.map (List.map f)) := by
  induction pss with
  | nil => rfl
  | cons ps pss ih =>
    cases pss with
    | nil => simp [separated]
    | cons qs pss =>
      rw [separated_cons_cons, List.map_append, List.map_cons, ih, kept]
      exact (separated_cons_cons _ _ _).symm

theorem results_map (f : Piece → Piece) (kept : ∀ s, f (sign s) = sign s) (pss : List (List Piece)) :
    (results pss).map f = results (pss.map (List.map f)) := by
  match pss with
  | [] => rfl
  | [ps] => simp [results, kept]
  | ps :: qs :: pss =>
    rw [results_cons_cons, List.map_cons, List.map_append, separated_map f kept, kept]
    simp only [List.map_cons, List.map_nil, kept]
    rfl

theorem mem_separated {name : String} {pss : List (List Piece)} :
    bare name ∈ separated pss ↔ bare name ∈ pss.flatten := by
  induction pss with
  | nil => simp [separated]
  | cons ps pss ih =>
    cases pss with
    | nil => simp [separated]
    | cons qs pss => simp [separated_cons_cons, ih]

theorem mem_results {name : String} {pss : List (List Piece)} :
    bare name ∈ results pss ↔ bare name ∈ pss.flatten := by
  match pss with
  | [] => simp [results]
  | [ps] => simp [results]
  | ps :: qs :: pss =>
    rw [results_cons_cons, List.mem_cons, List.mem_append, mem_separated]
    simp

/-- Every `Node` without an argument makes Go's text longer by the runtime's name and a point. -/
theorem length_join_qualified (runtime : String) (ps : List Piece) :
    (join (ps.map (qualified runtime))).length =
      (join ps).length + ps.count (bare "Node") * (runtime.length + 1) := by
  induction ps with
  | nil => simp
  | cons p ps ih =>
    rw [List.map_cons, join_cons, join_cons, String.length_append, String.length_append, ih, List.count_cons]
    by_cases node : p = bare "Node"
    · subst node
      have longer :
          ((bare "Node").qualified runtime).text.length = (bare "Node").text.length + (runtime.length + 1) := by
        rw [qualified, if_pos rfl, text, text, String.length_append]
        have name : "Node".length = 4 := by decide
        have behind : ".Node".length = 5 := by decide
        omega
      rw [longer, beq_self_eq_true, if_pos rfl, Nat.succ_mul]
      omega
    · have same : (p == bare "Node") = false := by simpa using node
      have kept : p.qualified runtime = p := by
        cases p with
        | sign s => rfl
        | bare name =>
          have other : name ≠ "Node" := fun same => node (congrArg bare same)
          rw [qualified, if_neg other]
      rw [kept, same]
      exact (Nat.add_assoc _ _ _).symm

/-- Go's text differs from the type's own exactly if something in it is the runtime's. -/
theorem join_qualified_eq_iff (runtime : String) (ps : List Piece) :
    join (ps.map (qualified runtime)) = join ps ↔ bare "Node" ∉ ps := by
  have length := length_join_qualified runtime ps
  constructor
  · intro same node
    rw [same] at length
    have some_node : 0 < ps.count (bare "Node") := List.count_pos_iff.mpr node
    have positive : 0 < ps.count (bare "Node") * (runtime.length + 1) := Nat.mul_pos some_node (Nat.succ_pos _)
    omega
  · intro none
    have kept : ps.map (qualified runtime) = ps := by
      refine (List.map_congr_left fun p member => ?_).trans (List.map_id ps)
      cases p with
      | sign s => rfl
      | bare name =>
        have other : name ≠ "Node" := fun same => none (same ▸ member)
        rw [qualified, if_neg other]
        rfl
    rw [kept]

end Piece

mutual

theorem join_pieces : (t : TypeExpr) → Piece.join t.pieces = t.render
  | named name => by simp [pieces, render, Piece.text]
  | generic name arg => by simp [pieces, render, Piece.text, join_pieces arg, String.append_assoc]
  | chan true elem => by simp [pieces, render, Piece.text, join_pieces elem]
  | chan false elem => by simp [pieces, render, Piece.text, join_pieces elem]
  | slice elem => by simp [pieces, render, Piece.text, join_pieces elem]
  | pointer elem => by simp [pieces, render, Piece.text, join_pieces elem]
  | func params results => by
    rw [pieces, render, ← join_piecesEach params, ← join_piecesEach results, ← Piece.join_separated,
      ← Piece.join_results]
    simp [Piece.text, String.append_assoc]

theorem join_piecesEach : (ts : List TypeExpr) → (piecesEach ts).map Piece.join = renderEach ts
  | [] => rfl
  | t :: ts => by rw [piecesEach, renderEach, List.map_cons, join_pieces t, join_piecesEach ts]

end

mutual

theorem pieces_qualified (runtime : String) :
    (t : TypeExpr) → (t.qualified runtime).pieces = t.pieces.map (Piece.qualified runtime)
  | named _ => rfl
  | generic name arg => by simp [qualified, pieces, Piece.qualified, pieces_qualified runtime arg]
  | chan true elem => by simp [qualified, pieces, Piece.qualified, pieces_qualified runtime elem]
  | chan false elem => by simp [qualified, pieces, Piece.qualified, pieces_qualified runtime elem]
  | slice elem => by simp [qualified, pieces, Piece.qualified, pieces_qualified runtime elem]
  | pointer elem => by simp [qualified, pieces, Piece.qualified, pieces_qualified runtime elem]
  | func params results => by
    rw [qualified, pieces, pieces, piecesEach_qualified runtime params, piecesEach_qualified runtime results,
      List.map_cons, List.map_append, List.map_cons, Piece.separated_map _ fun _ => rfl,
      Piece.results_map _ fun _ => rfl]
    rfl

theorem piecesEach_qualified (runtime : String) : (ts : List TypeExpr) →
    piecesEach (qualifiedEach runtime ts) = (piecesEach ts).map (List.map (Piece.qualified runtime))
  | [] => rfl
  | t :: ts => by
    rw [qualifiedEach, piecesEach, piecesEach, List.map_cons, pieces_qualified runtime t,
      piecesEach_qualified runtime ts]

end

end TypeExpr

namespace Go

open TypeExpr (Piece)

mutual

theorem type_uses (runtime : String) : (t : TypeExpr) → ((type runtime t).2 = true ↔ .bare "Node" ∈ t.pieces)
  | .named name => by
    rw [type, TypeExpr.pieces]
    split
    · rename_i node
      simp [node]
    · rename_i other
      simp [eq_comm, other]
  | .generic name arg => by
    rw [type, TypeExpr.pieces]
    simpa using type_uses runtime arg
  | .chan true elem => by
    rw [type, TypeExpr.pieces]
    simpa using type_uses runtime elem
  | .chan false elem => by
    rw [type, TypeExpr.pieces]
    simpa using type_uses runtime elem
  | .slice elem => by
    rw [type, TypeExpr.pieces]
    simpa using type_uses runtime elem
  | .pointer elem => by
    rw [type, TypeExpr.pieces]
    simpa using type_uses runtime elem
  | .func params results => by
    rw [type, TypeExpr.pieces, List.mem_cons, List.mem_append, List.mem_cons, Piece.mem_separated, Piece.mem_results,
      ← types_uses runtime params, ← types_uses runtime results]
    simp

theorem types_uses (runtime : String) : (ts : List TypeExpr) →
    ((types runtime ts).2 = true ↔ .bare "Node" ∈ (TypeExpr.piecesEach ts).flatten)
  | [] => by simp [types, TypeExpr.piecesEach]
  | t :: ts => by
    rw [types, TypeExpr.piecesEach, List.flatten_cons, List.mem_append, ← type_uses runtime t,
      ← types_uses runtime ts]
    exact Bool.or_eq_true_iff

end

theorem type_pieces (runtime : String) (t : TypeExpr) :
    (type runtime t).1 = Piece.join (t.pieces.map (Piece.qualified runtime)) := by
  rw [type_text, ← TypeExpr.join_pieces, TypeExpr.pieces_qualified]

theorem lower_type_run (env : Env) (t : TypeExpr) (s : LowerState) :
    (Lower.type env t).run s =
      ((type env.runtime t).1, if (type env.runtime t).2 then s.useRuntime else s) := by
  rw [Lower.type]
  obtain ⟨text, used⟩ := type env.runtime t
  cases used <;> rfl

/-- Go's text of a type is that of the type with the runtime's name in front of `Node`: of the pieces of the type's own
text, just the names `Node` without an argument are written in another way, and without such a name the two texts are
the same. That the runtime is used is noted exactly if there is such a name, and nothing else is. -/
theorem type_spelled (t : TypeExpr) :
    t.render = Piece.join t.pieces ∧
    (∀ runtime, (type runtime t).1 = (t.qualified runtime).render ∧
      (type runtime t).1 = Piece.join (t.pieces.map (Piece.qualified runtime)) ∧
      ((type runtime t).1 = t.render ↔ .bare "Node" ∉ t.pieces) ∧
      ((type runtime t).2 = true ↔ .bare "Node" ∈ t.pieces)) ∧
    ∀ (env : Env) (s : LowerState), (Lower.type env t).run s =
      ((type env.runtime t).1, if .bare "Node" ∈ t.pieces then s.useRuntime else s) := by
  have own := TypeExpr.join_pieces t
  refine ⟨own.symm, fun runtime => ⟨type_text runtime t, type_pieces runtime t, ?_, type_uses runtime t⟩,
    fun env s => ?_⟩
  · rw [type_pieces, ← own]
    exact Piece.join_qualified_eq_iff runtime t.pieces
  · rw [lower_type_run]
    simp only [type_uses]

example : type "ui" (.func [.slice (.named "Node"), .generic "Node" (.named "int")] [.named "Node", .named "error"]) =
    ("func([]ui.Node, Node[int]) (ui.Node, error)", true) := by decide +kernel

end Go
end ViewLang
