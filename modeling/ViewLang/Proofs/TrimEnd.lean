import Mathlib.Data.List.TakeWhile
import ViewLang.Text.Blank

namespace ViewLang.Text

theorem trimEnd_append_blank (a : String) {b : String} (blank : b.toList.all isBlank = true) :
    trimEnd (a ++ b) = trimEnd a := by
  have none : b.toList.reverse.dropWhile isBlank = [] := by
    rw [List.dropWhile_eq_nil_iff]
    intro c member
    exact List.all_eq_true.mp blank c (List.mem_reverse.mp member)
  rw [trimEnd, String.toList_append, List.reverse_append, List.dropWhile_append, none]
  rfl

theorem trimEnd_append_shown (a : String) {b : String} (shown : b.toList.all isBlank = false) :
    trimEnd (a ++ b) = a ++ trimEnd b := by
  have some : (b.toList.reverse.dropWhile isBlank).isEmpty = false := by
    rw [List.isEmpty_eq_false_iff, ne_eq, List.dropWhile_eq_nil_iff]
    intro blank
    rw [← Bool.not_eq_true, List.all_eq_true] at shown
    exact shown fun c member => blank c (List.mem_reverse.mpr member)
  rw [trimEnd, trimEnd, String.toList_append, List.reverse_append, List.dropWhile_append, some]
  rw [if_neg Bool.false_ne_true, List.reverse_append, List.reverse_reverse, String.ofList_append, String.ofList_toList]

/-- A line that ends with a brace keeps its end, whatever stands behind it. -/
theorem trimEnd_closed (a b : String) : ∃ after, trimEnd (a ++ "\x7d\n" ++ b) ++ "\n" = a ++ "\x7d\n" ++ after := by
  cases blank : b.toList.all isBlank with
  | true =>
    have brace : "\x7d\n" = "\x7d" ++ "\n" := rfl
    have ended : ("\n" ++ b).toList.all isBlank = true := by
      rw [String.toList_append, List.all_append, blank]
      rfl
    refine ⟨"", ?_⟩
    rw [brace, ← String.append_assoc, String.append_assoc, trimEnd_append_blank _ ended,
      trimEnd_append_shown a (by decide), String.append_empty]
    rfl
  | false => exact ⟨trimEnd b ++ "\n", by rw [trimEnd_append_shown _ blank, String.append_assoc]⟩

end ViewLang.Text
