import ViewLang.Go.Literal

namespace ViewLang

mutual

/-- The type with the runtime's name in front of `Node`, unless an argument stands behind it. -/
def TypeExpr.qualified (runtime : String) : TypeExpr → TypeExpr
  | .named name => .named (if name = "Node" then runtime ++ ".Node" else name)
  | .generic name arg => .generic name (arg.qualified runtime)
  | .chan recvOnly elem => .chan recvOnly (elem.qualified runtime)
  | .slice elem => .slice (elem.qualified runtime)
  | .pointer elem => .pointer (elem.qualified runtime)
  | .func params results =>
    .func (TypeExpr.qualifiedEach runtime params) (TypeExpr.qualifiedEach runtime results)

def TypeExpr.qualifiedEach (runtime : String) : List TypeExpr → List TypeExpr
  | [] => []
  | t :: ts => t.qualified runtime :: TypeExpr.qualifiedEach runtime ts

end

namespace Go

mutual

theorem type_text (runtime : String) : (t : TypeExpr) → (type runtime t).1 = (t.qualified runtime).render
  | .named name => by
    rw [type, TypeExpr.qualified, TypeExpr.render]
    split
    · rfl
    · rfl
  | .generic name arg => by
    rw [TypeExpr.qualified, TypeExpr.render, ← type_text runtime arg, type]
  | .chan true elem => by
    rw [TypeExpr.qualified, TypeExpr.render, ← type_text runtime elem, type]
    rfl
  | .chan false elem => by
    rw [TypeExpr.qualified, TypeExpr.render, ← type_text runtime elem, type]
    rfl
  | .slice elem => by
    rw [TypeExpr.qualified, TypeExpr.render, ← type_text runtime elem, type]
  | .pointer elem => by
    rw [TypeExpr.qualified, TypeExpr.render, ← type_text runtime elem, type]
  | .func params results => by
    rw [TypeExpr.qualified, TypeExpr.render, ← types_text runtime params, ← types_text runtime results, type]

theorem types_text (runtime : String) :
    (ts : List TypeExpr) → (types runtime ts).1 = TypeExpr.renderEach (TypeExpr.qualifiedEach runtime ts)
  | [] => rfl
  | t :: ts => by
    rw [TypeExpr.qualifiedEach, TypeExpr.renderEach, ← type_text runtime t, ← types_text runtime ts, types]

end

end Go
end ViewLang
