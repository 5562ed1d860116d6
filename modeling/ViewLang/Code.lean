namespace ViewLang

inductive Line
  | text (level : Nat) (s : String)
  | blank
deriving Repr, DecidableEq

namespace Line

def indent : Line → Line
  | text level s => text (level + 1) s
  | blank => blank

def render (unit : String) : Line → String
  | text level s => String.join (List.replicate level unit) ++ s ++ "\n"
  | blank => "\n"

end Line

abbrev Doc := List Line

namespace Doc

def line (s : String) : Doc := [.text 0 s]

def blank : Doc := [.blank]

def indent (d : Doc) : Doc := d.map Line.indent

def block (opening : String) (body : Doc) (closing : String) : Doc := line opening ++ indent body ++ line closing

def render (unit : String) (d : Doc) : String := String.join (d.map (Line.render unit))

theorem render_cons (unit : String) (l : Line) (d : Doc) : render unit (l :: d) = l.render unit ++ render unit d :=
  String.join_cons

theorem render_singleton (unit : String) (l : Line) : render unit [l] = l.render unit := by
  rw [render_cons]
  exact String.append_empty

theorem render_append (unit : String) (a b : Doc) : render unit (a ++ b) = render unit a ++ render unit b := by
  rw [render, List.map_append, String.join_append]
  rfl

end Doc

def padRight (width : Nat) (s : String) : String :=
  s ++ String.ofList (List.replicate (width - s.length) ' ')

def maxLength (ss : List String) : Nat := ss.foldl (fun n s => max n s.length) 0

end ViewLang
