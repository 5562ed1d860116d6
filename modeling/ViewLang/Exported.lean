namespace ViewLang

/-- The name with its first letter in upper case, so that other packages see it. Names are ASCII. -/
def exported (name : String) : String :=
  match name.toList with
  | [] => ""
  | c :: cs => String.ofList (c.toUpper :: cs)

end ViewLang
