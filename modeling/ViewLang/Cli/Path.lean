namespace ViewLang.Cli.Path

def segments (path : String) : List String := ((path.toList.splitOn '/').map String.ofList).filter (!·.isEmpty)

/-- The names that lead to the directory around the one that steps lead to. Dots do not count. -/
def around (steps : List String) : List String := (steps.filter (· != ".")).dropLast

def isAbsolute (path : String) : Bool := path.toList.head? == some '/'

def endsWithSlash (path : String) : Bool := path.toList.getLast? == some '/'

def join (dir name : String) : String :=
  if dir.isEmpty then name
  else if endsWithSlash dir then dir ++ name
  else dir ++ "/" ++ name

def parent (path : String) : String :=
  (if isAbsolute path then "/" else "") ++ "/".intercalate (around (segments path))

def fileName? (path : String) : Option String :=
  match ((segments path).filter (· != ".")).getLast? with
  | some ".." => none
  | name => name

def stem (name : String) : String :=
  match (name.toList.reverse.dropWhile (· != '.')).tail.reverse with
  | [] => name
  | cs => String.ofList cs

end ViewLang.Cli.Path
