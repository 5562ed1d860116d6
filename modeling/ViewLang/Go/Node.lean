import ViewLang.Exported
import ViewLang.Go.Lower
import ViewLang.Vocabulary

namespace ViewLang.Go.Lower

def propKey? : Node → Option String
  | .element e => Vocabulary.prop? e.tag.value
  | _ => none

def rendered (nodes : List Node) : List Node := nodes.filter fun n => (propKey? n).isNone

def callText (level : Nat) (head separator : String) (children : List String) : String :=
  if children.isEmpty then head ++ ")"
  else
    head ++ separator ++ "\n" ++ String.join (children.map fun c => pad (level + 1) ++ c ++ ",\n") ++ pad level ++ ")"

def textChild (env : Env) (e : Expr) (value : String) : Lower String := do
  let text ← runtime env "Text"
  match e.primary? with
  | some (.string _) => pure (text ++ "(" ++ value ++ ")")
  | some (.template _) => pure (text ++ "(" ++ value ++ ")")
  | _ =>
    modify .useFmt
    pure (text ++ "(fmt.Sprint(" ++ value ++ "))")

def elementArgs (env : Env) (level : Nat) : List Entry → Lower (List String × List String)
  | [] => pure ([], [])
  | ⟨key, value⟩ :: es => do
    let text ← expr env level value
    match key with
    | some k =>
      let (props, children) ← elementArgs env level es
      pure ((quote k.value ++ ": " ++ text) :: props, children)
    | none =>
      let child ← textChild env value text
      let (props, children) ← elementArgs env level es
      pure (props, child :: children)

def propChildren (env : Env) (level : Nat) : List Node → Lower (List String)
  | [] => pure []
  | .element ⟨tag, args, _, _⟩ :: ns => do
    match Vocabulary.prop? tag.value, args with
    | some key, ⟨_, value⟩ :: _ =>
      let text ← expr env level value
      let rest ← propChildren env level ns
      pure ((quote key ++ ": " ++ text) :: rest)
    | _, _ => propChildren env level ns
  | _ :: ns => propChildren env level ns

/-- Options for a component that gathers its arguments in props; an argument without a parameter is left out.
Positional arguments take the parameters in order. -/
def optionArgs (env : Env) (level : Nat) (tag : String) (params : List Param) :
    List Param → List Entry → Lower (List String)
  | _, [] => pure []
  | positional, ⟨some name, value⟩ :: es =>
    match params.find? (·.name.value == name.value) with
    | none => optionArgs env level tag params positional es
    | some p => do
      let text ← expr env level value
      let rest ← optionArgs env level tag params positional es
      pure ((tag ++ "With" ++ exported p.name.value ++ "(" ++ text ++ ")") :: rest)
  | [], ⟨none, _⟩ :: es => optionArgs env level tag params [] es
  | p :: positional, ⟨none, value⟩ :: es => do
    let text ← expr env level value
    let rest ← optionArgs env level tag params positional es
    pure ((tag ++ "With" ++ exported p.name.value ++ "(" ++ text ++ ")") :: rest)

def namedArg? (args : List Entry) (p : Param) : Option Entry :=
  args.find? fun a => a.key.map (·.value) == some p.name.value

/-- Arguments in the order of the parameters: the one with the parameter's name, else the next positional one, else
zero. A variadic parameter takes all positional arguments that are left. -/
def paramArgs (env : Env) (level : Nat) (args : List Entry) : List Entry → List Param → Lower (List String)
  | _, [] => pure []
  | positional, p :: ps =>
    match namedArg? args p, p.variadic, positional with
    | some a, true, positional => do
      let text ← expr env level a.value
      let rest ← paramArgs env level args positional ps
      pure ((text ++ "...") :: rest)
    | none, true, positional => do
      let texts ← exprs env level (positional.map (·.value))
      let rest ← paramArgs env level args [] ps
      pure (texts ++ rest)
    | some a, false, positional => do
      let text ← expr env level a.value
      let rest ← paramArgs env level args positional ps
      pure (text :: rest)
    | none, false, a :: positional => do
      let text ← expr env level a.value
      let rest ← paramArgs env level args positional ps
      pure (text :: rest)
    | none, false, [] => do
      let ty ← type env p.ty.value
      let rest ← paramArgs env level args [] ps
      pure (("*new(" ++ ty ++ ")") :: rest)

/-- Arguments of the constructor for an element that is no built-in one. Of a component of another file nothing is
known, so its arguments keep their order. -/
def embedArgs (env : Env) (level : Nat) (tag : String) (args : List Entry) : Lower (List String) :=
  match env.components.find? (·.name.value == tag) with
  | some c =>
    if !c.isRenderable then exprs env level (args.map (·.value))
    else if c.autoProps then optionArgs env level tag c.params c.params args
    else paramArgs env level args (args.filter (·.key.isNone)) c.params
  | none => exprs env level (args.map (·.value))

def embed (env : Env) (level : Nat) (tag : String) (args : List Entry) : Lower String := do
  let args ← embedArgs env level tag args
  let embed ← runtime env "Embed"
  pure (embed ++ "(New" ++ tag ++ "(" ++ ", ".intercalate args ++ "))")

def listLevel (level : Nat) (ns : List Node) : Nat := if (rendered ns).length ≤ 1 then level else level + 1

def listText (env : Env) (level : Nat) : List String → Lower String
  | [] => pure "nil"
  | [text] => pure text
  | texts => do
    let fragment ← runtime env "Fragment"
    pure (callText level (fragment ++ "(") "" texts)

def appendText (level : Nat) : List String → String
  | [] => ""
  | [text] => pad level ++ "nodes = append(nodes, " ++ text ++ ")\n"
  | texts => pad level ++ "nodes = " ++ callText level "append(nodes" "," texts ++ "\n"

mutual

def node (env : Env) (level : Nat) : Node → Lower String
  | .element e => element env level e
  | .text t => do
    let text ← runtime env "Text"
    pure (text ++ "(" ++ quote t.value ++ ")")
  | .template t => do
    let value ← template env level t
    let text ← runtime env "Text"
    pure (text ++ "(" ++ value ++ ")")
  | .cond c => nodeIf env level c
  | .loop l => nodeFor env level l

def nodes (env : Env) (level : Nat) : List Node → Lower (List String)
  | [] => pure []
  | n :: ns => do
    if (propKey? n).isSome then nodes env level ns
    else
      let first ← node env level n
      let rest ← nodes env level ns
      pure (first :: rest)

def element (env : Env) (level : Nat) : Element → Lower String
  | ⟨tag, args, children, _⟩ => do
    match Vocabulary.tag? tag.value with
    | none => embed env level tag.value args
    | some html =>
      let (props, texts) ← elementArgs env level args
      let more ← propChildren env level children
      let children ← nodes env (level + 1) children
      let props ← if (props ++ more).isEmpty then pure "nil"
        else do
          let name ← runtime env "Props"
          pure (name ++ "\x7b" ++ ", ".intercalate (props ++ more) ++ "\x7d")
      let call ← runtime env "Element"
      pure (callText level (call ++ "(" ++ quote html ++ ", " ++ props) "," (texts ++ children))

def nodeIf (env : Env) (level : Nat) : NodeIf → Lower String
  | ⟨cond, body, otherwise, _⟩ => do
    let type ← runtime env "Node"
    let cond ← expr env (level + 1) cond
    let body ← nodes env (listLevel (level + 2) body) body
    let body ← listText env (level + 2) body
    let otherwise ← nodes env (listLevel (level + 1) otherwise) otherwise
    let otherwise ← listText env (level + 1) otherwise
    pure ("func() " ++ type ++ " \x7b\n" ++
      pad (level + 1) ++ "if " ++ cond ++ " \x7b\n" ++
      pad (level + 2) ++ "return " ++ body ++ "\n" ++
      pad (level + 1) ++ "\x7d\n" ++
      pad (level + 1) ++ "return " ++ otherwise ++ "\n" ++
      pad level ++ "\x7d()")

def nodeFor (env : Env) (level : Nat) : NodeFor → Lower String
  | ⟨key, value, iterable, children, _⟩ => do
    let type ← runtime env "Node"
    let fragment ← runtime env "Fragment"
    let iterable ← expr env (level + 1) iterable
    modify .pushScope
    declareAll (key.toList ++ value.toList)
    let texts ← nodes env (listLevel (level + 2) children) children
    modify .popScope
    pure ("func() " ++ type ++ " \x7b\n" ++
      pad (level + 1) ++ "var nodes []" ++ type ++ "\n" ++
      pad (level + 1) ++ "for " ++ rangeVars key value ++ "range " ++ iterable ++ " \x7b\n" ++
      appendText (level + 2) texts ++
      pad (level + 1) ++ "\x7d\n" ++
      pad (level + 1) ++ "return " ++ fragment ++ "(nodes...)\n" ++
      pad level ++ "\x7d()")

end

def nodeList (env : Env) (level : Nat) (ns : List Node) : Lower String := do
  let texts ← nodes env (listLevel level ns) ns
  listText env level texts

end ViewLang.Go.Lower
