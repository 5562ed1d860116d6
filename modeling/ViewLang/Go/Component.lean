import ViewLang.Config
import ViewLang.Go.Node
import ViewLang.Syntax.Tree

namespace ViewLang.Go

structure Emitted where
  doc : Doc
  uses : Uses
deriving Repr, DecidableEq

namespace Emitted

def empty : Emitted := ⟨[], Uses.none⟩

def append (a b : Emitted) : Emitted := ⟨a.doc ++ b.doc, a.uses.union b.uses⟩

def concat (es : List Emitted) : Emitted := es.foldl append empty

def ofLower (act : Lower Doc) : Emitted :=
  let (doc, s) := act.run LowerState.start
  ⟨doc, s.uses⟩

def ofDoc (doc : Doc) : Emitted := ⟨doc, Uses.none⟩

end Emitted

def structDoc (name : String) (rows : List (String × String)) : Doc :=
  if rows.isEmpty then Doc.line ("type " ++ name ++ " struct\x7b\x7d")
  else
    let width := maxLength (rows.map (·.1))
    Doc.block ("type " ++ name ++ " struct \x7b")
      (rows.map fun (field, ty) => .text 0 (padRight width field ++ " " ++ ty)) "\x7d"

def inferType? : Primary → Option TypeExpr
  | .int _ => some (.named "int")
  | .float _ => some (.named "float64")
  | .string _ => some (.named "string")
  | .template _ => some (.named "string")
  | .composite ty _ _ => some ty.value
  | .make ty _ _ => some ty.value
  | .func params results _ _ => some (.func (params.map (·.ty.value)) (results.map (·.value)))
  | .paren ⟨inner, [], _⟩ => inferType? inner
  | _ => none

def inferExpr? (e : Expr) : Option TypeExpr := e.primary? >>= inferType?

def paramAccess (c : Component) (p : Param) : String :=
  if c.autoProps then "c.props." ++ exported p.name.value else "c." ++ p.name.value

structure ChannelProp where
  name : String
  access : String
  elem : TypeExpr

namespace ChannelProp

def field (ch : ChannelProp) : String := ch.name ++ "Value"

def latest (ch : ChannelProp) : String := "c." ++ ch.field

end ChannelProp

def paramChannels (c : Component) : List ChannelProp :=
  c.params.filterMap fun p => p.ty.value.chanElem?.map fun elem => ⟨p.name.value, paramAccess c p, elem⟩

def hoistedChannel? (received : List String) (d : VarDecl) (name : Name) (i : Nat) : Option ChannelProp :=
  if received.contains name.value then
    let ty := match d.ty with
      | some t => some t.value
      | none => d.values[i]? >>= inferExpr?
    (ty >>= TypeExpr.chanElem?).map fun elem => ⟨name.value, "c." ++ name.value, elem⟩
  else none

def hoistedChannels (c : Component) : List ChannelProp :=
  let received := c.body.received
  c.body.vars.flatMap fun d => d.names.zipIdx.filterMap fun (name, i) => hoistedChannel? received d name i

def channelProps (c : Component) : List ChannelProp := paramChannels c ++ hoistedChannels c

def stateFields (c : Component) : List (String × String) :=
  let hoisted := c.body.vars.flatMap fun d => d.names.map fun n => (n.value, "c." ++ n.value)
  (c.params.map (fun p => (p.name.value, paramAccess c p)) ++ hoisted).reverse

def componentEnv (runtime : String) (u : SourceUnit) (c : Component) : Env :=
  ⟨runtime, u.components, stateFields c, ((channelProps c).map fun ch => (ch.name, ch.latest)).reverse⟩

def plainEnv (runtime : String) (u : SourceUnit) : Env := ⟨runtime, u.components, [], []⟩

namespace Lower

def paramType (env : Env) (p : Param) : Lower String := do
  let ty ← type env p.ty.value
  pure (if p.variadic then "[]" ++ ty else ty)

def paramRows (env : Env) (name : String → String) : List Param → Lower (List (String × String))
  | [] => pure []
  | p :: ps => do
    let ty ← paramType env p
    let rest ← paramRows env name ps
    pure ((name p.name.value, ty) :: rest)

def hoistedType? (d : VarDecl) (i : Nat) : Option TypeExpr :=
  match d.ty with
  | some t => some t.value
  | none => if d.values.length = d.names.length then d.values[i]? >>= inferExpr? else none

def hoistedRows (env : Env) (d : VarDecl) : List (Name × Nat) → Lower (List (String × String))
  | [] => pure []
  | (name, i) :: rest => do
    let ty ← match hoistedType? d i with
      | some ty => type env ty
      | none => pure "any"
    let rows ← hoistedRows env d rest
    pure ((name.value, ty) :: rows)

def varRows (env : Env) : List VarDecl → Lower (List (String × String))
  | [] => pure []
  | d :: ds => do
    let first ← hoistedRows env d d.names.zipIdx
    let rest ← varRows env ds
    pure (first ++ rest)

def latestRows (env : Env) : List ChannelProp → Lower (List (String × String))
  | [] => pure []
  | ch :: chs => do
    let ty ← type env ch.elem
    let rest ← latestRows env chs
    pure ((ch.field, ty) :: rest)

def structRows (env : Env) (c : Component) : Lower (List (String × String)) := do
  let params ← if c.autoProps then
      pure (if c.params.isEmpty then [] else [("props", c.name.value ++ "Props")])
    else paramRows env id c.params
  let vars ← varRows env c.body.vars
  let channels := channelProps c
  let latest ← latestRows env channels
  pure (params ++ vars ++ latest ++ (if channels.isEmpty then [] else [("quit", "chan struct\x7b\x7d")]))

def optionDoc (env : Env) (name : String) (p : Param) : Lower Doc := do
  let field := exported p.name.value
  let ty ← type env p.ty.value
  pure (Doc.line ("// " ++ name ++ "With" ++ field ++ " sets " ++ field ++ ".") ++
    Doc.block ("func " ++ name ++ "With" ++ field ++ "(v " ++ (if p.variadic then "..." else "") ++ ty ++ ") " ++
        name ++ "Option \x7b")
      (Doc.block ("return func(p *" ++ name ++ "Props) \x7b") (Doc.line ("p." ++ field ++ " = v")) "\x7d") "\x7d" ++
    Doc.blank)

def optionDocs (env : Env) (name : String) : List Param → Lower Doc
  | [] => pure []
  | p :: ps => do
    let first ← optionDoc env name p
    let rest ← optionDocs env name ps
    pure (first ++ rest)

def propsDoc (env : Env) (c : Component) : Lower Doc := do
  let name := c.name.value
  let rows ← paramRows env exported c.params
  let options ← optionDocs env name c.params
  pure (Doc.line ("// " ++ name ++ "Props holds the properties of " ++ name ++ ".") ++
    structDoc (name ++ "Props") rows ++
    Doc.blank ++
    Doc.line ("// " ++ name ++ "Option sets one property of " ++ name ++ ".") ++
    Doc.line ("type " ++ name ++ "Option func(*" ++ name ++ "Props)") ++
    Doc.blank ++
    options)

def structDecl (env : Env) (c : Component) : Lower Doc := do
  let name := c.name.value
  let rows ← structRows env c
  pure (Doc.line ("// " ++ name ++ " is a renderable unit.") ++ structDoc name rows ++ Doc.blank)

def initialise (env : Env) : List VarDecl → Lower Doc
  | [] => pure []
  | d :: ds => do
    let values ← exprs env 1 d.values
    let rest ← initialise env ds
    let targets := d.names.map fun n => "c." ++ n.value
    if values.isEmpty then pure rest
    else pure (.text 1 (", ".intercalate targets ++ " = " ++ ", ".intercalate values) :: rest)

def constructorHead (env : Env) (c : Component) : Lower Doc := do
  let name := c.name.value
  if c.autoProps then
    pure (Doc.line ("func New" ++ name ++ "(opts ..." ++ name ++ "Option) *" ++ name ++ " \x7b") ++
      Doc.indent (Doc.line ("c := &" ++ name ++ "\x7b\x7d") ++
        (if c.params.isEmpty then []
          else Doc.block "for _, opt := range opts \x7b" (Doc.line "opt(&c.props)") "\x7d")))
  else
    let ps ← params env c.params
    pure (Doc.line ("func New" ++ name ++ "(" ++ ", ".intercalate ps ++ ") *" ++ name ++ " \x7b") ++
      Doc.indent (if c.params.isEmpty then Doc.line ("c := &" ++ name ++ "\x7b\x7d")
        else Doc.block ("c := &" ++ name ++ "\x7b")
          (c.params.map fun p => .text 0 (p.name.value ++ ": " ++ p.name.value ++ ",")) "\x7d"))

def constructorDoc (env : Env) (c : Component) : Lower Doc := do
  let head ← constructorHead env c
  let values ← initialise env c.body.vars
  pure (Doc.line ("// New" ++ c.name.value ++ " creates a " ++ c.name.value ++ ".") ++ head ++ values ++
    Doc.indent (Doc.line "return c") ++ Doc.line "\x7d" ++ Doc.blank)

def renderDoc (env : Env) (c : Component) : Lower Doc := do
  let name := c.name.value
  let node ← runtime env "Node"
  let body ← stmts env 1 c.body.stmts
  let root ← nodeList env 1 c.body.nodes
  pure (Doc.line ("// Render builds the node tree of " ++ name ++ ".") ++
    Doc.line ("func (c *" ++ name ++ ") Render() " ++ node ++ " \x7b") ++
    body ++ [.text 1 ("return " ++ root)] ++ Doc.line "\x7d" ++ Doc.blank)

def listenerDoc (env : Env) (ch : ChannelProp) : Lower Doc := do
  let elem ← type env ch.elem
  let received := Doc.block "if !ok \x7b" (Doc.line "return") "\x7d" ++
    Doc.line (ch.latest ++ " = v") ++ Doc.line "c.Update()"
  let select := Doc.line "select \x7b" ++ Doc.line "case v, ok := <-ch:" ++ Doc.indent received ++
    Doc.line "case <-quit:" ++ Doc.indent (Doc.line "return") ++ Doc.line "\x7d"
  pure (Doc.block ("if " ++ ch.access ++ " != nil \x7b")
    (Doc.block ("go func(ch <-chan " ++ elem ++ ", quit <-chan struct\x7b\x7d) \x7b")
      (Doc.block "for \x7b" select "\x7d") ("\x7d(" ++ ch.access ++ ", c.quit)")) "\x7d")

def listenerDocs (env : Env) : List ChannelProp → Lower Doc
  | [] => pure []
  | ch :: chs => do
    let first ← listenerDoc env ch
    let rest ← listenerDocs env chs
    pure (first ++ rest)

def mountDoc (env : Env) (c : Component) : Lower Doc := do
  let name := c.name.value
  let channels := channelProps c
  let listeners ← listenerDocs env channels
  pure (Doc.line ("// Mount starts listening on the channel props of " ++ name ++ ".") ++
    (if channels.isEmpty then Doc.line ("func (c *" ++ name ++ ") Mount() \x7b\x7d")
      else Doc.block ("func (c *" ++ name ++ ") Mount() \x7b")
        (Doc.line "c.quit = make(chan struct\x7b\x7d)" ++ listeners) "\x7d") ++
    Doc.blank)

def updateDoc (env : Env) (c : Component) : Lower Doc := do
  let name := c.name.value
  let schedule ← runtime env "ScheduleUpdate"
  pure (Doc.line ("// Update schedules a re-render of " ++ name ++ ".") ++
    Doc.block ("func (c *" ++ name ++ ") Update() \x7b") (Doc.line (schedule ++ "(c)")) "\x7d" ++ Doc.blank)

/-- A plain function: its variables, then its statements. Nodes have no meaning in it. -/
def functionDoc (env : Env) (c : Component) : Lower Doc := do
  let ps ← params env c.params
  let body ← inScope do
    declareAll (c.params.map (·.name))
    let vars ← stmts env 1 (c.body.vars.map .var)
    let rest ← stmts env 1 c.body.stmts
    pure (vars ++ rest)
  pure (Doc.line ("func " ++ c.name.value ++ "(" ++ ", ".intercalate ps ++ ") \x7b") ++ body ++ Doc.line "\x7d" ++
    Doc.blank)

end Lower

def unmountDoc (c : Component) : Doc :=
  let name := c.name.value
  Doc.line "// Unmount stops the listeners started by Mount." ++
  (if (channelProps c).isEmpty then Doc.line ("func (c *" ++ name ++ ") Unmount() \x7b\x7d")
    else Doc.block ("func (c *" ++ name ++ ") Unmount() \x7b")
      (Doc.block "if c.quit != nil \x7b" (Doc.line "close(c.quit)" ++ Doc.line "c.quit = nil") "\x7d") "\x7d") ++
  Doc.blank

def renderable (runtime : String) (u : SourceUnit) (c : Component) : Emitted :=
  let plain := plainEnv runtime u
  let env := componentEnv runtime u c
  Emitted.concat
    [if c.autoProps then .ofLower (Lower.propsDoc plain c) else .empty,
      .ofLower (Lower.structDecl plain c),
      .ofLower (Lower.constructorDoc env c),
      .ofLower (Lower.renderDoc env c),
      .ofLower (Lower.mountDoc plain c),
      .ofDoc (unmountDoc c),
      .ofLower (Lower.updateDoc plain c)]

def component (runtime : String) (u : SourceUnit) (c : Component) : Emitted :=
  if c.isRenderable then renderable runtime u c else .ofLower (Lower.functionDoc (plainEnv runtime u) c)

end ViewLang.Go
