import ViewLang.Go.File
import ViewLang.Proofs.Go.CollectedUses
import ViewLang.Proofs.Go.Hygiene

namespace ViewLang.Go

open Lexical (Locals)

namespace Marked

def plain (doc : Doc) : Marked := lit (doc.render "\t")

def structDoc (name : String) (rows : List (String × Marked)) : Marked :=
  if rows.isEmpty then plain (Doc.line ("type " ++ name ++ " struct\x7b\x7d"))
  else
    let width := maxLength (rows.map (·.1))
    plain (Doc.line ("type " ++ name ++ " struct \x7b")) ++
      (rows.flatMap fun row => line 1 (lit (padRight width row.1 ++ " ") ++ row.2)) ++ plain (Doc.line "\x7d")

def typeDef (runtime : String) (d : TypeDef) : Marked :=
  structDoc d.name.value ((d.fields.map (·.name.value)).zip (typeExprs runtime (d.fields.map (·.ty.value)))) ++
    plain Doc.blank

def paramType (env : Env) (p : Param) : Marked :=
  if p.variadic then lit "[]" ++ type env p.ty.value else type env p.ty.value

def paramRows (env : Env) (name : String → String) (ps : List Param) : List (String × Marked) :=
  ps.map fun p => (name p.name.value, paramType env p)

def hoistedType (env : Env) : Option TypeExpr → Marked
  | some ty => type env ty
  | none => lit "any"

def hoistedRows (env : Env) (d : VarDecl) (names : List (Name × Nat)) : List (String × Marked) :=
  names.map fun entry => (entry.1.value, hoistedType env (Lower.hoistedType? d entry.2))

def varRows (env : Env) (ds : List VarDecl) : List (String × Marked) :=
  ds.flatMap fun d => hoistedRows env d d.names.zipIdx

def latestRows (env : Env) (chs : List ChannelProp) : List (String × Marked) :=
  chs.map fun ch => (ch.field, type env ch.elem)

def propsRows (c : Component) : List (String × Marked) :=
  if c.params.isEmpty then [] else [("props", lit (c.name.value ++ "Props"))]

def quitRows (c : Component) : List (String × Marked) :=
  if (channelProps c).isEmpty then [] else [("quit", lit "chan struct\x7b\x7d")]

def structRows (env : Env) (c : Component) : List (String × Marked) :=
  (if c.autoProps then propsRows c else paramRows env id c.params) ++ varRows env c.body.vars ++
    latestRows env (channelProps c) ++ quitRows c

def optionDoc (env : Env) (name : String) (p : Param) : Marked :=
  let field := exported p.name.value
  plain (Doc.line ("// " ++ name ++ "With" ++ field ++ " sets " ++ field ++ ".")) ++
    line 0 (lit ("func " ++ name ++ "With" ++ field ++ "(v " ++ (if p.variadic then "..." else "")) ++
      type env p.ty.value ++ lit (") " ++ name ++ "Option \x7b")) ++
    plain (Doc.indent (Doc.block ("return func(p *" ++ name ++ "Props) \x7b") (Doc.line ("p." ++ field ++ " = v"))
      "\x7d") ++ Doc.line "\x7d" ++ Doc.blank)

def propsDoc (env : Env) (c : Component) : Marked :=
  let name := c.name.value
  plain (Doc.line ("// " ++ name ++ "Props holds the properties of " ++ name ++ ".")) ++
    structDoc (name ++ "Props") (paramRows env exported c.params) ++
    plain (Doc.blank ++ Doc.line ("// " ++ name ++ "Option sets one property of " ++ name ++ ".") ++
      Doc.line ("type " ++ name ++ "Option func(*" ++ name ++ "Props)") ++ Doc.blank) ++
    c.params.flatMap (optionDoc env name)

def structDecl (env : Env) (c : Component) : Marked :=
  plain (Doc.line ("// " ++ c.name.value ++ " is a renderable unit.")) ++
    structDoc c.name.value (structRows env c) ++ plain Doc.blank

def initialise (env : Env) (d : VarDecl) : Marked :=
  if d.values.isEmpty then []
  else
    line 1 (lit (", ".intercalate (d.names.map fun n => "c." ++ n.value) ++ " = ") ++
      separated (exprs env [] 1 d.values))

def constructorHead (env : Env) (c : Component) : Marked :=
  let name := c.name.value
  if c.autoProps then
    plain (Doc.line ("func New" ++ name ++ "(opts ..." ++ name ++ "Option) *" ++ name ++ " \x7b") ++
      Doc.indent (Doc.line ("c := &" ++ name ++ "\x7b\x7d") ++
        (if c.params.isEmpty then []
          else Doc.block "for _, opt := range opts \x7b" (Doc.line "opt(&c.props)") "\x7d")))
  else
    line 0 (lit ("func New" ++ name ++ "(") ++ separated (params env c.params) ++ lit (") *" ++ name ++ " \x7b")) ++
      plain (Doc.indent (if c.params.isEmpty then Doc.line ("c := &" ++ name ++ "\x7b\x7d")
        else Doc.block ("c := &" ++ name ++ "\x7b")
          (c.params.map fun p => .text 0 (p.name.value ++ ": " ++ p.name.value ++ ",")) "\x7d"))

def constructorDoc (env : Env) (c : Component) : Marked :=
  plain (Doc.line ("// New" ++ c.name.value ++ " creates a " ++ c.name.value ++ ".")) ++ constructorHead env c ++
    c.body.vars.flatMap (initialise env) ++
    plain (Doc.indent (Doc.line "return c") ++ Doc.line "\x7d" ++ Doc.blank)

def listenerDoc (env : Env) (ch : ChannelProp) : Marked :=
  let received := Doc.block "if !ok \x7b" (Doc.line "return") "\x7d" ++
    Doc.line (ch.latest ++ " = v") ++ Doc.line "c.Update()"
  let select := Doc.line "select \x7b" ++ Doc.line "case v, ok := <-ch:" ++ Doc.indent received ++
    Doc.line "case <-quit:" ++ Doc.indent (Doc.line "return") ++ Doc.line "\x7d"
  plain (Doc.indent (Doc.line ("if " ++ ch.access ++ " != nil \x7b"))) ++
    line 2 (lit "go func(ch <-chan " ++ type env ch.elem ++ lit ", quit <-chan struct\x7b\x7d) \x7b") ++
    plain (Doc.indent (Doc.indent (Doc.indent (Doc.block "for \x7b" select "\x7d") ++
      Doc.line ("\x7d(" ++ ch.access ++ ", c.quit)")) ++ Doc.line "\x7d"))

def mountDoc (env : Env) (c : Component) : Marked :=
  let name := c.name.value
  let channels := channelProps c
  plain (Doc.line ("// Mount starts listening on the channel props of " ++ name ++ ".")) ++
    (if channels.isEmpty then plain (Doc.line ("func (c *" ++ name ++ ") Mount() \x7b\x7d"))
      else plain (Doc.line ("func (c *" ++ name ++ ") Mount() \x7b") ++
          Doc.indent (Doc.line "c.quit = make(chan struct\x7b\x7d)")) ++
        channels.flatMap (listenerDoc env) ++ plain (Doc.line "\x7d")) ++
    plain Doc.blank

def updateDoc (env : Env) (c : Component) : Marked :=
  let name := c.name.value
  plain (Doc.line ("// Update schedules a re-render of " ++ name ++ ".") ++
      Doc.line ("func (c *" ++ name ++ ") Update() \x7b")) ++
    line 1 (runtime env "ScheduleUpdate" ++ lit "(c)") ++ plain (Doc.line "\x7d" ++ Doc.blank)

def functionDoc (env : Env) (c : Component) : Marked :=
  let bound := c.params.map (·.name.value)
  let locals := Locals.extend [] bound
  let vars := c.body.vars.map Stmt.var
  line 0 (lit ("func " ++ c.name.value ++ "(") ++ separated (params env c.params) ++ lit ") \x7b") ++
    [.scope (binds bound ++ stmts env locals 1 vars ++
      stmts env (locals.extend (Lexical.declared vars)) 1 c.body.stmts)] ++
    plain (Doc.line "\x7d" ++ Doc.blank)

def renderable (runtime : String) (u : SourceUnit) (c : Component) : Marked :=
  let outside := plainEnv runtime u
  let env := componentEnv runtime u c
  (if c.autoProps then propsDoc outside c else []) ++ structDecl outside c ++ constructorDoc env c ++
    renderMethod env c ++ mountDoc outside c ++ plain (unmountDoc c) ++ updateDoc outside c

def component (runtime : String) (u : SourceUnit) (c : Component) : Marked :=
  if c.isRenderable then renderable runtime u c else functionDoc (plainEnv runtime u) c

def declarations (runtime : String) (u : SourceUnit) : Marked :=
  u.types.flatMap (typeDef runtime) ++ u.components.flatMap (component runtime u)

end Marked

structure Shows (runtime : String) (code : Marked) (text : String) : Prop where
  shown : Marked.render (Marked.fill runtime code) = text
  formatted : Formatted code

section

variable {runtime : String}

theorem Opens.shows {code filled : Marked} {text : String} (opens : Opens runtime code filled)
    (marks : Marks runtime filled text) : Shows runtime code text where
  shown := by rw [opens.fills, marks.shown]
  formatted := opens.formatted

theorem Shows.nil : Shows runtime [] "" := ⟨rfl, .of_unused rfl⟩

theorem Shows.append {first second : Marked} {a b : String} (left : Shows runtime first a)
    (right : Shows runtime second b) : Shows runtime (first ++ second) (a ++ b) where
  shown := by rw [Marked.fill_append, Marked.render_append, left.shown, right.shown]
  formatted := left.formatted.append right.formatted

theorem Shows.lit (s : String) : Shows runtime (Marked.lit s) s := (Opens.lit s).shows (.lit s)

theorem Shows.plain (doc : Doc) : Shows runtime (Marked.plain doc) (doc.render "\t") := .lit _

theorem Shows.scope {inner : Marked} {text : String} (shows : Shows runtime inner text) :
    Shows runtime [.scope inner] text where
  shown := String.append_empty.trans shows.shown
  formatted := shows.formatted.scope

theorem Shows.congr {code : Marked} {a b : String} (shows : Shows runtime code a) (same : a = b) :
    Shows runtime code b := same ▸ shows

theorem Shows.line {code : Marked} {text : String} (shows : Shows runtime code text) (level : Nat) :
    Shows runtime (Marked.line level code) (Doc.render "\t" [.text level text]) := by
  rw [render_line]
  exact ((Shows.lit _).append shows).append (.lit "\n")

theorem Shows.lines {first second : Marked} {a b : Doc} (left : Shows runtime first (a.render "\t"))
    (right : Shows runtime second (b.render "\t")) : Shows runtime (first ++ second) ((a ++ b).render "\t") := by
  rw [Doc.render_append]
  exact left.append right

end

def Writes {α : Type} (act : Lower α) (uses : Uses) (post : α → Prop) : Prop :=
  ∃ a, post a ∧ ∀ noted, act.run ⟨[[]], [], noted⟩ = (a, ⟨[[]], [], noted.union uses⟩)

abbrev WritesText (runtime : String) (act : Lower String) (code : Marked) : Prop :=
  Writes act (Marked.uses code) (Shows runtime code)

abbrev WritesDoc (runtime : String) (act : Lower Doc) (code : Marked) : Prop :=
  Writes act (Marked.uses code) fun doc => Shows runtime code (doc.render "\t")

section

variable {α β : Type} {act : Lower α} {next : α → Lower β} {a b : Uses} {mid : α → Prop} {post : β → Prop}

theorem Writes.pure {x : α} {post : α → Prop} (given : post x) : Writes (pure x) .none post :=
  ⟨x, given, fun noted => by rw [Uses.union_none]; rfl⟩

theorem Writes.bind (first : Writes act a mid) (second : ∀ x, mid x → Writes (next x) b post) :
    Writes (act >>= next) (a.union b) post := by
  obtain ⟨x, given, ran⟩ := first
  obtain ⟨y, result, finished⟩ := second x given
  refine ⟨y, result, fun noted => ?_⟩
  rw [StateT.run_bind, ran, ← Uses.union_assoc]
  exact finished _

theorem Writes.map {f : α → β} (first : Writes act a mid) (given : ∀ x, mid x → post (f x)) :
    Writes (act >>= fun x => Pure.pure (f x)) a post := by
  have both := first.bind fun x held => Writes.pure (given x held)
  rw [Uses.union_none] at both
  exact both

theorem Writes.congr {post : α → Prop} (writes : Writes act a post) (same : a = b) : Writes act b post :=
  same ▸ writes

/-- What a lowering gives is known from how it runs, and what it notes from what it adds. -/
theorem Runs.writes {x : α} {assigned : Bool} {post : α → Prop} (runs : Runs act [] x [] assigned) (adds : Adds act a)
    (given : post x) : Writes act a post := by
  refine ⟨x, given, fun noted => ?_⟩
  obtain ⟨after, ran⟩ := runs [] [] [] noted rfl
  have added := (adds ⟨[[]], [], noted⟩).1
  rw [ran] at added
  rw [ran, ← added]
  rfl

/-- With the alias filled in, the code shows the lines, and it refers to what was noted. -/
structure Emits (runtime : String) (e : Emitted) (code : Marked) : Prop where
  shown : Shows runtime code (e.doc.render "\t")
  noted : e.uses = Marked.uses code

theorem Writes.emitted {runtime : String} {act : Lower Doc} {code : Marked} (writes : WritesDoc runtime act code) :
    Emits runtime (.ofLower act) code := by
  obtain ⟨doc, shows, ran⟩ := writes
  have emitted : Emitted.ofLower act = ⟨doc, Marked.uses code⟩ := by
    have start := ran .none
    rw [Uses.none_union] at start
    unfold Emitted.ofLower
    rw [LowerState.start, start]
  rw [emitted]
  exact ⟨shows, rfl⟩

end

section

variable {env : Env}

theorem type_shows (env : Env) (ty : TypeExpr) :
    Shows env.runtime (Marked.type env.opened ty) (Lexical.type env ty) :=
  (type_opens env ty).shows (type_marks env ty)

theorem type_writes (ty : TypeExpr) : WritesText env.runtime (Lower.type env ty) (Marked.type env.opened ty) :=
  (type_runs ty).writes (type_adds ty) (type_shows env ty)

theorem params_write (ps : List Param) :
    Writes (Lower.params env ps) (Marked.uses (Marked.params env.opened ps).flatten) fun texts =>
      Shows env.runtime (Marked.separated (Marked.params env.opened ps)) (", ".intercalate texts) :=
  (params_runs ps).writes (params_adds ps) ((params_open env ps).separated.shows (params_marks env ps).separated)

theorem runtime_writes (name : String) :
    WritesText env.runtime (Lower.runtime env name) (Marked.runtime env.opened name) :=
  (runtime_runs name).writes (runtime_adds name) ((runtime_opens env name).shows (runtime_marks env name))

end

def RowShows (runtime : String) (code : String × Marked) (row : String × String) : Prop :=
  code.1 = row.1 ∧ Shows runtime code.2 row.2

abbrev RowsShow (runtime : String) : List (String × Marked) → List (String × String) → Prop :=
  List.Forall₂ (RowShows runtime)

def rowsUses (rows : List (String × Marked)) : Uses := Marked.uses (rows.flatMap (·.2))

theorem rowsUses_cons (row : String × Marked) (rows : List (String × Marked)) :
    rowsUses (row :: rows) = (Marked.uses row.2).union (rowsUses rows) := by
  rw [rowsUses, List.flatMap_cons, Marked.uses_append]
  rfl

theorem rowsUses_append (first second : List (String × Marked)) :
    rowsUses (first ++ second) = (rowsUses first).union (rowsUses second) := by
  rw [rowsUses, List.flatMap_append, Marked.uses_append]
  rfl

abbrev WritesRows (runtime : String) (act : Lower (List (String × String))) (rows : List (String × Marked)) : Prop :=
  Writes act (rowsUses rows) (RowsShow runtime rows)

@[simp] theorem Marked.uses_plain (doc : Doc) : uses (plain doc) = .none := rfl

theorem Marked.uses_structDoc (name : String) (rows : List (String × Marked)) :
    uses (structDoc name rows) = rowsUses rows := by
  have each (width : Nat) : uses (rows.flatMap fun row => line 1 (lit (padRight width row.1 ++ " ") ++ row.2)) =
      rowsUses rows := by
    induction rows with
    | nil => rfl
    | cons row rows ih =>
      rw [List.flatMap_cons, uses_append, ih, uses_line, uses_append, uses_lit, Uses.none_union, rowsUses_cons]
  rw [structDoc]
  split
  · rename_i empty
    rw [List.isEmpty_iff.mp empty]
    rfl
  · simp only [uses_append, uses_plain, each, Uses.none_union, Uses.union_none]

theorem structDoc_shows {runtime : String} (name : String) {codes : List (String × Marked)}
    {rows : List (String × String)} (each : RowsShow runtime codes rows) :
    Shows runtime (Marked.structDoc name codes) ((structDoc name rows).render "\t") := by
  have fields : codes.map (·.1) = rows.map (·.1) := by
    induction each with
    | nil => rfl
    | cons row _ ih => rw [List.map_cons, List.map_cons, row.1, ih]
  have lines (width : Nat) : Shows runtime
      (codes.flatMap fun row => Marked.line 1 (Marked.lit (padRight width row.1 ++ " ") ++ row.2))
      ((Doc.indent (rows.map fun row => .text 0 (padRight width row.1 ++ " " ++ row.2))).render "\t") := by
    clear fields
    induction each with
    | nil => exact .nil
    | @cons code row _ _ first _ ih =>
      have line := ((Shows.lit (padRight width code.1 ++ " ")).append first.2).line 1
      rw [first.1] at line
      rw [List.flatMap_cons, first.1]
      exact line.lines ih
  have empty : codes.isEmpty = rows.isEmpty := by
    cases each with
    | nil => rfl
    | cons _ _ => rfl
  rw [Marked.structDoc, structDoc, empty, fields]
  split
  · exact .plain _
  · exact ((Shows.plain _).lines (lines _)).lines (.plain _)

section

variable {env : Env}

theorem paramType_writes (p : Param) :
    WritesText env.runtime (Lower.paramType env p) (Marked.paramType env.opened p) := by
  rw [Lower.paramType, Marked.paramType]
  split
  · refine ((type_writes p.ty.value).map fun ty shows => (Shows.lit "[]").append shows).congr ?_
    simp
  · exact (type_writes p.ty.value).map fun ty shows => shows

theorem paramRows_write (name : String → String) (ps : List Param) :
    WritesRows env.runtime (Lower.paramRows env name ps) (Marked.paramRows env.opened name ps) := by
  induction ps with
  | nil => exact .pure .nil
  | cons p ps ih =>
    rw [Marked.paramRows, List.map_cons, WritesRows, rowsUses_cons]
    exact (paramType_writes p).bind fun ty shows => ih.map fun rows each => .cons ⟨rfl, shows⟩ each

theorem hoistedRows_write (d : VarDecl) (names : List (Name × Nat)) :
    WritesRows env.runtime (Lower.hoistedRows env d names) (Marked.hoistedRows env.opened d names) := by
  induction names with
  | nil => exact .pure .nil
  | cons entry names ih =>
    obtain ⟨name, i⟩ := entry
    rw [Marked.hoistedRows, List.map_cons, WritesRows, rowsUses_cons, Lower.hoistedRows]
    cases Lower.hoistedType? d i with
    | some ty => exact (type_writes ty).bind fun ty shows => ih.map fun rows each => .cons ⟨rfl, shows⟩ each
    | none =>
      exact (Writes.pure (Shows.lit "any")).bind fun ty shows => ih.map fun rows each => .cons ⟨rfl, shows⟩ each

theorem varRows_write (ds : List VarDecl) :
    WritesRows env.runtime (Lower.varRows env ds) (Marked.varRows env.opened ds) := by
  induction ds with
  | nil => exact .pure .nil
  | cons d ds ih =>
    rw [Marked.varRows, List.flatMap_cons, WritesRows, rowsUses_append]
    exact (hoistedRows_write d d.names.zipIdx).bind fun first each => ih.map fun rest others =>
      List.rel_append each others

theorem latestRows_write (chs : List ChannelProp) :
    WritesRows env.runtime (Lower.latestRows env chs) (Marked.latestRows env.opened chs) := by
  induction chs with
  | nil => exact .pure .nil
  | cons ch chs ih =>
    rw [Marked.latestRows, List.map_cons, WritesRows, rowsUses_cons]
    exact (type_writes ch.elem).bind fun ty shows => ih.map fun rows each => .cons ⟨rfl, shows⟩ each

theorem structRows_write (c : Component) :
    WritesRows env.runtime (Lower.structRows env c) (Marked.structRows env.opened c) := by
  have quit : RowsShow env.runtime (Marked.quitRows c)
      (if (channelProps c).isEmpty then [] else [("quit", "chan struct\x7b\x7d")]) := by
    rw [Marked.quitRows]
    split
    · exact .nil
    · exact .cons ⟨rfl, .lit _⟩ .nil
  have unused : rowsUses (Marked.quitRows c) = .none := by
    rw [Marked.quitRows]
    split <;> rfl
  have behind {own : Lower (List (String × String))} {first : List (String × Marked)}
      (writes : WritesRows env.runtime own first) : WritesRows env.runtime (do
        let params ← own
        let vars ← Lower.varRows env c.body.vars
        let latest ← Lower.latestRows env (channelProps c)
        pure (params ++ vars ++ latest ++
          if (channelProps c).isEmpty then [] else [("quit", "chan struct\x7b\x7d")]))
      (first ++ Marked.varRows env.opened c.body.vars ++ Marked.latestRows env.opened (channelProps c) ++
        Marked.quitRows c) := by
    refine (writes.bind fun params each => (varRows_write c.body.vars).bind fun vars each' =>
      (latestRows_write (channelProps c)).map fun latest each'' => ?_).congr ?_
    · exact List.rel_append (List.rel_append (List.rel_append each each') each'') quit
    · simp only [rowsUses_append, unused, Uses.union_none, Uses.union_assoc]
  unfold Lower.structRows
  rw [Marked.structRows]
  split
  · refine behind ?_
    rw [Marked.propsRows]
    split
    · exact .pure .nil
    · exact .pure (.cons ⟨rfl, .lit _⟩ .nil)
  · exact behind (paramRows_write id c.params)

end

section

variable {env : Env}

theorem optionDoc_writes (name : String) (p : Param) :
    WritesDoc env.runtime (Lower.optionDoc env name p) (Marked.optionDoc env.opened name p) := by
  refine ((type_writes p.ty.value).map fun ty shows => ?_).congr ?_
  · have opening : Shows env.runtime _ _ := Shows.lit
      ("func " ++ name ++ "With" ++ exported p.name.value ++ "(v " ++ if p.variadic then "..." else "")
    have head := ((opening.append shows).append (.lit (") " ++ name ++ "Option \x7b"))).line 0
    refine Shows.congr (((Shows.plain _).lines head).lines (.plain _)) ?_
    simp only [Doc.block, Doc.line, String.append_assoc, List.append_assoc]
  · simp only [Marked.optionDoc, Marked.uses_append, Marked.uses_plain, Marked.uses_line, Marked.uses_lit,
      Uses.none_union, Uses.union_none]

theorem optionDocs_write (name : String) (ps : List Param) :
    WritesDoc env.runtime (Lower.optionDocs env name ps) (ps.flatMap (Marked.optionDoc env.opened name)) := by
  induction ps with
  | nil => exact .pure .nil
  | cons p ps ih =>
    rw [List.flatMap_cons, WritesDoc, Marked.uses_append]
    exact (optionDoc_writes name p).bind fun first shows => ih.map fun rest shows' => shows.lines shows'

theorem propsDoc_writes (c : Component) :
    WritesDoc env.runtime (Lower.propsDoc env c) (Marked.propsDoc env.opened c) := by
  refine ((paramRows_write exported c.params).bind fun rows each => (optionDocs_write c.name.value c.params).map
    fun options shows => ?_).congr ?_
  · have struct := structDoc_shows (c.name.value ++ "Props") each
    refine Shows.congr ((((Shows.plain _).lines struct).lines (.plain _)).lines shows) ?_
    simp only [List.append_assoc]
  · simp only [Marked.propsDoc, Marked.uses_append, Marked.uses_plain, Marked.uses_structDoc, Uses.none_union,
      Uses.union_none]

theorem structDecl_writes (c : Component) :
    WritesDoc env.runtime (Lower.structDecl env c) (Marked.structDecl env.opened c) := by
  refine ((structRows_write c).map fun rows each => ?_).congr ?_
  · exact ((Shows.plain _).lines (structDoc_shows c.name.value each)).lines (.plain _)
  · simp only [Marked.structDecl, Marked.uses_append, Marked.uses_plain, Marked.uses_structDoc, Uses.none_union,
      Uses.union_none]

theorem listenerDoc_writes (ch : ChannelProp) : Writes (Lower.listenerDoc env ch)
    (Marked.uses (Marked.listenerDoc env.opened ch))
    fun doc => Shows env.runtime (Marked.listenerDoc env.opened ch) ((Doc.indent doc).render "\t") := by
  refine ((type_writes ch.elem).map fun elem shows => ?_).congr ?_
  · have started := (((Shows.lit "go func(ch <-chan ").append shows).append
      (.lit ", quit <-chan struct\x7b\x7d) \x7b")).line 2
    exact ((Shows.plain _).lines started).lines (.plain _)
  · simp only [Marked.listenerDoc, Marked.uses_append, Marked.uses_plain, Marked.uses_line, Marked.uses_lit,
      Uses.none_union, Uses.union_none]

theorem listenerDocs_write (chs : List ChannelProp) : Writes (Lower.listenerDocs env chs)
    (Marked.uses (chs.flatMap (Marked.listenerDoc env.opened)))
    fun doc => Shows env.runtime (chs.flatMap (Marked.listenerDoc env.opened)) ((Doc.indent doc).render "\t") := by
  induction chs with
  | nil => exact .pure .nil
  | cons ch chs ih =>
    rw [List.flatMap_cons, Marked.uses_append]
    refine (listenerDoc_writes ch).bind fun first shows => ih.map fun rest shows' => ?_
    rw [Doc.indent, List.map_append]
    exact shows.lines shows'

theorem mountDoc_writes (c : Component) :
    WritesDoc env.runtime (Lower.mountDoc env c) (Marked.mountDoc env.opened c) := by
  refine ((listenerDocs_write (channelProps c)).map fun listeners shows => ?_).congr ?_
  · rw [Marked.mountDoc]
    split
    · exact ((Shows.plain _).lines (.plain _)).lines (.plain _)
    · refine ((Shows.plain _).lines ?_).lines (.plain _)
      refine Shows.congr (((Shows.plain _).lines shows).lines (.plain _)) ?_
      simp only [Doc.block, Doc.indent, List.map_append, List.append_assoc]
  · rw [Marked.mountDoc]
    split
    · rename_i none
      rw [List.isEmpty_iff.mp none]
      rfl
    · simp only [Marked.uses_append, Marked.uses_plain, Uses.none_union, Uses.union_none]

theorem updateDoc_writes (c : Component) :
    WritesDoc env.runtime (Lower.updateDoc env c) (Marked.updateDoc env.opened c) := by
  refine ((runtime_writes "ScheduleUpdate").map fun schedule shows => ?_).congr ?_
  · have call := (shows.append (.lit "(c)")).line 1
    exact ((Shows.plain _).lines call).lines (.plain _)
  · simp only [Marked.updateDoc, Marked.uses_append, Marked.uses_plain, Marked.uses_line, Marked.uses_lit,
      Uses.none_union, Uses.union_none]

theorem constructorHead_writes (c : Component) :
    WritesDoc env.runtime (Lower.constructorHead env c) (Marked.constructorHead env.opened c) := by
  rw [Lower.constructorHead, Marked.constructorHead]
  split
  · exact .pure (.plain _)
  · refine ((params_write c.params).map fun ps shows => ?_).congr ?_
    · have head := (((Shows.lit ("func New" ++ c.name.value ++ "(")).append shows).append
        (.lit (") *" ++ c.name.value ++ " \x7b"))).line 0
      refine Shows.congr (head.lines (.plain _)) ?_
      simp only [Doc.line, String.append_assoc]
    · simp only [Marked.uses_append, Marked.uses_plain, Marked.uses_line, Marked.uses_lit, Marked.uses_separated,
        Uses.none_union, Uses.union_none]

section

variable (through : ThroughReceiver env)

include through

theorem initialise_writes (ds : List VarDecl) :
    WritesDoc env.runtime (Lower.initialise env ds) (ds.flatMap (Marked.initialise env.opened)) := by
  induction ds with
  | nil => exact .pure .nil
  | cons d ds ih =>
    have values : Writes (Lower.exprs env 1 d.values) (Marked.uses (Marked.exprs env.opened [] 1 d.values).flatten)
        fun texts => texts.isEmpty = d.values.isEmpty ∧
          Shows env.runtime (Marked.separated (Marked.exprs env.opened [] 1 d.values)) (", ".intercalate texts) := by
      refine (exprs_runs env [] 1 d.values).writes (exprs_add through [] 1 d.values) ⟨?_, ?_⟩
      · cases d.values <;> rw [Lexical.exprs] <;> rfl
      · exact (exprs_open through [] 1 d.values).separated.shows (exprs_marks through [] 1 d.values).separated
    have noted : Marked.uses (Marked.initialise env.opened d) =
        Marked.uses (Marked.exprs env.opened [] 1 d.values).flatten := by
      rw [Marked.initialise]
      split
      · rename_i empty
        rw [List.isEmpty_iff.mp empty, Marked.exprs]
        rfl
      · simp only [Marked.uses_line, Marked.uses_append, Marked.uses_lit, Marked.uses_separated, Uses.none_union]
    rw [List.flatMap_cons, WritesDoc, Marked.uses_append, noted, Lower.initialise]
    refine values.bind fun texts given => (ih.bind fun rest shows => ?_).congr (Uses.union_none _)
    rw [Marked.initialise, ← given.1]
    split
    · exact .pure shows
    · have assigned := ((Shows.lit (", ".intercalate (d.names.map fun n => "c." ++ n.value) ++ " = ")).append
        given.2).line 1
      exact .pure (assigned.lines shows)

theorem constructorDoc_writes (c : Component) :
    WritesDoc env.runtime (Lower.constructorDoc env c) (Marked.constructorDoc env.opened c) := by
  refine ((constructorHead_writes c).bind fun head shows => (initialise_writes through c.body.vars).map
    fun values shows' => ?_).congr ?_
  · refine Shows.congr ((((Shows.plain _).lines shows).lines shows').lines (.plain _)) ?_
    simp only [List.append_assoc]
  · simp only [Marked.constructorDoc, Marked.uses_append, Marked.uses_plain, Uses.none_union, Uses.union_none]

theorem renderMethod_opens (c : Component) :
    Opens env.runtime (Marked.renderMethod env.opened c) (Marked.renderMethod env c) := by
  have head := ((((Opens.lit "func (c *").append (.mention c.name.value)).append (.lit ") Render() ")).append
    (runtime_opens env "Node")).append (.lit " \x7b")
  have root := (Opens.lit "return ").append
    (nodeList_opens through (Locals.extend [] (Lexical.declared c.body.stmts)) 1 c.body.nodes)
  have body := (Opens.bind ⟨.generator, "c"⟩).append ((stmts_opens through [] 1 c.body.stmts).append (root.line 1))
  have ended : Opens env.runtime Marked.methodEnd Marked.methodEnd :=
    (Opens.line (.lit "\x7d") 0).append (.lit "\n")
  exact ((Opens.line (.lit _) 0).append (head.line 0)).append (body.scope.append ended)

theorem renderDoc_adds (c : Component) :
    Adds (Lower.renderDoc env c) (Marked.uses (Marked.renderMethod env.opened c)) := by
  refine ((runtime_adds "Node").then fun _ => (stmts_add through [] 1 c.body.stmts).then fun _ =>
    (nodeList_adds through (Locals.extend [] (Lexical.declared c.body.stmts)) 1 c.body.nodes).map).congr ?_
  simp only [Marked.renderMethod, Marked.methodHead, Marked.methodBody, Marked.methodEnd, Marked.uses_append,
    Marked.uses_line, Marked.uses_lit, Marked.uses_mention, Marked.uses_runtime, Marked.uses_scope, Marked.uses_bind,
    Marked.uses_nil, Uses.none_union, Uses.union_none]

/-- What the statements of the method declare is still in scope behind it, so it does not end outside all scopes. -/
theorem renderDoc_emitted (c : Component) :
    Emits env.runtime (.ofLower (Lower.renderDoc env c)) (Marked.renderMethod env.opened c) where
  shown := by
    have opens := renderMethod_opens through c
    refine ⟨?_, opens.formatted⟩
    rw [opens.fills]
    exact renderMethod_shown c through
  noted := (renderDoc_adds through c .start).1

/-- The body of a plain function: its parameters and variables are in scope in its statements. -/
theorem functionBody_writes (names : List Name) (vars rest : List Stmt) :
    let locals := Locals.extend [] (names.map (·.value))
    WritesDoc env.runtime (Lower.inScope do
      Lower.declareAll names
      let vars ← Lower.stmts env 1 vars
      let rest ← Lower.stmts env 1 rest
      pure (vars ++ rest))
      [.scope (Marked.binds (names.map (·.value)) ++ Marked.stmts env.opened locals 1 vars ++
        Marked.stmts env.opened (locals.extend (Lexical.declared vars)) 1 rest)] := by
  intro locals
  have first := stmts_runs env locals 1 vars
  have second := stmts_runs env (locals.extend (Lexical.declared vars)) 1 rest
  have noted := (stmts_add through locals 1 vars).then fun lines =>
    (stmts_add through (locals.extend (Lexical.declared vars)) 1 rest).map (f := fun rest => lines ++ rest)
  refine Runs.writes (.inScope ((declareAll_runs names).bind (first.bind (second.map _))))
    (((declareAll_adds names).then fun _ => noted).inScope.congr ?_) ?_
  · simp only [Marked.uses_scope, Marked.uses_nil, Marked.uses_append, Marked.uses_binds, Uses.none_union,
      Uses.union_none]
  · have shows := (stmts_opens through locals 1 vars).shows (stmts_marks through locals 1 vars)
    have shows' := (stmts_opens through (locals.extend (Lexical.declared vars)) 1 rest).shows
      (stmts_marks through _ 1 rest)
    have opened : Shows env.runtime (Marked.binds (names.map (·.value))) (Doc.render "\t" []) :=
      (Opens.binds _).shows (.binds _)
    exact ((opened.lines shows).lines shows').scope

theorem functionDoc_writes (c : Component) :
    WritesDoc env.runtime (Lower.functionDoc env c) (Marked.functionDoc env.opened c) := by
  have bound : (c.params.map (·.name)).map (·.value) = c.params.map (·.name.value) := List.map_map
  have body := functionBody_writes through (c.params.map (·.name)) (c.body.vars.map .var) c.body.stmts
  rw [bound] at body
  refine ((params_write c.params).bind fun ps shows => body.map fun doc shows' => ?_).congr ?_
  · have head := (((Shows.lit ("func " ++ c.name.value ++ "(")).append shows).append (.lit ") \x7b")).line 0
    refine Shows.congr ((head.lines shows').lines (.plain _)) ?_
    simp only [Doc.line, List.append_assoc]
  · simp only [Marked.functionDoc, Marked.uses_append, Marked.uses_line, Marked.uses_lit, Marked.uses_plain,
      Marked.uses_separated, Uses.none_union, Uses.union_none]

end

end

section

variable {runtime : String}

theorem Emits.empty : Emits runtime .empty [] := ⟨.nil, rfl⟩

theorem Emits.append {first second : Emitted} {code behind : Marked} (left : Emits runtime first code)
    (right : Emits runtime second behind) : Emits runtime (first.append second) (code ++ behind) where
  shown := left.shown.lines right.shown
  noted := by
    rw [Marked.uses_append, ← left.noted, ← right.noted]
    rfl

theorem Emits.concat {es : List Emitted} {codes : List Marked} (each : List.Forall₂ (Emits runtime) es codes) :
    Emits runtime (.concat es) codes.flatten := by
  have behind {e : Emitted} {code : Marked} (first : Emits runtime e code) :
      Emits runtime (es.foldl .append e) (code ++ codes.flatten) := by
    induction each generalizing e code with
    | nil =>
      rw [List.flatten_nil, List.append_nil]
      exact first
    | cons second _ ih =>
      rw [List.foldl_cons, List.flatten_cons, ← List.append_assoc]
      exact ih (first.append second)
  exact behind .empty

theorem typeRows_show (fields : List Field) :
    RowsShow runtime
      ((fields.map (·.name.value)).zip (Marked.typeExprs standIn (fields.map (·.ty.value))))
      ((fields.map (·.name.value)).zip (types runtime (fields.map (·.ty.value))).1) := by
  induction fields with
  | nil => exact .nil
  | cons f fields ih =>
    rw [List.map_cons, List.map_cons, Marked.typeExprs, types, List.zip_cons_cons]
    exact .cons ⟨rfl, (typeExpr_opens runtime f.ty.value).shows (typeExpr_marks runtime f.ty.value)⟩ ih

theorem typeRows_use (fields : List Field) :
    rowsUses ((fields.map (·.name.value)).zip (Marked.typeExprs standIn (fields.map (·.ty.value)))) =
      ⟨false, (fieldRows runtime fields).2⟩ := by
  rw [fieldRows, ← typeExprs_uses]
  induction fields with
  | nil => rfl
  | cons f fields ih =>
    rw [List.map_cons, List.map_cons, Marked.typeExprs, List.zip_cons_cons, rowsUses_cons, ih, List.flatten_cons,
      Marked.uses_append]

theorem typeDef_emits (d : TypeDef) : Emits runtime (typeDef runtime d) (Marked.typeDef standIn d) where
  shown := (structDoc_shows d.name.value (typeRows_show d.fields)).lines (.plain _)
  noted := by
    rw [Marked.typeDef, Marked.uses_append, Marked.uses_plain, Uses.union_none, Marked.uses_structDoc, typeRows_use]
    rfl

theorem plainEnv_throughReceiver (u : SourceUnit) : ThroughReceiver (plainEnv runtime u) where
  field found := by cases found
  latest found := by cases found

theorem component_emits (u : SourceUnit) (c : Component) :
    Emits runtime (component runtime u c) (Marked.component standIn u c) := by
  have outside : ThroughReceiver (plainEnv runtime u) := plainEnv_throughReceiver u
  have through := componentEnv_throughReceiver runtime u c
  rw [component, Marked.component]
  split
  · have props : Emits runtime (if c.autoProps then .ofLower (Lower.propsDoc (plainEnv runtime u) c) else .empty)
        (if c.autoProps then Marked.propsDoc (plainEnv standIn u) c else []) := by
      split
      · exact Writes.emitted (propsDoc_writes c)
      · exact .empty
    have struct : Emits runtime (.ofLower (Lower.structDecl (plainEnv runtime u) c))
        (Marked.structDecl (plainEnv standIn u) c) := Writes.emitted (structDecl_writes c)
    have constructor := (constructorDoc_writes through c).emitted
    have render := renderDoc_emitted through c
    have mount : Emits runtime (.ofLower (Lower.mountDoc (plainEnv runtime u) c))
        (Marked.mountDoc (plainEnv standIn u) c) := Writes.emitted (mountDoc_writes c)
    have unmount : Emits runtime (.ofDoc (unmountDoc c)) (Marked.plain (unmountDoc c)) := ⟨.plain _, rfl⟩
    have update : Emits runtime (.ofLower (Lower.updateDoc (plainEnv runtime u) c))
        (Marked.updateDoc (plainEnv standIn u) c) := Writes.emitted (updateDoc_writes c)
    have all : Emits runtime (renderable runtime u c) _ := Emits.concat (.cons props (.cons struct (.cons constructor
      (.cons render (.cons mount (.cons unmount (.cons update .nil)))))))
    simp only [List.flatten_cons, List.flatten_nil, List.append_nil, ← List.append_assoc] at all
    exact all
  · exact (functionDoc_writes outside c).emitted

/-- The declarations of a unit show their marked code, and they need what it refers to. -/
theorem declarations_emitted (runtime : String) (u : SourceUnit) :
    Emits runtime (declarations runtime u) (Marked.declarations standIn u) := by
  have types (ds : List TypeDef) :
      List.Forall₂ (Emits runtime) (ds.map (typeDef runtime)) (ds.map (Marked.typeDef standIn)) := by
    induction ds with
    | nil => exact .nil
    | cons d ds ih => exact .cons (typeDef_emits d) ih
  have components (cs : List Component) :
      List.Forall₂ (Emits runtime) (cs.map (component runtime u)) (cs.map (Marked.component standIn u)) := by
    induction cs with
    | nil => exact .nil
    | cons c cs ih => exact .cons (component_emits u c) ih
  have all := Emits.concat (List.rel_append (types u.types) (components u.components))
  rw [List.flatten_append] at all
  exact all

end

end ViewLang.Go
