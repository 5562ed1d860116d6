namespace ViewLang.Vocabulary

def tags : List (String × String) :=
  [("A", "a"), ("Article", "article"), ("Aside", "aside"), ("Br", "br"), ("Button", "button"), ("Canvas", "canvas"),
    ("Code", "code"), ("Div", "div"), ("Em", "em"), ("Footer", "footer"), ("Form", "form"), ("H1", "h1"),
    ("H2", "h2"), ("H3", "h3"), ("H4", "h4"), ("H5", "h5"), ("H6", "h6"), ("Header", "header"), ("Hr", "hr"),
    ("Img", "img"), ("Input", "input"), ("Label", "label"), ("Li", "li"), ("Main", "main"), ("Nav", "nav"),
    ("Ol", "ol"), ("Option", "option"), ("P", "p"), ("Pre", "pre"), ("Section", "section"), ("Select", "select"),
    ("Span", "span"), ("Strong", "strong"), ("Table", "table"), ("Td", "td"), ("Textarea", "textarea"),
    ("Th", "th"), ("Tr", "tr"), ("Ul", "ul")]

def props : List (String × String) :=
  [("Alt", "alt"), ("Checked", "checked"), ("Class", "class"), ("Disabled", "disabled"), ("Href", "href"),
    ("Id", "id"), ("Key", "key"), ("OnChange", "onChange"), ("OnClick", "onClick"), ("OnInput", "onInput"),
    ("OnKeyDown", "onKeyDown"), ("OnMouseEnter", "onMouseEnter"), ("OnMouseLeave", "onMouseLeave"),
    ("OnSubmit", "onSubmit"), ("Placeholder", "placeholder"), ("Src", "src"), ("Style", "style"),
    ("Title", "title"), ("Value", "value")]

def tag? (name : String) : Option String := tags.lookup name

def prop? (name : String) : Option String := props.lookup name

def isReserved (name : String) : Bool := (tag? name).isSome || (prop? name).isSome

end ViewLang.Vocabulary
