namespace ViewLang.Toml

inductive Origin
  | header
  | implied
  | dotted
  | inline_
deriving Repr, DecidableEq

inductive Value
  | string (s : String)
  | boolean (b : Bool)
  | integer (n : Option Int)
  /-- A number with a fraction or an exponent, as written, and whether a machine number holds it. -/
  | float (text : String) (finite : Bool)
  | datetime (text : String)
  | array (items : List Value)
  | tables (items : List (List (String × Value)))
  | table (origin : Origin) (entries : List (String × Value))
deriving Repr

abbrev Table := List (String × Value)

mutual

def Value.fits : Value → Bool
  | .integer n => n.isSome
  | .float _ finite => finite
  | .array vs => Value.fitAll vs
  | .tables ts => Table.fitAll ts
  | .table _ t => Table.fits t
  | .string _ => true
  | .boolean _ => true
  | .datetime _ => true

def Value.fitAll : List Value → Bool
  | [] => true
  | v :: vs => v.fits && Value.fitAll vs

def Table.fitAll : List (List (String × Value)) → Bool
  | [] => true
  | t :: ts => Table.fits t && Table.fitAll ts

def Table.fits : List (String × Value) → Bool
  | [] => true
  | e :: es => Table.entryFits e && Table.fits es

def Table.entryFits : String × Value → Bool
  | (_, v) => v.fits

end

namespace Table

def replace (t : Table) (key : String) (v : Value) : Table :=
  t.map fun (k, old) => if k = key then (k, v) else (k, old)

def changeLast (f : Table → Option Table) : List Table → Option (List Table)
  | [] => none
  | [t] => (f t).map fun t => [t]
  | t :: ts => (changeLast f ts).map (t :: ·)

/-- Define `path` as `v`, with tables for the keys before the last. A table that only headers inside it imply is
defined by this. Of tables that share a header, the last takes new tables, and no values. -/
def define (v : Value) : List String → Table → Option Table
  | [], _ => none
  | [key], t => if (t.lookup key).isSome then none else some (t ++ [(key, v)])
  | key :: path, t =>
    match t.lookup key with
    | none => (define v path []).map fun inner => t ++ [(key, .table .dotted inner)]
    | some (.table .dotted inner) | some (.table .implied inner) =>
      (define v path inner).map fun inner => t.replace key (.table .dotted inner)
    | some (.tables ts) =>
      if path.length = 1 then none
      else (changeLast (define v path) ts).map fun ts => t.replace key (.tables ts)
    | some _ => none

def changeAt (f : Table → Option Table) : List String → Table → Option Table
  | [], t => f t
  | key :: path, t =>
    match t.lookup key with
    | none => (changeAt f path []).map fun inner => t ++ [(key, .table .implied inner)]
    | some (.table .inline_ _) => none
    | some (.table origin inner) => (changeAt f path inner).map fun inner => t.replace key (.table origin inner)
    | some (.tables ts) => (changeLast (changeAt f path) ts).map fun ts => t.replace key (.tables ts)
    | some _ => none

def openTable (key : String) (t : Table) : Option Table :=
  match t.lookup key with
  | none => some (t ++ [(key, .table .header [])])
  | some (.table .implied inner) => some (t.replace key (.table .header inner))
  | some _ => none

def openNext (key : String) (t : Table) : Option Table :=
  match t.lookup key with
  | none => some (t ++ [(key, .tables [[]])])
  | some (.tables ts) => some (t.replace key (.tables (ts ++ [[]])))
  | some _ => none

end Table

inductive Statement
  | pair (path : List String) (v : Value)
  | header (path : List String)
  | nextHeader (path : List String)
deriving Repr

/-- The table that statements define; `current` is the path of the last header. -/
def Table.ofStatements (current : List String) : Table → List Statement → Option Table
  | t, [] => some t
  | t, .pair path v :: rest => do
    let t ← t.changeAt (Table.define v path) current
    ofStatements current t rest
  | t, .header path :: rest => do
    let key ← path.getLast?
    let t ← t.changeAt (Table.openTable key) path.dropLast
    ofStatements path t rest
  | t, .nextHeader path :: rest => do
    let key ← path.getLast?
    let t ← t.changeAt (Table.openNext key) path.dropLast
    ofStatements path t rest

def Table.ofPairs : Table → List (List String × Value) → Option Table
  | t, [] => some t
  | t, (path, v) :: rest => do
    let t ← t.define v path
    ofPairs t rest

end ViewLang.Toml
