/-! # Tables of settings, and how a document may add to them -/
namespace VpdHeaders.Toml

/-- A complete value. Numbers and dates are all alike here: no setting holds one. -/
inductive Value
  | string (text : String)
  | boolean (value : Bool)
  | number
  | array (items : List Value)
  | table (entries : List (String × Value))

/-- What a key of an unfinished table leads to. A table is `implied` while only longer keys and
headers have named it, and `dotted` if a dotted key did so first. -/
inductive Item
  | value (v : Value)
  | table (implied dotted : Bool) (entries : List (String × Item))
  | tables (elements : List (List (String × Item)))

abbrev Entries := List (String × Item)

namespace Entries

def set (es : Entries) (key : String) (item : Item) : Entries :=
  if (es.lookup key).isSome then es.map fun e => if e.1 == key then (key, item) else e
  else es ++ [(key, item)]

/-- Changes the entries that a path leads to. A dotted path makes dotted tables of what is missing,
and may not enter a table that a header defined; of an array of tables the last one counts. -/
def alter (dotted : Bool) (change : Bool → Entries → Option Entries) (here : Bool) :
    List String → Entries → Option Entries
  | [], es => change here es
  | key :: path, es =>
    match es.lookup key with
    | none => do
      let inner ← alter dotted change dotted path []
      return es.set key (.table true dotted inner)
    | some (.value _) => none
    | some (.table implied isDotted inner) =>
      if dotted && !implied then none
      else do
        let inner ← alter dotted change isDotted path inner
        return es.set key (.table implied isDotted inner)
    | some (.tables elements) =>
      match elements.getLast? with
      | none => none
      | some last => do
        let last ← alter dotted change false path last
        return es.set key (.tables (elements.dropLast ++ [last]))

/-- Adds a value under a dotted key. Every key can be given only once, and a dotted key adds only
to tables that dotted keys have made. -/
def insert (path : List String) (key : String) (v : Value) (es : Entries) : Option Entries :=
  alter true (fun isDotted es =>
    if isDotted == path.isEmpty || (es.lookup key).isSome then none
    else some (es ++ [(key, .value v)])) false path es

def insertAll (es : Entries) : List (List String × String × Value) → Option Entries
  | [] => some es
  | (path, key, v) :: rest => do insertAll (← insert path key v es) rest

end Entries

mutual

def Item.finish : Item → Value
  | .value v => v
  | .table _ _ entries => .table (finishEntries entries)
  | .tables elements => .array (finishElements elements)

def finishEntries : List (String × Item) → List (String × Value)
  | [] => []
  | (key, item) :: rest => (key, item.finish) :: finishEntries rest

def finishElements : List (List (String × Item)) → List Value
  | [] => []
  | entries :: rest => .table (finishEntries entries) :: finishElements rest

end

end VpdHeaders.Toml
