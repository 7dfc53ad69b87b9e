import VpdHeaders.Text.Fields

/-! # Places in a description -/
namespace VpdHeaders

/-- The keys that lead to a value, outermost first. -/
abbrev Location := List String

/-- The keys with slashes between them. -/
def Location.path (l : Location) : String := Text.joined "/" l

/-- The same, with a word for the document as a whole. -/
def Location.text : Location → String
  | [] => "<root>"
  | l => Location.path l

inductive EntryKind | fru | objectPath | interface | property
  deriving DecidableEq, Repr

def EntryKind.name : EntryKind → String
  | .fru => "FRU"
  | .objectPath => "object path"
  | .interface => "interface"
  | .property => "property"

end VpdHeaders
