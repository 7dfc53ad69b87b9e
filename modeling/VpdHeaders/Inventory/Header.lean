import VpdHeaders.Cpp.Literal
import VpdHeaders.Cpp.Source
import VpdHeaders.Inventory.Reading
import VpdHeaders.Text.Lines

/-! # The header that holds the constant map of inventory objects -/
namespace VpdHeaders

/-- A C++ expression of the literal's kind and value. The least integer is written as a difference,
since its digits alone are out of range; a bare string literal would be taken for a boolean. -/
def Literal.expression : Literal → String
  | .boolean b => if b then "true" else "false"
  | .integer n =>
    if n = Int64.minValue then "(-9223372036854775807 - 1)" else toString n.toInt
  | .string s => "std::string(" ++ Cpp.literal s ++ ")"

namespace Inventory

def Property.line (p : Property) : String :=
  "            \x7b" ++ Cpp.literal p.name ++ ", " ++ p.value.expression ++ "\x7d,"

def Interface.lines (i : Interface) : List String :=
  ["        \x7b" ++ Cpp.literal i.name ++ ",\x7b"] ++ i.properties.map Property.line ++
    ["        \x7d\x7d,"]

def Object.lines (o : Object) : List String :=
  ["    \x7b" ++ Cpp.literal o.path ++ ",\x7b"] ++ o.interfaces.flatMap Interface.lines ++
    ["    \x7d\x7d,"]

def headerLines (scope : List String) (objects : List Object) : List String :=
  let inner := scope ++ ["extra"]
  Cpp.preamble ["types.hpp"] ["map", "string"] ++ Cpp.openScope inner ++
  ["", "const std::map<Path, InterfaceMap> objects = \x7b"] ++
  objects.flatMap Object.lines ++ ["\x7d;", ""] ++
  Cpp.closeScope inner

/-- The complete header; the map stands in a namespace `extra` of its own. -/
def header (scope : List String) (objects : List Object) : String :=
  Text.unlines (headerLines scope objects)

def render (scope : List String) (policy : EmptyPolicy) (t : Tree) : Traced String := do
  let objects ← listOfTree policy t
  Traced.log (.builtObjects objects.length)
  return header scope objects

end VpdHeaders.Inventory
