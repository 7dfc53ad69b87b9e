import VpdHeaders.Cpp.Literal
import VpdHeaders.Cpp.Source
import VpdHeaders.Fru.Reading
import VpdHeaders.Text.Lines

/-! # The accessor header: one specialization of `writeFru` per unit -/
namespace VpdHeaders

def Reference.lookup (r : Reference) : String :=
  "vpdStore.get<Record::" ++ r.record ++ ", record::Keyword::" ++ r.keyword ++ ">()"

inductive Statement
  | declare (container : String)
  | assign (container key : String) (value : Reference)
  | emplace (key container : String)
  deriving DecidableEq, Repr

def Statement.lines : Statement → List String
  | .declare container => ["    Inner " ++ container ++ ";"]
  | .assign container key value =>
    ["    " ++ container ++ "[" ++ Cpp.literal key ++ "] =", "        " ++ value.lookup ++ ";"]
  | .emplace key container =>
    ["    object.emplace(" ++ Cpp.literal key ++ ", std::move(" ++ container ++ "));"]

namespace Interface

def statements (i : Interface) : List Statement :=
  .declare i.identifier :: i.properties.map fun p => .assign i.identifier p.name p.reference

def lines (i : Interface) : List String := i.statements.flatMap Statement.lines

def emplacement (i : Interface) : Statement := .emplace i.name i.identifier

end Interface

namespace Fru

/-- The head of a specialization; the second parameter stands below the first. -/
def signature (f : Fru) : List String :=
  let head := "inline void writeFru<Fru::" ++ f.name ++ ">("
  ["// Specialization of " ++ f.name,
   "template <>",
   head ++ "const Store& vpdStore,",
   String.ofList (List.replicate head.utf8ByteSize ' ') ++ "const std::string& path)"]

def lines (f : Fru) : List String :=
  f.signature ++
  ["\x7b",
   "    Outer object;",
   "",
   "    // Inventory manager needs object path, list of interface names to be",
   "    // implemented, and property:value pairs contained in said interfaces"] ++
  f.interfaces.flatMap (fun i => "" :: i.lines) ++
  (if f.interfaces.isEmpty then [] else [""]) ++
  f.interfaces.flatMap (fun i => i.emplacement.lines) ++
  ["", "    print(std::move(object), path);", "\x7d"]

/-- The declarations that every specialization relies on. -/
def prelude : List String :=
  ["using Inner = Parsed::mapped_type;",
   "using Outer = std::map<std::string, Inner>;",
   "",
   "// Dumps the assembled inventory object to stdout.",
   "inline auto print = [](Outer&& object, const std::string& path) \x7b",
   "    std::cout << \"\\n\";",
   "    std::cout << path << \"\\n\";",
   "    std::cout << \"\\n\";",
   "    for (const auto& o : object)",
   "    \x7b",
   "        std::cout << o.first << \"\\n\";",
   "        for (const auto& i : o.second)",
   "        \x7b",
   "            std::cout << i.first << \" : \" << i.second << \"\\n\";",
   "        \x7d",
   "        std::cout << \"\\n\";",
   "    \x7d",
   "\x7d;",
   "",
   "/** @brief API to write parsed VPD to inventory,",
   " *      for a specific FRU",
   " *",
   " *  @param [in] vpdStore - Store object containing",
   " *      parsed VPD",
   " *  @param [in] path - FRU object path",
   " */",
   "template <Fru F>",
   "void writeFru(const Store& vpdStore, const std::string& path);"]

def headerLines (scope : List String) (frus : List Fru) : List String :=
  Cpp.preamble ["defines.hpp", "store.hpp"] ["iostream", "map"] ++
  Cpp.openScope scope ++ [""] ++ prelude ++
  frus.flatMap (fun f => "" :: f.lines) ++ [""] ++
  Cpp.closeScope scope

def header (scope : List String) (frus : List Fru) : String :=
  Text.unlines (headerLines scope frus)

def render (scope : List String) (policy : EmptyPolicy) (t : Tree) : Traced String := do
  let frus ← listOfTree policy t
  let properties := frus.foldr (fun f n => f.propertyCount + n) 0
  Traced.log (.builtFrus frus.length properties)
  return header scope frus

end VpdHeaders.Fru
