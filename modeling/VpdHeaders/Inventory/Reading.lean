import VpdHeaders.Description
import VpdHeaders.Inventory.Basic

/-! # The inventory objects that a description tree describes -/
namespace VpdHeaders.Inventory

/-- Booleans, strings and signed 64-bit integers have a literal; nothing else does. -/
def literal? : Tree → Option Literal
  | .boolean b => some (.boolean b)
  | .string s => some (.string s)
  | t => t.int64?.map .integer

def readLiteral (location : Location) (t : Tree) : Except Error Literal :=
  match literal? t with
  | some l => .ok l
  | none => .error (.shape location .literal t)

/-- A property, or nothing where the policy drops it. -/
def readProperty (policy : EmptyPolicy) (path interface property : String) (value : Tree) :
    Traced (Option Property) := do
  let location := [path, interface, property]
  if !(← Description.keepsName policy .property location property) then return none
  if policy = .skip && value.isNull then
    Traced.log (.skippedValue .extraProperties location)
    return none
  let literal ← Traced.lift (readLiteral location value)
  return some ⟨property, literal⟩

def readProperties (policy : EmptyPolicy) (path interface : String) :
    List (String × Tree) → Traced (List Property) :=
  Description.collect (fun _ => readProperty policy path interface) []

def readInterface (policy : EmptyPolicy) (path interface : String) (value : Tree) :
    Traced (Option Interface) := do
  let location := [path, interface]
  if !(← Description.keepsName policy .interface location interface) then return none
  let entries ← Description.namedEntries location .propertyMapping value
  let properties ← readProperties policy path interface entries
  return some ⟨interface, properties⟩

def readInterfaces (policy : EmptyPolicy) (path : String) :
    List (String × Tree) → Traced (List Interface) :=
  Description.collect (fun _ => readInterface policy path) []

def readOne (policy : EmptyPolicy) (path : String) (value : Tree) : Traced (Option Object) := do
  if !(← Description.keepsName policy .objectPath [path] path) then return none
  let entries ← Description.namedEntries [path] .interfaceMapping value
  let interfaces ← readInterfaces policy path entries
  Traced.log (.builtObject path interfaces.length)
  return some ⟨path, interfaces⟩

def readAll (policy : EmptyPolicy) : List (String × Tree) → Traced (List Object) :=
  Description.collect (fun _ => readOne policy) []

def listOfTree (policy : EmptyPolicy) (t : Tree) : Traced (List Object) := do
  readAll policy (← Description.namedEntries [] .objectMapping t)

end VpdHeaders.Inventory
