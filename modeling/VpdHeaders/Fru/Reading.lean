import VpdHeaders.Description
import VpdHeaders.Fru.Basic

/-! # The units that a description tree describes -/
namespace VpdHeaders.Fru

def nameFault? (name : String) : Option NameFault :=
  if !Identifier.isValid name then some .notIdentifier
  else (Identifier.reservation? name).map .reserved

/-- A value that the lenient policy takes for a missing one. -/
def isMissing : Tree → Bool
  | .null => true
  | .string raw => Text.isBlankText raw
  | _ => false

def readReference (fru interface property : String) : Tree → Except Error Reference
  | .string raw =>
    (Reference.parse raw).mapError (.malformedReference fru interface property raw)
  | found => .error (.shape [fru, interface, property] .reference found)

/-- A property, or nothing where the policy drops it. -/
def readProperty (policy : EmptyPolicy) (fru interface property : String) (value : Tree) :
    Traced (Option Binding) := do
  let location := [fru, interface, property]
  if !(← Description.keepsName policy .property location property) then return none
  if policy = .skip && isMissing value then
    Traced.log (.skippedValue .writeFru location)
    return none
  let reference ← Traced.lift (readReference fru interface property value)
  return some ⟨property, reference⟩

def readProperties (policy : EmptyPolicy) (fru interface : String) :
    List (String × Tree) → Traced (List Binding) :=
  Description.collect (fun _ => readProperty policy fru interface) []

/-- An identifier must be free: neither reserved nor taken by an interface before. -/
def claim (fru : String) (earlier : List Interface) (i : Interface) : Except Error Unit :=
  if Identifier.isReserved i.identifier then
    .error (.reservedIdentifier fru i.name i.identifier)
  else match earlier.find? fun other => other.identifier == i.identifier with
    | some other => .error (.identifierCollision fru i.identifier other.name i.name)
    | none => .ok ()

def readInterface (policy : EmptyPolicy) (fru : String) (earlier : List Interface)
    (interface : String) (value : Tree) : Traced (Option Interface) := do
  let location := [fru, interface]
  if !(← Description.keepsName policy .interface location interface) then return none
  let entries ← Description.namedEntries location .propertyMapping value
  let properties ← readProperties policy fru interface entries
  let built : Interface := ⟨interface, Identifier.ofInterface interface, properties⟩
  Traced.lift (claim fru earlier built)
  return some built

def readInterfaces (policy : EmptyPolicy) (fru : String) :
    List (String × Tree) → Traced (List Interface) :=
  Description.collect (readInterface policy fru) []

def readOne (policy : EmptyPolicy) (name : String) (value : Tree) : Traced (Option Fru) := do
  if !(← Description.keepsName policy .fru [name] name) then return none
  if let some fault := nameFault? name then
    Traced.fail (.invalidName [name] name fault)
  let entries ← Description.namedEntries [name] .interfaceMapping value
  let interfaces ← readInterfaces policy name entries
  let fru : Fru := ⟨name, interfaces⟩
  Traced.log (.builtFru name interfaces.length fru.propertyCount)
  return some fru

def readAll (policy : EmptyPolicy) : List (String × Tree) → Traced (List Fru) :=
  Description.collect (fun _ => readOne policy) []

/-- All units of a description, in its order. Every check is local to one unit. -/
def listOfTree (policy : EmptyPolicy) (t : Tree) : Traced (List Fru) := do
  readAll policy (← Description.namedEntries [] .fruMapping t)

end VpdHeaders.Fru
