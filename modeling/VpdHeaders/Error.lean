import VpdHeaders.Location
import VpdHeaders.OsError
import VpdHeaders.Reference
import VpdHeaders.Scope
import VpdHeaders.Tree

/-! # What can stop a generator run -/
namespace VpdHeaders

inductive Expectation
  | fruMapping | objectMapping | interfaceMapping | propertyMapping
  | stringKey | reference | literal
  deriving DecidableEq, Repr

def Expectation.text : Expectation → String
  | .fruMapping => "mapping of FRU names"
  | .objectMapping => "mapping of object paths"
  | .interfaceMapping => "mapping of interface names"
  | .propertyMapping => "mapping of property names"
  | .stringKey => "string key"
  | .reference => "\"record,keyword\" string"
  | .literal => "boolean, 64-bit signed integer or string"

inductive NameFault
  | notIdentifier
  | reserved (reservation : Identifier.Reservation)
  deriving DecidableEq, Repr

def NameFault.message : NameFault → String
  | .notIdentifier => "FRU names become Fru:: enumerators and must be C++ identifiers"
  | .reserved r => "FRU name " ++ r.reason

inductive ConfigFault
  | unreadable (fault : FileFault)
  | malformed
  | scope (fault : Scope.Fault)
  deriving DecidableEq, Repr

def ConfigFault.message : ConfigFault → String
  | .unreadable fault => fault.message
  | .malformed => "malformed document"
  | .scope fault => fault.message

inductive Error
  | load (path : String) (fault : FileFault)
  | malformed (origin : String)
  | shape (location : Location) (expected : Expectation) (found : Tree)
  | emptyName (location : Location) (kind : EntryKind)
  | invalidName (location : Location) (name : String) (fault : NameFault)
  | malformedReference (fru interface property raw : String) (fault : Reference.Fault)
  | identifierCollision (fru identifier first second : String)
  | reservedIdentifier (fru interface identifier : String)
  | config (path : String) (fault : ConfigFault)
  | write (path : String) (fault : FileFault)

def Error.message : Error → String
  | .load path fault => "failed to read description " ++ path ++ ": " ++ fault.message
  | .malformed origin => "failed to parse description " ++ origin ++ ": malformed document"
  | .shape location expected found =>
    "unexpected shape at " ++ location.text ++ ": expected " ++ expected.text ++ ", found " ++
      found.kind
  | .emptyName location kind => "empty " ++ kind.name ++ " name at " ++ location.text
  | .invalidName location name fault =>
    "invalid name '" ++ name ++ "' at " ++ location.text ++ ": " ++ fault.message
  | .malformedReference fru interface property raw fault =>
    "malformed value reference '" ++ raw ++ "' for " ++ fru ++ "/" ++ interface ++ "/" ++
      property ++ ": " ++ fault.message
  | .identifierCollision fru identifier first second =>
    "interfaces '" ++ first ++ "' and '" ++ second ++ "' of FRU " ++ fru ++
      " both derive identifier '" ++ identifier ++ "'"
  | .reservedIdentifier fru interface identifier =>
    "interface '" ++ interface ++ "' of FRU " ++ fru ++ " derives reserved identifier '" ++
      identifier ++ "'"
  | .config path fault => "invalid configuration " ++ path ++ ": " ++ fault.message
  | .write path fault => "failed to write " ++ path ++ ": " ++ fault.message

end VpdHeaders
