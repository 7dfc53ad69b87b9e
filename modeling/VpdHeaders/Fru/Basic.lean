import VpdHeaders.Reference

/-! # Field replaceable units and the properties they export -/
namespace VpdHeaders

structure Binding where
  name : String
  reference : Reference
  deriving DecidableEq, Repr

/-- A dotted interface name, the variable that stands for it in generated code, its properties. -/
structure Interface where
  name : String
  identifier : String
  properties : List Binding
  deriving DecidableEq, Repr

structure Fru where
  name : String
  interfaces : List Interface
  deriving DecidableEq, Repr

def Fru.propertyCount (f : Fru) : Nat :=
  f.interfaces.foldr (fun i n => i.properties.length + n) 0

end VpdHeaders
