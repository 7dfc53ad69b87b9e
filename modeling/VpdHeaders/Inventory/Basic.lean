/-! # Inventory objects with properties fixed in advance -/
namespace VpdHeaders

inductive Literal
  | boolean (value : Bool)
  | integer (value : Int64)
  | string (value : String)
  deriving DecidableEq, Repr

namespace Inventory

structure Property where
  name : String
  value : Literal
  deriving DecidableEq, Repr

structure Interface where
  name : String
  properties : List Property
  deriving DecidableEq, Repr

structure Object where
  path : String
  interfaces : List Interface
  deriving DecidableEq, Repr

end VpdHeaders.Inventory
