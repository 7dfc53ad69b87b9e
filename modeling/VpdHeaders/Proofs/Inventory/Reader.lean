import VpdHeaders.Proofs.Description.Reader
import VpdHeaders.Proofs.Inventory.Value

/-! # The reader of inventory objects -/
namespace VpdHeaders.Inventory
open Description

def layout : Layout := ⟨.objectPath, .extraProperties, Tree.isNull⟩

def buildEvent (o : Object) : Event := .builtObject o.path o.interfaces.length

def reader : Reader Object Interface Property where
  toLayout := layout
  expected := .objectMapping
  checkName _ := .ok ()
  item := Object.mk
  built := buildEvent
  interface := Interface.mk
  claim _ _ _ := .ok ()
  property path interface name value :=
    (readLiteral [path, interface, name] value).map (Property.mk name)
  level_built _ := rfl
  missing_eq_false {path interface name value p} h := by
    cases hl : literal? value with
    | none => simp [readLiteral, hl, Except.map] at h
    | some l => exact (literal?_eq_some_iff.mp hl).isNull_eq_false

variable (policy : EmptyPolicy)

private theorem readProperty_eq : readProperty policy = reader.readProperty policy := by
  funext path interface name value
  rw [readProperty, Reader.readProperty]
  simp only [reader, Traced.lift_map_bind]
  rfl

private theorem readInterface_eq (path : String) :
    (fun _ => readInterface policy path) = reader.readInterface policy path := by
  funext earlier name value
  have hproperties : readProperties policy path name = reader.readProperties policy path name := by
    rw [readProperties, readProperty_eq, Reader.readProperties]
  rw [readInterface, hproperties, Reader.readInterface]
  rfl

theorem readOne_eq : readOne policy = reader.readItem policy := by
  funext path value
  have hinterfaces : readInterfaces policy path = reader.readInterfaces policy path := by
    rw [readInterfaces, readInterface_eq, Reader.readInterfaces]
  rw [readOne, hinterfaces, Reader.readItem]
  rfl

theorem listOfTree_eq : listOfTree policy = reader.read policy := by
  funext t
  rw [listOfTree, readAll, readOne_eq, Reader.read, Reader.readItems]
  rfl

end VpdHeaders.Inventory
