import VpdHeaders.Fru.Reading
import VpdHeaders.Proofs.Description.Reader
import VpdHeaders.Proofs.Text.Fields

/-! # The reader of units -/
namespace VpdHeaders.Fru
open Description

def layout : Layout := ⟨.fru, .writeFru, isMissing⟩

def buildEvent (f : Fru) : Event := .builtFru f.name f.interfaces.length f.propertyCount

private theorem isMissing_of_readReference {fru interface property : String} {value : Tree}
    {r : Reference} (h : readReference fru interface property value = .ok r) :
    isMissing value = false := by
  cases value with
  | string raw =>
    cases hb : Text.isBlankText raw with
    | false => exact hb
    | true =>
      -- a blank text has no comma, so it is a single token
      have hf := Text.fields_of_not_mem (Text.not_mem_of_isBlankText (c := ',') (by decide) hb)
      simp [readReference, Reference.parse, Text.fieldsOf, hf, Except.mapError] at h
  | null => simp [readReference] at h
  | _ => rfl

def checkName (name : String) : Except Error Unit :=
  match nameFault? name with
  | some fault => .error (.invalidName [name] name fault)
  | none => .ok ()

def reader : Reader Fru Interface Binding where
  toLayout := layout
  expected := .fruMapping
  checkName := checkName
  item := Fru.mk
  built := buildEvent
  interface name := Interface.mk name (Identifier.ofInterface name)
  claim := claim
  property fru interface name value :=
    (readReference fru interface name value).map (Binding.mk name)
  level_built _ := rfl
  missing_eq_false {fru interface name value b} h := by
    cases hr : readReference fru interface name value with
    | error e => simp [hr, Except.map] at h
    | ok r => exact isMissing_of_readReference hr

variable (policy : EmptyPolicy)

private theorem readProperty_eq : readProperty policy = reader.readProperty policy := by
  funext fru interface name value
  rw [readProperty, Reader.readProperty]
  simp only [reader, Traced.lift_map_bind]
  rfl

private theorem readInterface_eq : readInterface policy = reader.readInterface policy := by
  funext fru earlier name value
  have hproperties : readProperties policy fru name = reader.readProperties policy fru name := by
    rw [readProperties, readProperty_eq, Reader.readProperties]
  simp only [readInterface, hproperties, Reader.readInterface, reader]

theorem readOne_eq : readOne policy = reader.readItem policy := by
  funext name value
  have hinterfaces : readInterfaces policy name = reader.readInterfaces policy name := by
    rw [readInterfaces, readInterface_eq, Reader.readInterfaces]
  rw [readOne, hinterfaces, Reader.readItem]
  have hcheck : reader.checkName name = checkName name := rfl
  rw [hcheck, checkName]
  cases nameFault? name <;> rfl

theorem listOfTree_eq : listOfTree policy = reader.read policy := by
  funext t
  rw [listOfTree, readAll, readOne_eq, Reader.read, Reader.readItems]
  rfl

end VpdHeaders.Fru
