import VpdHeaders.Proofs.Description.Violations
import VpdHeaders.Proofs.Fru.WellFormed

/-! # All that is wrong with a description of units -/
namespace VpdHeaders.Fru
open Description

def valueFaults (fru interface property : String) : Tree → List Error
  | .string raw =>
    match Reference.parse raw with
    | .ok _ => []
    | .error fault => [.malformedReference fru interface property raw fault]
  | found => [.shape [fru, interface, property] .reference found]

def propertyFaults (fru interface : String) (p : String × Tree) : List Error :=
  nameFaults .property [fru, interface, p.1] p.1 ++ valueFaults fru interface p.1 p.2

/-- An identifier that is reserved, and one that an interface before has too. The first of these is
the one that is named. -/
def identifierFaults (fru : String) (before : List (String × Tree)) (interface : String) :
    List Error :=
  let identifier := Identifier.ofInterface interface
  (if Identifier.isReserved identifier then
    [.reservedIdentifier fru interface identifier] else []) ++
  (before.find? fun other => Identifier.ofInterface other.1 == identifier).toList.map
    fun first => .identifierCollision fru identifier first.1 interface

/-- The identifier of an interface is looked at after all its properties. -/
def interfaceFaults (policy : EmptyPolicy) (fru : String) (before : List (String × Tree))
    (i : String × Tree) : List Error :=
  nameFaults .interface [fru, i.1] i.1 ++ tableFaults [fru, i.1] .propertyMapping i.2 ++
  (keptProperties policy i.2).flatMap (propertyFaults fru i.1) ++
  identifierFaults fru before i.1

def unitNameFaults (name : String) : List Error :=
  (if Identifier.isValid name then [] else [.invalidName [name] name .notIdentifier]) ++
  (Identifier.reservation? name).toList.map fun r => .invalidName [name] name (.reserved r)

def unitFaults (policy : EmptyPolicy) (u : String × Tree) : List Error :=
  nameFaults .fru [u.1] u.1 ++ unitNameFaults u.1 ++ tableFaults [u.1] .interfaceMapping u.2 ++
  entryFaults (interfaceFaults policy u.1) [] (kept policy u.2)

/-- All violations in a description. Nothing that the policy drops is looked at. -/
def violations (policy : EmptyPolicy) (t : Tree) : List Error :=
  tableFaults [] .fruMapping t ++ (kept policy t).flatMap (unitFaults policy)

variable {policy : EmptyPolicy} {fru : String}

private theorem readReference_reports (fru interface property : String) (value : Tree) :
    (Traced.lift (readReference fru interface property value)).Reports
      (valueFaults fru interface property value) := by
  cases value with
  | string raw =>
    rw [readReference, valueFaults]
    cases Reference.parse raw with
    | error fault => exact Traced.reports_of_error rfl
    | ok r => exact Traced.reports_of_ok rfl
  | _ => exact Traced.reports_of_error rfl

private theorem readProperty_reports {interface property : String} {value : Tree}
    (hd : drops policy (Text.isBlankText property || isMissing value) = false) :
    (readProperty policy fru interface property value).Reports
      (propertyFaults fru interface (property, value)) := by
  obtain ⟨hname, hvalue⟩ := drops_or_eq_false_iff.mp hd
  refine reports_named hname (reports_valued hvalue ?_)
  exact (readReference_reports fru interface property value).bind_ok fun _ => ⟨_, rfl⟩

private theorem readProperties_reports (interface : String) (t : Tree) :
    (readProperties policy fru interface t.stringEntries).Reports
      ((keptProperties policy t).flatMap (propertyFaults fru interface)) :=
  collect_const_reports _ (fun _ _ => readProperty_none_iff) (fun _ _ => readProperty_reports) _

/-- An interface that has been read keeps its name, and so its identifier is known. -/
def Names (e : String × Tree) (i : Interface) : Prop :=
  i.name = e.1 ∧ i.identifier = Identifier.ofInterface e.1

private theorem find?_identifier_eq {before : List (String × Tree)} {earlier : List Interface}
    (h : List.Forall₂ Names before earlier) (identifier : String) :
    (earlier.find? fun other => other.identifier == identifier).map Interface.name =
      (before.find? fun other => Identifier.ofInterface other.1 == identifier).map Prod.fst := by
  induction h with
  | nil => rfl
  | @cons e i _ _ hi _ ih =>
    rw [List.find?_cons, List.find?_cons, hi.2]
    cases Identifier.ofInterface e.1 == identifier with
    | true => simp [hi.1]
    | false => exact ih

private theorem claim_reports {before : List (String × Tree)} {earlier : List Interface}
    (h : List.Forall₂ Names before earlier) (interface : String) (properties : List Binding) :
    (Traced.lift (claim fru earlier
        ⟨interface, Identifier.ofInterface interface, properties⟩)).Reports
      (identifierFaults fru before interface) := by
  have hfind := find?_identifier_eq h (Identifier.ofInterface interface)
  rw [claim, identifierFaults]
  cases Identifier.isReserved (Identifier.ofInterface interface) with
  | true => rfl
  | false =>
    cases hf : earlier.find? fun other => other.identifier == Identifier.ofInterface interface with
    | none =>
      rw [hf, Option.map_none, eq_comm, Option.map_eq_none_iff] at hfind
      simp only [hfind]
      exact Traced.reports_of_ok rfl
    | some other =>
      rw [hf, Option.map_some, eq_comm, Option.map_eq_some_iff] at hfind
      obtain ⟨first, hfirst, hname⟩ := hfind
      simp only [hfirst, ← hname]
      exact Traced.reports_of_error rfl

private theorem readInterface_reports {before : List (String × Tree)} {earlier : List Interface}
    {interface : String} {value : Tree} (h : List.Forall₂ Names before earlier)
    (hd : drops policy (Text.isBlankText interface) = false) :
    (readInterface policy fru earlier interface value).Reports
      (interfaceFaults policy fru before (interface, value)) := by
  rw [interfaceFaults, List.append_assoc, List.append_assoc]
  refine reports_named hd (reports_namedEntries_bind ?_)
  refine (readProperties_reports interface value).bind fun properties _ => ?_
  exact (claim_reports h interface properties).bind_ok fun _ => ⟨_, rfl⟩

private theorem readInterfaces_reports (t : Tree) :
    (readInterfaces policy fru t.stringEntries).Reports
      (entryFaults (interfaceFaults policy fru) [] (kept policy t)) := by
  refine collect_reports _ Names _ (fun _ _ _ => readInterface_none_iff) ?_
    (fun _ _ _ _ => readInterface_reports) .nil _
  intro earlier name value i hi
  obtain ⟨-, ⟨-, hgives⟩, -⟩ := readInterface_some_iff.mp hi
  exact ⟨hgives.name, hgives.identifier⟩

private theorem nameFault?_eq_head? (name : String) :
    (nameFault? name).map (Error.invalidName [name] name) = (unitNameFaults name).head? := by
  rw [nameFault?, unitNameFaults]
  cases Identifier.isValid name with
  | false => rfl
  | true => cases Identifier.reservation? name <;> rfl

private theorem readOne_reports {name : String} {value : Tree}
    (hd : drops policy (Text.isBlankText name) = false) :
    (readOne policy name value).Reports (unitFaults policy (name, value)) := by
  rw [unitFaults, List.append_assoc, List.append_assoc]
  refine reports_named hd ?_
  have hname := nameFault?_eq_head? name
  cases hf : nameFault? name with
  | some fault =>
    rw [hf] at hname
    rw [Traced.Reports, List.head?_append, ← hname]
    rfl
  | none =>
    rw [hf, Option.map_none, eq_comm, List.head?_eq_none_iff] at hname
    rw [hname, List.nil_append]
    refine reports_namedEntries_bind ?_
    exact (readInterfaces_reports value).bind_ok fun _ => ⟨_, rfl⟩

theorem listOfTree_reports (policy : EmptyPolicy) (t : Tree) :
    (listOfTree policy t).Reports (violations policy t) :=
  reports_namedEntries_bind <|
    collect_const_reports _ (fun _ _ => readOne_none_iff) (fun _ _ => readOne_reports) _

end VpdHeaders.Fru
