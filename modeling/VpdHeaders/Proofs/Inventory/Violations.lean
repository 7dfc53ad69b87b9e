import VpdHeaders.Proofs.Description.Violations
import VpdHeaders.Proofs.Inventory.WellFormed

/-! # All that is wrong with a description of inventory objects -/
namespace VpdHeaders.Inventory
open Description

def valueFaults (location : Location) (value : Tree) : List Error :=
  if IsScalar value then [] else [.shape location .literal value]

def propertyFaults (path interface : String) (p : String × Tree) : List Error :=
  nameFaults .property [path, interface, p.1] p.1 ++ valueFaults [path, interface, p.1] p.2

def interfaceFaults (policy : EmptyPolicy) (path : String) (i : String × Tree) : List Error :=
  nameFaults .interface [path, i.1] i.1 ++ tableFaults [path, i.1] .propertyMapping i.2 ++
  (keptProperties policy i.2).flatMap (propertyFaults path i.1)

def objectFaults (policy : EmptyPolicy) (o : String × Tree) : List Error :=
  nameFaults .objectPath [o.1] o.1 ++ tableFaults [o.1] .interfaceMapping o.2 ++
  (kept policy o.2).flatMap (interfaceFaults policy o.1)

/-- All violations in a description. Nothing that the policy drops is looked at. -/
def violations (policy : EmptyPolicy) (t : Tree) : List Error :=
  tableFaults [] .objectMapping t ++ (kept policy t).flatMap (objectFaults policy)

variable {policy : EmptyPolicy} {path : String}

private theorem readLiteral_reports (location : Location) (value : Tree) :
    (Traced.lift (readLiteral location value)).Reports (valueFaults location value) := by
  rw [valueFaults]
  split
  · next hs =>
    obtain ⟨l, hl⟩ := isScalar_iff.mp hs
    rw [readLiteral, literal?_eq_some_iff.mpr hl]
    exact Traced.reports_of_ok rfl
  · next hs =>
    rw [readLiteral, literal?_eq_none_iff.mpr hs]
    exact Traced.reports_of_error rfl

private theorem readProperty_reports {interface property : String} {value : Tree}
    (hd : drops policy (Text.isBlankText property || value.isNull) = false) :
    (readProperty policy path interface property value).Reports
      (propertyFaults path interface (property, value)) := by
  obtain ⟨hname, hvalue⟩ := drops_or_eq_false_iff.mp hd
  refine reports_named hname (reports_valued hvalue ?_)
  exact (readLiteral_reports [path, interface, property] value).bind_ok fun _ => ⟨_, rfl⟩

private theorem readProperties_reports (interface : String) (t : Tree) :
    (readProperties policy path interface t.stringEntries).Reports
      ((keptProperties policy t).flatMap (propertyFaults path interface)) :=
  collect_const_reports _ (fun _ _ => readProperty_none_iff) (fun _ _ => readProperty_reports) _

private theorem readInterface_reports {interface : String} {value : Tree}
    (hd : drops policy (Text.isBlankText interface) = false) :
    (readInterface policy path interface value).Reports
      (interfaceFaults policy path (interface, value)) := by
  rw [interfaceFaults, List.append_assoc]
  refine reports_named hd (reports_namedEntries_bind ?_)
  exact (readProperties_reports interface value).bind_ok fun _ => ⟨_, rfl⟩

private theorem readInterfaces_reports (t : Tree) :
    (readInterfaces policy path t.stringEntries).Reports
      ((kept policy t).flatMap (interfaceFaults policy path)) :=
  collect_const_reports _ (fun _ _ => readInterface_none_iff) (fun _ _ => readInterface_reports) _

private theorem readOne_reports {value : Tree} (hd : drops policy (Text.isBlankText path) = false) :
    (readOne policy path value).Reports (objectFaults policy (path, value)) := by
  rw [objectFaults, List.append_assoc]
  refine reports_named hd (reports_namedEntries_bind ?_)
  exact (readInterfaces_reports value).bind_ok fun _ => ⟨_, rfl⟩

theorem listOfTree_reports (policy : EmptyPolicy) (t : Tree) :
    (listOfTree policy t).Reports (violations policy t) :=
  reports_namedEntries_bind <|
    collect_const_reports _ (fun _ _ => readOne_none_iff) (fun _ _ => readOne_reports) _

end VpdHeaders.Inventory
