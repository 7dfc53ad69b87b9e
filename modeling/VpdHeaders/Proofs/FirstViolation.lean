import VpdHeaders.Proofs.Fru.Violations
import VpdHeaders.Proofs.Inventory.Violations

/-! # A description is refused for the first of its violations -/
namespace VpdHeaders

/-- Reading a description fails just when there are violations in it, and then with the first one in
the order of a visit that would list them all. -/
theorem refused_for_first_violation (policy : EmptyPolicy) (t : Tree) :
    ((∀ e, (Fru.listOfTree policy t).result = .error e ↔
        (Fru.violations policy t).head? = some e) ∧
      ((∃ frus, (Fru.listOfTree policy t).result = .ok frus) ↔ Fru.violations policy t = [])) ∧
    (∀ e, (Inventory.listOfTree policy t).result = .error e ↔
        (Inventory.violations policy t).head? = some e) ∧
      ((∃ objects, (Inventory.listOfTree policy t).result = .ok objects) ↔
        Inventory.violations policy t = []) := by
  have hfrus := Fru.listOfTree_reports policy t
  have hobjects := Inventory.listOfTree_reports policy t
  exact ⟨⟨hfrus.error_iff, hfrus.ok_iff⟩, hobjects.error_iff, hobjects.ok_iff⟩

/-- A key that is no string, behind entries with faults on all levels. -/
def faulty : Tree :=
  .mapping
    [(.string "B M C", .mapping
       [(.string "obj.ect", .mapping [(.string "PN", .string "VINI"), (.string "", .null)]),
        (.string "obj.x.ect", .sequence [])]),
     (.integer 42, .null)]

example : (Fru.violations .reject faulty).map Error.message =
    ["unexpected shape at <root>: expected string key, found number 42",
     "invalid name 'B M C' at B M C: FRU names become Fru:: enumerators and must be C++ identifiers",
     "malformed value reference 'VINI' for B M C/obj.ect/PN: expected exactly two comma-separated " ++
       "tokens, found 1",
     "empty property name at B M C/obj.ect/",
     "unexpected shape at B M C/obj.ect/: expected \"record,keyword\" string, found null",
     "interface 'obj.ect' of FRU B M C derives reserved identifier 'object'",
     "unexpected shape at B M C/obj.x.ect: expected mapping of property names, found sequence",
     "interface 'obj.x.ect' of FRU B M C derives reserved identifier 'object'",
     "interfaces 'obj.ect' and 'obj.x.ect' of FRU B M C both derive identifier 'object'"] := by
  decide +kernel

end VpdHeaders
