import VpdHeaders.Proofs.Fru.Reader
import VpdHeaders.Proofs.Inventory.Reader

/-! # The lenient policy is the strict one on the pruned description -/
namespace VpdHeaders
open Description

namespace Fru

def valueless (name : String) (value : Tree) : Bool := Text.isBlankText name || isMissing value

def prunedInterface (t : Tree) : Tree := t.prune valueless id

def prunedUnit (t : Tree) : Tree := t.prune nameless prunedInterface

/-- A description of units without the entries that have blank names at any level, and without the
properties that have missing values. -/
def pruned (t : Tree) : Tree := t.prune nameless prunedUnit

end Fru

namespace Inventory

def valueless (name : String) (value : Tree) : Bool := Text.isBlankText name || value.isNull

def prunedInterface (t : Tree) : Tree := t.prune valueless id

def prunedObject (t : Tree) : Tree := t.prune nameless prunedInterface

/-- A description of objects without the entries that have blank names at any level, and without the
properties whose values are null, also beneath tags. -/
def pruned (t : Tree) : Tree := t.prune nameless prunedObject

end Inventory

/-- Lenient reading is, the warnings apart, strict reading of the pruned description: it ends with
the same model or the same error and logs the same. What strict reading accepts, lenient reading
accepts with the same model and without a warning. -/
theorem lenient_eq_strict_of_pruned (t : Tree) :
    (Fru.listOfTree .skip t).withoutWarnings = Fru.listOfTree .reject (Fru.pruned t) ∧
    (Inventory.listOfTree .skip t).withoutWarnings =
      Inventory.listOfTree .reject (Inventory.pruned t) ∧
    (∀ frus, (Fru.listOfTree .reject t).result = .ok frus →
      (Fru.listOfTree .skip t).result = .ok frus ∧
        ∀ e ∈ (Fru.listOfTree .skip t).events, e.level ≠ .warn) ∧
    ∀ objects, (Inventory.listOfTree .reject t).result = .ok objects →
      (Inventory.listOfTree .skip t).result = .ok objects ∧
        ∀ e ∈ (Inventory.listOfTree .skip t).events, e.level ≠ .warn := by
  rw [Fru.listOfTree_eq, Fru.listOfTree_eq, Inventory.listOfTree_eq, Inventory.listOfTree_eq]
  exact ⟨Fru.reader.read_pruned t, Inventory.reader.read_pruned t, fun _ => Reader.read_skip_of_ok,
    fun _ => Reader.read_skip_of_ok⟩

def onePart : Tree :=
  .mapping [(.string "BMC", .mapping [(.string "a.X", .mapping [(.string "PN", .string "VINI,PN")])])]

theorem lenient_reads_onePart :
    (Fru.listOfTree .reject onePart).result =
      .ok [⟨"BMC", [⟨"a.X", "aX", [⟨"PN", ⟨"VINI", "PN"⟩⟩]⟩]⟩] ∧
    (Fru.listOfTree .skip onePart).result =
      .ok [⟨"BMC", [⟨"a.X", "aX", [⟨"PN", ⟨"VINI", "PN"⟩⟩]⟩]⟩] ∧
    (Inventory.listOfTree .reject onePart).result =
      .ok [⟨"BMC", [⟨"a.X", [⟨"PN", .string "VINI,PN"⟩]⟩]⟩] ∧
    (Inventory.listOfTree .skip onePart).result =
      .ok [⟨"BMC", [⟨"a.X", [⟨"PN", .string "VINI,PN"⟩]⟩]⟩] := by
  obtain ⟨-, -, hf, hi⟩ := lenient_eq_strict_of_pruned onePart
  exact ⟨rfl, (hf _ rfl).1, rfl, (hi _ rfl).1⟩

end VpdHeaders
