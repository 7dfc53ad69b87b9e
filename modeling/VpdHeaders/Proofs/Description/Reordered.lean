import VpdHeaders.Proofs.Description.Kept
import VpdHeaders.Proofs.Rearranged

/-! # Descriptions with the entries of their mappings in another order -/
namespace VpdHeaders

structure Corresponds {κ : Type} (inner : Tree → Tree → Prop) (e e' : κ × Tree) : Prop where
  key : e'.1 = e.1
  value : inner e.2 e'.2

namespace Tree

/-- Equal trees, or two mappings whose entries correspond once they are rearranged. -/
inductive EntriesRearranged (inner : Tree → Tree → Prop) : Tree → Tree → Prop
  | same (t : Tree) : EntriesRearranged inner t t
  | mapping {es es' : List (Tree × Tree)} (h : Rearranged (Corresponds inner) es es') :
    EntriesRearranged inner (.mapping es) (.mapping es')

/-- The second tree has the entries of the mappings on the topmost `levels` levels in any order, and
all else like the first. -/
def Reordered : Nat → Tree → Tree → Prop
  | 0 => Eq
  | levels + 1 => EntriesRearranged (Reordered levels)

namespace Reordered

variable {levels : Nat} {t t' : Tree}

theorem refl (levels : Nat) (t : Tree) : Reordered levels t t := by
  cases levels with
  | zero => rfl
  | succ levels => exact .same t

theorem symm (h : Reordered levels t t') : Reordered levels t' t := by
  induction levels generalizing t t' with
  | zero => exact Eq.symm h
  | succ levels ih =>
    cases h with
    | same t => exact .same t
    | mapping h => exact .mapping (h.symm fun e e' hc => ⟨hc.key.symm, ih hc.value⟩)

private theorem mappingEntries (h : Reordered (levels + 1) t t') :
    Rearranged (Corresponds (Reordered levels)) t.mappingEntries t'.mappingEntries := by
  cases h with
  | same t => exact .refl (fun e => ⟨rfl, refl levels e.2⟩) _
  | mapping h => exact h

theorem isTable (h : Reordered (levels + 1) t t') (ht : t.IsTable) : t'.IsTable := by
  constructor
  · cases h with
    | same t => exact ht.mapping
    | mapping h => exact .mapping _
  · intro e' he'
    have hback := h.symm.mappingEntries
    obtain ⟨m, hp, hf⟩ := hback
    obtain ⟨e, he, hc⟩ := Pointwise.exists_right hf (hp.mem_iff.mp he')
    obtain ⟨name, hname⟩ := ht.stringKeys e he
    exact ⟨name, by rw [← hc.key, hname]⟩

theorem stringEntries (h : Reordered (levels + 1) t t') :
    Rearranged (Corresponds (Reordered levels)) t.stringEntries t'.stringEntries := by
  refine h.mappingEntries.filterMap ?_
  rintro ⟨_, value⟩ ⟨key, value'⟩ ⟨rfl, hvalue⟩
  cases key with
  | string name => exact .some ⟨rfl, hvalue⟩
  | _ => exact .none

/-- On the last level the entries are the same ones. -/
theorem stringEntries_eq (h : Reordered 1 t t') : Rearranged Eq t.stringEntries t'.stringEntries :=
  h.stringEntries.imp fun _ _ hc => Prod.ext hc.key.symm hc.value

theorem kept (h : Reordered (levels + 1) t t') (policy : EmptyPolicy) :
    Rearranged (Corresponds (Reordered levels)) (Description.kept policy t)
      (Description.kept policy t') :=
  h.stringEntries.filter fun e e' hc => by rw [hc.key]

end Reordered

end Tree

end VpdHeaders
