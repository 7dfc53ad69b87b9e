import VpdHeaders.Proofs.Fru.Reordered
import VpdHeaders.Proofs.Inventory.Reordered

/-! # The order of the entries in a description is only the order of what it gives -/
namespace VpdHeaders
open Description VpdHeaders.Tree

variable {α : Type} {t t' : Tree}

/-- Both results are lists or neither is, and the lists are the same up to the order. -/
structure AgreeUpToOrder (Same : α → α → Prop) (r r' : Except Error (List α)) : Prop where
  accepted : (∃ l, r = .ok l) ↔ ∃ l', r' = .ok l'
  same : ∀ l l', r = .ok l → r' = .ok l' → Rearranged Same l l'

private theorem AgreeUpToOrder.of_reordered {read : Tree → Except Error (List α)}
    {Same : α → α → Prop} (h : Reordered 3 t t')
    (hread : ∀ {t t' l}, Reordered 3 t t' → read t = .ok l →
      ∃ l', read t' = .ok l' ∧ Rearranged Same l l') : AgreeUpToOrder Same (read t) (read t') where
  accepted := by
    -- the two orders can be exchanged, so one direction is enough
    constructor
    · rintro ⟨l, hl⟩
      obtain ⟨l', hl', -⟩ := hread h hl
      exact ⟨l', hl'⟩
    · rintro ⟨l', hl'⟩
      obtain ⟨l, hl, -⟩ := hread h.symm hl'
      exact ⟨l, hl⟩
  same := by
    intro l l' hl hl'
    obtain ⟨l'', hl'', hsame⟩ := hread h hl
    obtain rfl := Except.ok.inj (hl'.symm.trans hl'')
    exact hsame

/-- Whether a description is accepted does not depend on the order of its units or objects, of their
interfaces and of their properties. What it gives is the same up to the order, which is always the
order of the entries. -/
theorem accepted_in_any_order (policy : EmptyPolicy) (h : Reordered 3 t t') :
    (AgreeUpToOrder Fru.SameUpToOrder (Fru.listOfTree policy t).result
        (Fru.listOfTree policy t').result ∧
      ∀ frus', (Fru.listOfTree policy t').result = .ok frus' →
        List.Forall₂ (Fru.IsUnit policy) (kept policy t') frus') ∧
    (AgreeUpToOrder Inventory.Object.SameUpToOrder (Inventory.listOfTree policy t).result
        (Inventory.listOfTree policy t').result ∧
      ∀ objects', (Inventory.listOfTree policy t').result = .ok objects' →
        List.Forall₂ (Inventory.IsObject policy) (kept policy t') objects') := by
  refine ⟨⟨?_, fun frus' hfrus' => ?_⟩, ?_, fun objects' hobjects' => ?_⟩
  · exact .of_reordered h Fru.listOfTree_reordered
  · exact (Fru.listOfTree_eq_ok_iff.mp hfrus').2.2
  · exact .of_reordered h Inventory.listOfTree_reordered
  · exact (Inventory.listOfTree_eq_ok_iff.mp hobjects').2.2

def item : Tree := .mapping [(.string "SN", .string "VINI,SN"), (.string "CC", .string "VINI,CC")]

def itemReversed : Tree :=
  .mapping [(.string "CC", .string "VINI,CC"), (.string "SN", .string "VINI,SN")]

def shelf : Tree :=
  .mapping [(.string "BOARD", .mapping [(.string "xyz.Item", item), (.string "xyz.Asset", .null)]),
    (.string "FAN", .null)]

def shelfReversed : Tree :=
  .mapping [(.string "FAN", .null),
    (.string "BOARD", .mapping [(.string "xyz.Asset", .null), (.string "xyz.Item", itemReversed)])]

theorem shelf_accepted_in_any_order : Reordered 3 shelf shelfReversed ∧
    ∃ frus frus', (Fru.listOfTree .reject shelf).result = .ok frus ∧
      (Fru.listOfTree .reject shelfReversed).result = .ok frus' ∧ frus ≠ frus' ∧
      Rearranged Fru.SameUpToOrder frus frus' := by
  have hitem : Reordered 1 item itemReversed :=
    .mapping ⟨_, .swap _ _ [], .cons ⟨rfl, rfl⟩ (.cons ⟨rfl, rfl⟩ .nil)⟩
  have hboard : Reordered 2 (.mapping [(.string "xyz.Item", item), (.string "xyz.Asset", .null)])
      (.mapping [(.string "xyz.Asset", .null), (.string "xyz.Item", itemReversed)]) :=
    .mapping ⟨_, .swap _ _ [], .cons ⟨rfl, .refl 1 _⟩ (.cons ⟨rfl, hitem⟩ .nil)⟩
  have hshelf : Reordered 3 shelf shelfReversed :=
    .mapping ⟨_, .swap _ _ [], .cons ⟨rfl, .refl 2 _⟩ (.cons ⟨rfl, hboard⟩ .nil)⟩
  have hread : (Fru.listOfTree .reject shelf).result = .ok
      [⟨"BOARD", [⟨"xyz.Item", "xyzItem", [⟨"SN", ⟨"VINI", "SN"⟩⟩, ⟨"CC", ⟨"VINI", "CC"⟩⟩]⟩,
        ⟨"xyz.Asset", "xyzAsset", []⟩]⟩, ⟨"FAN", []⟩] := rfl
  have hreversed : (Fru.listOfTree .reject shelfReversed).result = .ok
      [⟨"FAN", []⟩, ⟨"BOARD", [⟨"xyz.Asset", "xyzAsset", []⟩,
        ⟨"xyz.Item", "xyzItem", [⟨"CC", ⟨"VINI", "CC"⟩⟩, ⟨"SN", ⟨"VINI", "SN"⟩⟩]⟩]⟩] := rfl
  have hagree := (accepted_in_any_order .reject hshelf).1.1
  exact ⟨hshelf, _, _, hread, hreversed, by decide, hagree.same _ _ hread hreversed⟩

end VpdHeaders
