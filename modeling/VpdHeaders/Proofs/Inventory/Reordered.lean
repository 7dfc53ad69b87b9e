import VpdHeaders.Proofs.Description.Reordered
import VpdHeaders.Proofs.Inventory.WellFormed

/-! # Objects of a description whose entries are put in another order -/
namespace VpdHeaders.Inventory
open VpdHeaders.Tree

/-- The same interface, perhaps with its properties in another order. -/
structure Interface.SameUpToOrder (i i' : Interface) : Prop where
  name : i'.name = i.name
  properties : i.properties.Perm i'.properties

/-- The same object, perhaps with its interfaces and their properties in another order. -/
structure Object.SameUpToOrder (o o' : Object) : Prop where
  path : o'.path = o.path
  interfaces : Rearranged Interface.SameUpToOrder o.interfaces o'.interfaces

variable {policy : EmptyPolicy} {t t' : Tree} {e e' : String × Tree}

private theorem exists_interface {i : Interface} (h : Corresponds (Reordered 1) e e')
    (hg : IsGoodInterface policy e) (hi : IsInterface policy e i) :
    ∃ i', (IsGoodInterface policy e' ∧ IsInterface policy e' i') ∧ i.SameUpToOrder i' := by
  have hsame (p p' : String × Tree) (q : Property) (hp : p = p')
      (hn : Text.isBlankText p.1 = false) (hq : IsProperty p q) :
      ∃ q', (Text.isBlankText p'.1 = false ∧ IsProperty p' q') ∧ q = q' :=
    ⟨q, hp ▸ ⟨hn, hq⟩, rfl⟩
  have hkept : Rearranged Eq (keptProperties policy e.2) (keptProperties policy e'.2) :=
    h.value.stringEntries_eq.filter fun p p' hp => by rw [hp]
  obtain ⟨ps, hnames, hps, hperm⟩ := hkept.exists_forall₂ hg.properties hi.properties hsame
  have hnamed : Text.isBlankText e'.1 = false := by
    rw [h.key]
    exact hg.named
  have hgood : IsGoodInterface policy e' := ⟨hnamed, h.value.isTable hg.table, hnames⟩
  refine ⟨⟨e'.1, ps⟩, ⟨hgood, rfl, hps⟩, ?_, hperm.perm⟩
  rw [hi.name, h.key]

private theorem exists_object {o : Object} (h : Corresponds (Reordered 2) e e')
    (hg : IsGoodObject policy e) (ho : IsObject policy e o) :
    ∃ o', (IsGoodObject policy e' ∧ IsObject policy e' o') ∧ o.SameUpToOrder o' := by
  obtain ⟨is, hgoods, his, hperm⟩ :=
    (h.value.kept policy).exists_forall₂ hg.interfaces ho.interfaces fun _ _ _ => exists_interface
  have hnamed : Text.isBlankText e'.1 = false := by
    rw [h.key]
    exact hg.named
  have hgood : IsGoodObject policy e' := ⟨hnamed, h.value.isTable hg.table, hgoods⟩
  refine ⟨⟨e'.1, is⟩, ⟨hgood, rfl, his⟩, ?_, hperm⟩
  rw [ho.path, h.key]

theorem listOfTree_reordered {objects : List Object} (h : Reordered 3 t t')
    (hread : (listOfTree policy t).result = .ok objects) :
    ∃ objects', (listOfTree policy t').result = .ok objects' ∧
      Rearranged Object.SameUpToOrder objects objects' := by
  obtain ⟨ht, hg, ho⟩ := listOfTree_eq_ok_iff.mp hread
  obtain ⟨objects', hgoods, hobjects', hperm⟩ :=
    (h.kept policy).exists_forall₂ hg ho fun _ _ _ => exists_object
  exact ⟨objects', listOfTree_eq_ok_iff.mpr ⟨h.isTable ht, hgoods, hobjects'⟩, hperm⟩

end VpdHeaders.Inventory
