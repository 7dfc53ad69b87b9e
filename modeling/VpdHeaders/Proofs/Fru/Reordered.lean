import VpdHeaders.Proofs.Description.Reordered
import VpdHeaders.Proofs.Fru.WellFormed

/-! # Units of a description whose entries are put in another order -/
namespace VpdHeaders

/-- The same interface, perhaps with its properties in another order. -/
structure Interface.SameUpToOrder (i i' : Interface) : Prop where
  name : i'.name = i.name
  identifier : i'.identifier = i.identifier
  properties : i.properties.Perm i'.properties

/-- The same unit, perhaps with its interfaces and their properties in another order. -/
structure Fru.SameUpToOrder (f f' : Fru) : Prop where
  name : f'.name = f.name
  interfaces : Rearranged Interface.SameUpToOrder f.interfaces f'.interfaces

namespace Fru
open Description VpdHeaders.Tree

variable {policy : EmptyPolicy} {t t' : Tree} {e e' : String × Tree}

private theorem exists_interface {i : Interface} (h : Corresponds (Reordered 1) e e')
    (hg : IsGoodInterface policy e) (hi : IsInterface policy e i) :
    ∃ i', (IsGoodInterface policy e' ∧ IsInterface policy e' i') ∧ i.SameUpToOrder i' := by
  have hsame (p p' : String × Tree) (b : Binding) (hp : p = p')
      (hn : Text.isBlankText p.1 = false) (hb : IsBinding p b) :
      ∃ b', (Text.isBlankText p'.1 = false ∧ IsBinding p' b') ∧ b = b' :=
    ⟨b, hp ▸ ⟨hn, hb⟩, rfl⟩
  have hkept : Rearranged Eq (keptProperties policy e.2) (keptProperties policy e'.2) :=
    h.value.stringEntries_eq.filter fun p p' hp => by rw [hp]
  obtain ⟨bs, hnames, hbs, hperm⟩ := hkept.exists_forall₂ hg.properties hi.properties hsame
  have hgood : IsGoodInterface policy e' := by
    refine ⟨?_, h.value.isTable hg.table, ?_, hnames⟩
    · rw [h.key]
      exact hg.named
    · rw [h.key]
      exact hg.free
  refine ⟨⟨e'.1, Identifier.ofInterface e'.1, bs⟩, ⟨hgood, rfl, rfl, hbs⟩, ?_, ?_, hperm.perm⟩
  · rw [hi.name, h.key]
  · rw [hi.identifier, h.key]

private theorem exists_unit {f : Fru} (h : Corresponds (Reordered 2) e e')
    (hg : IsGoodUnit policy e) (hf : IsUnit policy e f) :
    ∃ f', (IsGoodUnit policy e' ∧ IsUnit policy e' f') ∧ f.SameUpToOrder f' := by
  have hkept := h.value.kept policy
  obtain ⟨is, hgoods, his, hperm⟩ :=
    hkept.exists_forall₂ hg.interfaces hf.interfaces fun _ _ _ => exists_interface
  have hidentifiers := hkept.map_perm (f := fun i => Identifier.ofInterface i.1)
    (g := fun i => Identifier.ofInterface i.1) fun i i' hc => by rw [hc.key]
  have hgood : IsGoodUnit policy e' := by
    refine ⟨?_, ?_, ?_, h.value.isTable hg.table, hgoods, hidentifiers.nodup_iff.mp hg.distinct⟩
    · rw [h.key]
      exact hg.named
    · rw [h.key]
      exact hg.valid
    · rw [h.key]
      exact hg.free
  refine ⟨⟨e'.1, is⟩, ⟨hgood, rfl, his⟩, ?_, hperm⟩
  rw [hf.name, h.key]

theorem listOfTree_reordered {frus : List Fru} (h : Reordered 3 t t')
    (hread : (listOfTree policy t).result = .ok frus) :
    ∃ frus', (listOfTree policy t').result = .ok frus' ∧ Rearranged SameUpToOrder frus frus' := by
  obtain ⟨ht, hg, hf⟩ := listOfTree_eq_ok_iff.mp hread
  obtain ⟨frus', hgoods, hfrus', hperm⟩ :=
    (h.kept policy).exists_forall₂ hg hf fun _ _ _ => exists_unit
  exact ⟨frus', listOfTree_eq_ok_iff.mpr ⟨h.isTable ht, hgoods, hfrus'⟩, hperm⟩

end Fru

end VpdHeaders
