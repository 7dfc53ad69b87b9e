import Mathlib.Data.List.Perm.Basic
import VpdHeaders.Proofs.Pointwise

/-! # Lists whose elements are related one by one once the first is put in another order -/
namespace VpdHeaders

variable {α β γ δ : Type} {R : α → β → Prop} {S : γ → δ → Prop} {l : List α} {l' : List β}

/-- Some order of the first list is related to the second. -/
def Rearranged (R : α → β → Prop) (l : List α) (l' : List β) : Prop :=
  ∃ m, l.Perm m ∧ List.Forall₂ R m l'

namespace Rearranged

theorem perm {l l' : List α} (h : Rearranged Eq l l') : l.Perm l' := by
  obtain ⟨m, hp, hf⟩ := h
  obtain rfl : m = l' := by rwa [List.forall₂_eq_eq_eq] at hf
  exact hp

theorem refl {R : α → α → Prop} (h : ∀ a, R a a) (l : List α) : Rearranged R l l :=
  ⟨l, .refl l, List.forall₂_same.mpr fun a _ => h a⟩

theorem imp {R' : α → β → Prop} (hR : ∀ a b, R a b → R' a b) (h : Rearranged R l l') :
    Rearranged R' l l' := by
  obtain ⟨m, hp, hf⟩ := h
  exact ⟨m, hp, hf.imp hR⟩

theorem symm {R' : β → α → Prop} (hR : ∀ a b, R a b → R' b a) (h : Rearranged R l l') :
    Rearranged R' l' l := by
  obtain ⟨m, hp, hf⟩ := h
  obtain ⟨m', hf', hp'⟩ := List.perm_comp_forall₂ hp hf
  exact ⟨m', hp'.symm, hf'.flip.imp fun b a h => hR a b h⟩

theorem map_perm {f : α → γ} {g : β → γ} (hR : ∀ a b, R a b → g b = f a) (h : Rearranged R l l') :
    (l.map f).Perm (l'.map g) := by
  obtain ⟨m, hp, hf⟩ := h
  rw [Pointwise.map_eq_map hR hf]
  exact hp.map f

theorem filter {p : α → Bool} {q : β → Bool} (hR : ∀ a b, R a b → p a = q b)
    (h : Rearranged R l l') : Rearranged R (l.filter p) (l'.filter q) := by
  obtain ⟨m, hp, hf⟩ := h
  exact ⟨m.filter p, hp.filter p, List.rel_filter (fun a b hab => Bool.eq_iff_iff.mp (hR a b hab)) hf⟩

theorem filterMap {f : α → Option γ} {g : β → Option δ} (hR : ∀ a b, R a b → Option.Rel S (f a) (g b))
    (h : Rearranged R l l') : Rearranged S (l.filterMap f) (l'.filterMap g) := by
  obtain ⟨m, hp, hf⟩ := h
  exact ⟨m.filterMap f, hp.filterMap f, List.rel_filterMap (fun a b hab => hR a b hab) hf⟩

/-- What good elements of the first list give is given, in their order, by those of the second. -/
theorem exists_forall₂ {Good : α → Prop} {Good' : β → Prop} {G : α → γ → Prop} {G' : β → δ → Prop}
    {cs : List γ} (h : Rearranged R l l') (hgood : ∀ a ∈ l, Good a) (hG : List.Forall₂ G l cs)
    (hR : ∀ a b c, R a b → Good a → G a c → ∃ d, (Good' b ∧ G' b d) ∧ S c d) :
    ∃ ds, (∀ b ∈ l', Good' b) ∧ List.Forall₂ G' l' ds ∧ Rearranged S cs ds := by
  obtain ⟨m, hp, hf⟩ := h
  obtain ⟨cs', hG', hp'⟩ := List.perm_comp_forall₂ hp.symm hG
  -- what the elements give has moved along with them, so the lists go in step from here on
  have hmade : ∃ ds, List.Forall₂ (fun b d => Good' b ∧ G' b d) l' ds ∧ List.Forall₂ S cs' ds := by
    have hgood' : ∀ a ∈ m, Good a := fun a ha => hgood a (hp.mem_iff.mpr ha)
    clear hp hp' hG hgood
    induction hf generalizing cs' with
    | nil =>
      cases hG'
      exact ⟨[], .nil, .nil⟩
    | cons hab _ ih =>
      cases hG' with
      | cons hac hG' =>
        obtain ⟨d, hbd, hcd⟩ := hR _ _ _ hab (hgood' _ List.mem_cons_self) hac
        obtain ⟨ds, hds, hS⟩ := ih _ hG' fun a ha => hgood' a (List.mem_cons_of_mem _ ha)
        exact ⟨d :: ds, .cons hbd hds, .cons hcd hS⟩
  obtain ⟨ds, hds, hS⟩ := hmade
  obtain ⟨hgoods, hds⟩ := (List.forall₂_and_left _ _).mp hds
  exact ⟨ds, hgoods, hds, cs', hp'.symm, hS⟩

end Rearranged

end VpdHeaders
