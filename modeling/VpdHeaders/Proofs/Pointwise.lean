import Mathlib.Data.List.Forall2

/-! # Lists whose elements are related one by one -/
namespace VpdHeaders.Pointwise

variable {α β γ : Type} {R : α → β → Prop}

theorem exists_forall₂ {l : List α} (h : ∀ a ∈ l, ∃ b, R a b) : ∃ bs, List.Forall₂ R l bs := by
  induction l with
  | nil => exact ⟨[], .nil⟩
  | cons a l ih =>
    obtain ⟨b, hb⟩ := h a List.mem_cons_self
    obtain ⟨bs, hbs⟩ := ih fun c hc => h c (List.mem_cons_of_mem a hc)
    exact ⟨b :: bs, .cons hb hbs⟩

theorem exists_right {l : List α} {bs : List β} (h : List.Forall₂ R l bs) {a : α} (ha : a ∈ l) :
    ∃ b ∈ bs, R a b := by
  induction h with
  | nil => simp at ha
  | cons hr _ ih =>
    rcases List.mem_cons.mp ha with rfl | ha
    · exact ⟨_, List.mem_cons_self, hr⟩
    · obtain ⟨b, hb, hr⟩ := ih ha
      exact ⟨b, List.mem_cons_of_mem _ hb, hr⟩

theorem exists_left {l : List α} {bs : List β} (h : List.Forall₂ R l bs) {b : β} (hb : b ∈ bs) :
    ∃ a ∈ l, R a b := by
  obtain ⟨a, ha, hr⟩ := exists_right h.flip hb
  exact ⟨a, ha, hr⟩

theorem map_eq_map {f : β → γ} {g : α → γ} (hR : ∀ a b, R a b → f b = g a) {l : List α}
    {bs : List β} (h : List.Forall₂ R l bs) : bs.map f = l.map g := by
  induction h with
  | nil => rfl
  | cons hr _ ih => rw [List.map_cons, List.map_cons, hR _ _ hr, ih]

theorem flatMap_eq_flatMap {f : β → List γ} {g : α → List γ} (hR : ∀ a b, R a b → f b = g a)
    {l : List α} {bs : List β} (h : List.Forall₂ R l bs) : bs.flatMap f = l.flatMap g := by
  rw [List.flatMap_def, List.flatMap_def, map_eq_map hR h]

theorem map_eq_self {f : α → α} {l : List α} (h : ∀ a ∈ l, f a = a) : l.map f = l :=
  (List.map_congr_left h).trans (List.map_id' l)

end VpdHeaders.Pointwise
