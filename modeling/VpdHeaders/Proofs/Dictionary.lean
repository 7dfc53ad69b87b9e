import Mathlib.Data.List.Nodup
import Mathlib.Logic.Function.Basic
import VpdHeaders.Proofs.Description.Kept
import VpdHeaders.Proofs.Pointwise

/-! # Maps by what is found under each key -/
namespace VpdHeaders

/-- A map by what is found under each key. -/
abbrev Dictionary (α : Type) := String → Option α

namespace Dictionary

variable {α β κ : Type}

section Keys

variable [DecidableEq κ] {l : List β} {key : β → κ} {k : κ}

theorem find?_eq_none_of_not_mem (h : k ∉ l.map key) : (l.find? fun b => key b == k) = none := by
  rw [List.find?_eq_none]
  intro b hb he
  exact h (List.mem_map.mpr ⟨b, hb, beq_iff_eq.mp he⟩)

omit [DecidableEq κ] in
theorem ne_of_not_mem (h : k ∉ l.map key) {b : β} (hb : b ∈ l) : key b ≠ k := fun he =>
  h (List.mem_map.mpr ⟨b, hb, he⟩)

/-- A change under a new key does not show under the others. -/
theorem update_of_not_mem {γ : Type} (h : k ∉ l.map key) (d : κ → γ) (v : γ) {b : β} (hb : b ∈ l) :
    Function.update d k v (key b) = d (key b) :=
  Function.update_of_ne (ne_of_not_mem h hb) v d

theorem find?_eq_some_of_nodup (h : (l.map key).Nodup) {b : β} (hb : b ∈ l) :
    (l.find? fun b' => key b' == key b) = some b := by
  induction l with
  | nil => simp at hb
  | cons a l ih =>
    obtain ⟨ha, hl⟩ := List.nodup_cons.mp h
    rcases List.mem_cons.mp hb with rfl | hb
    · simp
    · have hne : key a ≠ key b := (ne_of_not_mem ha hb).symm
      simp [hne, ih hl hb]

end Keys

/-- The map of a list. Of several members with one key the first counts. -/
def ofList (key : β → String) (value : β → α) (l : List β) : Dictionary α := fun k =>
  (l.find? fun b => key b == k).map value

def All (P : String → α → Prop) (d : Dictionary α) : Prop := ∀ k a, d k = some a → P k a

variable {P : String → α → Prop} {key : β → String} {value : β → α} {l : List β}

theorem all_empty : All P fun _ => none := fun _ _ h => nomatch h

theorem All.update {d : Dictionary α} (h : d.All P) {k : String} {a : α} (ha : P k a) :
    Dictionary.All P (Function.update d k (some a)) := by
  intro k' a' h'
  by_cases hk : k' = k
  · subst hk
    rw [Function.update_self] at h'
    obtain rfl := Option.some.inj h'
    exact ha
  · rw [Function.update_of_ne hk] at h'
    exact h k' a' h'

theorem all_ofList (h : ∀ b ∈ l, P (key b) (value b)) : (ofList key value l).All P := by
  intro k a hk
  obtain ⟨b, hb, rfl⟩ := Option.map_eq_some_iff.mp hk
  have hkey : key b = k := by simpa using List.find?_some hb
  subst hkey
  exact h b (List.mem_of_find?_eq_some hb)

/-- A first member under a new key may as well be put into the map that is looked up next. -/
theorem ofList_or_update {b : β} (hb : key b ∉ l.map key) (d : Dictionary α) :
    (fun k => (ofList key value l k).or (Function.update d (key b) (some (value b)) k)) =
      fun k => (ofList key value (b :: l) k).or (d k) := by
  funext k
  by_cases hk : key b = k
  · subst hk
    simp [ofList, find?_eq_none_of_not_mem hb]
  · have hk' : k ≠ key b := fun h => hk h.symm
    simp [ofList, hk, hk']

/-- If no key stands twice, then every member is found. -/
theorem all_ofList_iff (hd : (l.map key).Nodup) :
    (ofList key value l).All P ↔ ∀ b ∈ l, P (key b) (value b) := by
  refine ⟨fun h b hb => h (key b) (value b) ?_, all_ofList⟩
  rw [ofList, find?_eq_some_of_nodup hd hb, Option.map_some]

/-- What is found under a name is read from the entry with that name. -/
theorem ofList_eq_lookup_bind {R : String × Tree → β → Prop} {g : Tree → Option α}
    (hR : ∀ e b, R e b → key b = e.1 ∧ g e.2 = some (value b)) {es : List (String × Tree)}
    (h : List.Forall₂ R es l) : ofList key value l = fun k => (es.lookup k).bind g := by
  funext name
  induction h with
  | nil => rfl
  | @cons e b es l hb _ ih =>
    obtain ⟨k, v⟩ := e
    obtain ⟨hn, hg⟩ := hR _ _ hb
    rw [ofList] at ih ⊢
    by_cases hk : name = k
    · simp [hn, hk, hg]
    · have hkey : (name == k) = false := by simp [hk]
      have hname : (key b == name) = false := by simpa [hn] using fun he : k = name => hk he.symm
      simp [List.lookup_cons, hkey, hname, ih]

end Dictionary

/-- No string key stands twice in a mapping. -/
def Tree.HasDistinctKeys (t : Tree) : Prop := (t.stringEntries.map Prod.fst).Nodup

/-- Names that are taken from some entries of a mapping. -/
theorem Description.names_nodup {β : Type} {R : String × Tree → β → Prop} {name : β → String}
    (hR : ∀ e b, R e b → name b = e.1) {p : String × Tree → Bool} {t : Tree} (ht : t.HasDistinctKeys)
    {bs : List β} (h : List.Forall₂ R (t.stringEntries.filter p) bs) : (bs.map name).Nodup := by
  rw [Pointwise.map_eq_map hR h]
  exact (List.filter_sublist.map Prod.fst).nodup ht

end VpdHeaders
