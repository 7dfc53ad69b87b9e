import Mathlib.Data.List.Basic
import VpdHeaders.Text.Blank
import VpdHeaders.Text.Fields

/-! # The fields of a text -/
namespace VpdHeaders.Text

theorem fields_of_not_mem {sep : Char} {cs : List Char} (h : sep ∉ cs) : fields sep cs = [cs] := by
  induction cs with
  | nil => rfl
  | cons c cs ih =>
    have hc : c ≠ sep := fun he => h (he ▸ List.mem_cons_self)
    simp [fields, hc, ih fun hs => h (List.mem_cons_of_mem c hs)]

theorem fields_ne_nil (sep : Char) (cs : List Char) : fields sep cs ≠ [] := by
  induction cs with
  | nil => simp [fields]
  | cons c cs ih =>
    rw [fields]
    split
    · simp
    · rwa [ne_eq, List.modifyHead_eq_nil_iff]

/-- A separator cuts a text in two, whatever stands on either side. -/
theorem fields_append (sep : Char) (cs rest : List Char) :
    fields sep (cs ++ sep :: rest) = fields sep cs ++ fields sep rest := by
  induction cs with
  | nil => simp [fields]
  | cons c cs ih =>
    rw [List.cons_append, fields, fields, ih]
    split
    · rfl
    · obtain ⟨x, xs, hx⟩ := List.exists_cons_of_ne_nil (fields_ne_nil sep cs)
      simp [hx]

/-- Only a separator at the very end leaves an empty last field. -/
theorem getLast?_of_getLast?_fields {sep : Char} {cs : List Char}
    (h : (fields sep cs).getLast? = some []) : cs = [] ∨ cs.getLast? = some sep := by
  induction cs with
  | nil => exact .inl rfl
  | cons c cs ih =>
    right
    obtain ⟨x, xs, hx⟩ := List.exists_cons_of_ne_nil (fields_ne_nil sep cs)
    have hrest : (fields sep cs).getLast? = some [] → (c :: cs).getLast? = some sep ∨ cs = [] := by
      intro hlast
      rcases ih hlast with rfl | hcs
      · exact .inr rfl
      · simp [List.getLast?_cons, hcs]
    by_cases hc : c = sep
    · rcases hrest (by simpa [fields, hc, hx] using h) with hlast | rfl
      · exact hlast
      · simp [hc]
    · cases xs with
      | nil => simp [fields, hc, hx] at h
      | cons y ys =>
        rcases hrest (by simpa [fields, hc, hx] using h) with hlast | rfl
        · exact hlast
        · simp [fields] at hx

theorem not_mem_of_isBlankText {c : Char} (hc : isBlank c = false) {s : String}
    (hs : isBlankText s = true) : c ∉ s.toList := by
  intro h
  have hb := List.all_eq_true.mp hs c h
  simp [hc] at hb

end VpdHeaders.Text
