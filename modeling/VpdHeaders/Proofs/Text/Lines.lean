import Mathlib.Data.List.Infix
import VpdHeaders.Proofs.Text.Fields
import VpdHeaders.Text.Lines

/-! # Texts written line by line, and what their lines begin and end with -/
namespace VpdHeaders.Text

theorem fields_append_sep {sep : Char} {cs : List Char} (h : sep ∉ cs) (rest : List Char) :
    fields sep (cs ++ sep :: rest) = cs :: fields sep rest := by
  rw [fields_append, fields_of_not_mem h, List.singleton_append]

/-- Lines without a line feed are found again. Nothing stands behind the last of them. -/
theorem fieldsOf_unlines {lines : List String} (h : ∀ l ∈ lines, '\n' ∉ l.toList) :
    fieldsOf '\n' (unlines lines) = lines ++ [""] := by
  have hfields : fields '\n' (unlines lines).toList = lines.map String.toList ++ [[]] := by
    induction lines with
    | nil => rfl
    | cons l lines ih =>
      have htext : (unlines (l :: lines)).toList = l.toList ++ '\n' :: (unlines lines).toList := by
        simp [unlines]
      rw [htext, fields_append_sep (h l List.mem_cons_self),
        ih fun m hm => h m (List.mem_cons_of_mem l hm)]
      rfl
  have hback (ls : List String) : (ls.map String.toList).map String.ofList = ls := by
    rw [List.map_map]
    exact (List.map_congr_left fun l _ => String.ofList_toList).trans (List.map_id' ls)
  rw [fieldsOf, hfields, List.map_append, hback]
  rfl

/-- What holds of the characters of fixed lines, one line at a time. -/
theorem forall_toList_cons {P : List Char → Prop} {cs : List Char} {lines : List String} (h : P cs)
    (hlines : ∀ l ∈ lines, P l.toList) : ∀ l ∈ String.ofList cs :: lines, P l.toList := by
  rw [List.forall_mem_cons, String.toList_ofList]
  exact ⟨h, hlines⟩

def begins (start line : String) : Bool := start.toList.isPrefixOf line.toList

def ends (finish line : String) : Bool := finish.toList.isSuffixOf line.toList

variable {start start' line : String}

/-- No line begins with two texts of which neither begins with the other. -/
theorem begins_eq_false (h : begins start line = true) (h₁ : begins start start' = false)
    (h₂ : begins start' start = false) : begins start' line = false := by
  simp only [begins, List.isPrefixOf_iff_prefix] at h
  rw [Bool.eq_false_iff]
  intro h'
  simp only [begins, List.isPrefixOf_iff_prefix] at h'
  rcases List.prefix_or_prefix_of_prefix h h' with hp | hp
  · simp [begins, List.isPrefixOf_iff_prefix.mpr hp] at h₁
  · simp [begins, List.isPrefixOf_iff_prefix.mpr hp] at h₂

end VpdHeaders.Text
