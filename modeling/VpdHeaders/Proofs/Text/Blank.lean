import Mathlib.Data.List.TakeWhile
import VpdHeaders.Proofs.Text.Fields

/-! # Trimming takes away the blanks at both ends, and nothing else -/
namespace VpdHeaders.Text

/-- The first text is the second one with blanks in front of it and behind it. -/
def IsPadded (padded s : String) : Prop :=
  ∃ front back, isBlankText front = true ∧ isBlankText back = true ∧ padded = front ++ s ++ back

variable {padded s : String} {cs : List Char}

theorem isBlankText_append (s t : String) :
    isBlankText (s ++ t) = (isBlankText s && isBlankText t) := by simp [isBlankText]

theorem IsPadded.refl (s : String) : IsPadded s s := ⟨"", "", rfl, rfl, by simp⟩

theorem isPadded_of_toList (front back : List Char) (hfront : front.all isBlank = true)
    (hback : back.all isBlank = true) (h : padded.toList = front ++ s.toList ++ back) :
    IsPadded padded s := by
  refine ⟨String.ofList front, String.ofList back, ?_, ?_, ?_⟩
  · rwa [isBlankText, String.toList_ofList]
  · rwa [isBlankText, String.toList_ofList]
  · rw [← String.toList_inj, h]
    simp

theorem isPadded_trim (s : String) : IsPadded s (trim s) := by
  have htake (cs : List Char) : (cs.takeWhile isBlank).all isBlank = true :=
    List.all_eq_true.mpr fun c hc => List.mem_takeWhile_imp hc
  have hrest := congrArg List.reverse
    (List.takeWhile_append_dropWhile (p := isBlank) (l := (s.toList.dropWhile isBlank).reverse))
  rw [List.reverse_append, List.reverse_reverse] at hrest
  refine isPadded_of_toList (s.toList.takeWhile isBlank)
    ((s.toList.dropWhile isBlank).reverse.takeWhile isBlank).reverse (htake s.toList) ?_ ?_
  · rw [List.all_reverse]
    exact htake _
  · rw [trim, trimChars, String.toList_ofList, List.append_assoc, hrest,
      List.takeWhile_append_dropWhile]

private theorem dropWhile_append_eq (front cs back : List Char)
    (hfront : ∀ c ∈ front, isBlank c = true) (hcs : ∀ c ∈ cs, isBlank c = false) :
    (front ++ cs ++ back).dropWhile isBlank =
      if cs = [] then back.dropWhile isBlank else cs ++ back := by
  rw [List.append_assoc, List.dropWhile_append_of_pos hfront]
  cases cs with
  | nil => simp
  | cons c cs => simp [hcs c List.mem_cons_self]

private theorem trimChars_append {front back : List Char} (hfront : ∀ c ∈ front, isBlank c = true)
    (hcs : ∀ c ∈ cs, isBlank c = false) (hback : ∀ c ∈ back, isBlank c = true) :
    trimChars (front ++ cs ++ back) = cs := by
  rw [trimChars, dropWhile_append_eq front cs back hfront hcs]
  split
  · next hnil =>
    rw [List.dropWhile_eq_nil_iff.mpr hback, hnil]
    rfl
  · next hne =>
    have hreversed := dropWhile_append_eq back.reverse cs.reverse [] (by simpa using hback)
      (by simpa using hcs)
    rw [List.append_nil, List.append_nil, if_neg (by simpa using hne)] at hreversed
    rw [List.reverse_append, hreversed, List.reverse_reverse]

/-- Padding brings in nothing but blanks. -/
theorem IsPadded.not_mem {c : Char} (h : IsPadded padded s) (hc : isBlank c = false)
    (hs : c ∉ s.toList) : c ∉ padded.toList := by
  obtain ⟨front, back, hfront, hback, rfl⟩ := h
  simp only [String.toList_append, List.mem_append]
  rintro ((hmem | hmem) | hmem)
  · exact not_mem_of_isBlankText hc hfront hmem
  · exact hs hmem
  · exact not_mem_of_isBlankText hc hback hmem

/-- A text without blanks is what is left just of the texts that are padded with blanks. -/
theorem trim_eq_iff (hs : ∀ c ∈ s.toList, isBlank c = false) : trim padded = s ↔ IsPadded padded s := by
  constructor
  · rintro rfl
    exact isPadded_trim padded
  · rintro ⟨front, back, hfront, hback, rfl⟩
    rw [trim, String.toList_append, String.toList_append,
      trimChars_append (List.all_eq_true.mp hfront) hs (List.all_eq_true.mp hback),
      String.ofList_toList]

end VpdHeaders.Text
