import Mathlib.Data.List.Basic
import VpdHeaders.Proofs.Text.Fields

/-! # Cutting a text at a separator, and joining the parts again -/
namespace VpdHeaders.Text

theorem toList_joined (sep : String) (parts : List String) :
    (joined sep parts).toList = sep.toList.intercalate (parts.map String.toList) := by
  induction parts with
  | nil => rfl
  | cons s rest ih =>
    cases rest with
    | nil => simp [joined]
    | cons t rest => simpa [joined] using ih

theorem ofList_intercalate (sep : String) (parts : List (List Char)) :
    String.ofList (sep.toList.intercalate parts) = joined sep (parts.map String.ofList) := by
  have hback : (parts.map String.ofList).map String.toList = parts := by simp
  rw [← String.toList_inj, toList_joined, String.toList_ofList, hback]

section Fields

theorem fields_eq_splitOn (sep : Char) (cs : List Char) : fields sep cs = cs.splitOn sep := by
  induction cs with
  | nil => simp [fields]
  | cons c cs ih =>
    simp [fields, ih, List.splitOn_eq_splitOnP, List.splitOnP_cons_eq_if_modifyHead]

theorem not_mem_of_mem_fields {sep : Char} {cs p : List Char} (h : p ∈ fields sep cs) : sep ∉ p := by
  induction cs generalizing p with
  | nil =>
    obtain rfl := List.mem_singleton.mp h
    exact List.not_mem_nil
  | cons c cs ih =>
    rw [fields] at h
    split at h
    · rcases List.mem_cons.mp h with rfl | h
      · simp
      · exact ih h
    · next hc =>
      obtain ⟨x, xs, hx⟩ := List.exists_cons_of_ne_nil (fields_ne_nil sep cs)
      rw [hx, List.modifyHead_cons] at h
      rcases List.mem_cons.mp h with rfl | h
      · have hfirst := ih (p := x) (by simp [hx])
        simpa [Ne.symm hc] using hfirst
      · exact ih (by simp [hx, h])

/-- The fields of a text are the texts without a separator that it is joined from. -/
theorem fieldsOf_eq_iff {sep : Char} {s : String} {parts : List String} :
    fieldsOf sep s = parts ↔ parts ≠ [] ∧ s = joined (String.singleton sep) parts ∧
      ∀ p ∈ parts, sep ∉ p.toList := by
  have hsep : (String.singleton sep).toList = [sep] := by simp
  constructor
  · rintro rfl
    refine ⟨by simpa [fieldsOf] using fields_ne_nil sep s.toList, ?_, ?_⟩
    · rw [fieldsOf, ← ofList_intercalate, hsep, fields_eq_splitOn, List.intercalate_splitOn,
        String.ofList_toList]
    · intro p hp
      obtain ⟨cs, hcs, rfl⟩ := List.mem_map.mp hp
      rw [String.toList_ofList]
      exact not_mem_of_mem_fields hcs
  · rintro ⟨hne, rfl, hparts⟩
    rw [fieldsOf, fields_eq_splitOn, toList_joined, hsep,
      List.splitOn_intercalate sep (by simpa using hparts) (by simpa using hne)]
    simp

end Fields

section Colons

theorem colonFields_ne_nil (cs : List Char) : colonFields cs ≠ [] := by
  fun_induction colonFields cs with
  | case1 => simp
  | case2 c => simp
  | case3 cs => simp
  | case4 c d cs h ih => simpa using ih

private theorem intercalate_colonFields (cs : List Char) :
    [':', ':'].intercalate (colonFields cs) = cs := by
  fun_induction colonFields cs with
  | case1 => rfl
  | case2 c => simp
  | case3 c d cs h ih =>
    obtain ⟨x, xs, hx⟩ := List.exists_cons_of_ne_nil (colonFields_ne_nil cs)
    rw [hx] at ih ⊢
    simp [ih, h]
  | case4 c d cs h ih =>
    obtain ⟨x, xs, hx⟩ := List.exists_cons_of_ne_nil (colonFields_ne_nil (d :: cs))
    rw [hx] at ih ⊢
    rw [← ih]
    cases xs <;> simp

private theorem colonFields_cons_of_ne {c : Char} (hc : c ≠ ':') (cs : List Char) :
    colonFields (c :: cs) = (colonFields cs).modifyHead (c :: ·) := by
  cases cs with
  | nil => rfl
  | cons d cs => simp [colonFields, hc]

variable {p : List Char}

private theorem colonFields_append (h : ':' ∉ p) (rest : List Char) :
    colonFields (p ++ rest) = (colonFields rest).modifyHead (p ++ ·) := by
  induction p with
  | nil => exact (congrFun List.modifyHead_id _).symm
  | cons c p ih =>
    have hc : c ≠ ':' := fun he => h (he ▸ List.mem_cons_self)
    rw [List.cons_append, colonFields_cons_of_ne hc, ih fun hp => h (List.mem_cons_of_mem c hp),
      List.modifyHead_modifyHead]
    rfl

private theorem colonFields_intercalate {parts : List (List Char)} (hne : parts ≠ [])
    (h : ∀ p ∈ parts, ':' ∉ p) : colonFields ([':', ':'].intercalate parts) = parts := by
  induction parts with
  | nil => exact absurd rfl hne
  | cons p parts ih =>
    have hp := h p List.mem_cons_self
    cases parts with
    | nil =>
      have hnil := colonFields_append hp []
      rw [List.append_nil] at hnil
      simpa [colonFields] using hnil
    | cons q parts =>
      have hrest := ih (by simp) fun r hr => h r (List.mem_cons_of_mem p hr)
      rw [List.intercalate_cons_cons, List.append_assoc, colonFields_append hp]
      simp [colonFields, hrest]

private theorem toList_colons : "::".toList = [':', ':'] := rfl

theorem joined_colonFields (s : String) :
    joined "::" ((colonFields s.toList).map String.ofList) = s := by
  rw [← ofList_intercalate, toList_colons, intercalate_colonFields, String.ofList_toList]

theorem colonFields_joined {parts : List String} (hne : parts ≠ [])
    (h : ∀ p ∈ parts, ':' ∉ p.toList) :
    (colonFields (joined "::" parts).toList).map String.ofList = parts := by
  rw [toList_joined, toList_colons,
    colonFields_intercalate (by simpa using hne) (by simpa using h)]
  simp

end Colons

end VpdHeaders.Text
