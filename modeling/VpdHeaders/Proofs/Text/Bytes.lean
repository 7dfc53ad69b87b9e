import Mathlib.Data.List.Basic

/-! # Texts and their bytes -/
namespace VpdHeaders.Text

private theorem toList_loop_eq (bytes : ByteArray) (i : Nat) (read : List UInt8) :
    ByteArray.toList.loop bytes i read = read.reverse ++ bytes.data.toList.drop i := by
  fun_induction ByteArray.toList.loop bytes i read with
  | case1 i read h ih =>
    have hi : i < bytes.data.toList.length := by simpa using h
    have hbyte : bytes.get! i = bytes.data.toList[i] := by
      rw [ByteArray.get!, getElem!_pos bytes.data i h, Array.getElem_toList]
    rw [ih, List.drop_eq_getElem_cons hi, hbyte]
    simp
  | case2 i read h =>
    have hi : bytes.data.toList.length ≤ i := by simpa using h
    rw [List.drop_eq_nil_of_le hi, List.append_nil]

private theorem eq_toList_iff {bytes : List UInt8} {b : ByteArray} :
    bytes = b.toList ↔ (⟨bytes.toArray⟩ : ByteArray) = b := by
  have h : b.toList = b.data.toList := by simp [ByteArray.toList, toList_loop_eq]
  rw [h]
  constructor
  · rintro rfl
    exact ByteArray.ext (by simp)
  · rintro rfl
    rfl

/-- Bytes are read as a text just when the text is written as these bytes. -/
theorem fromUTF8?_eq_some_iff {bytes : List UInt8} {text : String} :
    String.fromUTF8? ⟨bytes.toArray⟩ = some text ↔ bytes = text.toUTF8.toList := by
  rw [eq_toList_iff]
  constructor
  · intro h
    rw [String.fromUTF8?] at h
    split at h
    · obtain rfl := Option.some.inj h
      rfl
    · cases h
  · intro h
    rw [h, String.fromUTF8?, String.toUTF8_eq_toByteArray, dif_pos text.isValidUTF8]
    rfl

end VpdHeaders.Text
