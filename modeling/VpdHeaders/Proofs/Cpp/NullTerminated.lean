import Mathlib.Data.List.TakeWhile
import VpdHeaders.Cpp.Literal

/-! # Strings made from a pointer to a literal

Such a string ends in front of the first NUL, whatever the literal holds behind it. -/
namespace VpdHeaders.Cpp

def IsNullFree (s : String) : Prop := '\x00' ∉ s.toList

def upToNull (s : String) : String := String.ofList (s.toList.takeWhile (· ≠ '\x00'))

theorem isNullFree_upToNull (s : String) : IsNullFree (upToNull s) := by
  rw [IsNullFree, upToNull, String.toList_ofList]
  intro h
  simpa using List.mem_takeWhile_imp h

theorem upToNull_eq_self_iff {s : String} : upToNull s = s ↔ IsNullFree s := by
  constructor
  · intro h
    rw [← h]
    exact isNullFree_upToNull s
  · intro h
    have hall : s.toList.takeWhile (· ≠ '\x00') = s.toList := by
      rw [List.takeWhile_eq_self_iff]
      intro c hc
      simpa using fun he : c = '\x00' => h (he ▸ hc)
    rw [upToNull, hall, String.ofList_toList]

end VpdHeaders.Cpp
