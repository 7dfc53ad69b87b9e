import Mathlib.Data.List.Basic
import Mathlib.Logic.Function.Basic
import VpdHeaders.FileSystem.Access

/-! # What lies where after a change -/
namespace VpdHeaders.FileSystem

variable {fs : FileSystem} {place : Place}

theorem find?_root (fs : FileSystem) : fs.find? [] = some .directory := rfl

theorem isDirectory_iff : fs.isDirectory place = true ↔ fs.find? place = some .directory := by
  simp [isDirectory]

private theorem lookup_filter_ne (entries : List (Place × Entry)) (place q : Place) :
    (entries.filter (·.1 != place)).lookup q = if q = place then none else entries.lookup q := by
  induction entries with
  | nil => simp
  | cons e entries ih =>
    obtain ⟨k, v⟩ := e
    by_cases hk : k = place
    · subst hk
      rw [List.filter_cons_of_neg (by simp), ih]
      by_cases hq : q = k
      · rw [if_pos hq, if_pos hq]
      · have hqk : (q == k) = false := by simp [hq]
        rw [if_neg hq, if_neg hq, List.lookup_cons, hqk]
    · by_cases hq : q = k
      · subst hq
        simp [hk]
      · have hqk : (q == k) = false := by simp [hq]
        simp [List.lookup_cons, hk, hqk, ih]

theorem find?_put (hp : place ≠ []) (entry : Entry) :
    (fs.put place entry).find? = Function.update fs.find? place (some entry) := by
  funext q
  by_cases hq : q = place
  · subst hq
    simp [find?, put, hp]
  · have hqp : (q == place) = false := by simp [hq]
    simp [find?, put, List.lookup_cons, hqp, lookup_filter_ne, hq]

theorem find?_erase (hp : place ≠ []) :
    (fs.erase place).find? = Function.update fs.find? place none := by
  funext q
  by_cases hq : q = place
  · subst hq
    simp [find?, erase, hp, lookup_filter_ne]
  · simp [find?, erase, lookup_filter_ne, hq]

/-- The root is no file, so every file can be changed. -/
theorem ne_root_of_file {file : File} (h : fs.find? place = some (.file file)) : place ≠ [] := by
  rintro rfl
  simp [find?_root] at h

theorem find?_modify {file : File} (h : fs.find? place = some (.file file)) (change : File → File) :
    (fs.modify place change).find? =
      Function.update fs.find? place (some (.file (change file))) := by
  rw [modify, h]
  exact find?_put (ne_root_of_file h) _

@[simp] theorem modify_workingDirectory (change : File → File) :
    (fs.modify place change).workingDirectory = fs.workingDirectory := by
  rw [modify]
  split <;> rfl

private theorem length_le_join {name : String} {names : List String} (h : name ∈ names) :
    name.length ≤ (String.join names).length := by
  induction names with
  | nil => simp at h
  | cons first names ih =>
    rw [String.join_cons, String.length_append]
    rcases List.mem_cons.mp h with rfl | h
    · omega
    · have hle := ih h
      omega

private theorem mem_namesIn {directory : Place} {name : String} {entry : Entry}
    (h : (directory ++ [name], entry) ∈ fs.entries) : name ∈ fs.namesIn directory :=
  List.mem_filterMap.mpr ⟨_, h, by simp⟩

/-- Nothing has the name that a new file gets. -/
theorem find?_freshName (directory : Place) :
    fs.find? (directory ++ [fs.freshName directory]) = none := by
  have hroot : directory ++ [fs.freshName directory] ≠ [] := by simp
  rw [find?, if_neg hroot, List.lookup_eq_none_iff]
  intro e he
  by_contra hkey
  have hplace : directory ++ [fs.freshName directory] = e.1 := by simpa using hkey
  have hmem : (directory ++ [fs.freshName directory], e.2) ∈ fs.entries := by
    rw [hplace]
    exact he
  have hname := mem_namesIn hmem
  have hlong := length_le_join hname
  rw [freshName, String.length_append] at hlong
  have htmp : ".tmp".length = 4 := rfl
  omega

end VpdHeaders.FileSystem
