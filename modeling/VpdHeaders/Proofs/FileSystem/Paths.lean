import Mathlib.Data.List.TakeWhile
import VpdHeaders.Proofs.FileSystem.View
import VpdHeaders.Proofs.Text.Fields

/-! # Paths lead to the same places while directories stay

What a path leads to depends on the directories that it goes through, and at its end on there being
anything at all. -/
namespace VpdHeaders

namespace Path

private theorem eq_zero_of_not_endsInSlash {path last : String} {before : List String} {k : Nat}
    (h : fields path = before ++ last :: List.replicate k "") (hs : endsInSlash path = false) :
    k = 0 := by
  rcases Nat.eq_zero_or_pos k with hk | hk
  · exact hk
  have hlast : (Text.fields '/' path.toList).getLast? = some [] := by
    have hmap := congrArg List.getLast? h
    obtain ⟨n, rfl⟩ := Nat.exists_eq_succ_of_ne_zero (Nat.ne_of_gt hk)
    rw [fields, Text.fieldsOf, List.getLast?_map, List.replicate_succ', ← List.cons_append,
      ← List.append_assoc, List.getLast?_concat] at hmap
    cases hget : (Text.fields '/' path.toList).getLast? with
    | none => simp [hget] at hmap
    | some cs =>
      have hcs : String.ofList cs = "" := by simpa [hget] using hmap
      rw [← String.toList_ofList (l := cs), hcs]
      rfl
  rcases Text.getLast?_of_getLast?_fields hlast with hempty | hslash
  · have hlength := congrArg List.length h
    rw [fields, Text.fieldsOf, hempty] at hlength
    simp [Text.fields] at hlength
    omega
  · simp [endsInSlash, hslash] at hs

/-- A path is made of the fields before its last one, of that one, and of empty fields if it ends in
a slash. -/
theorem fields_of_lastField? {path last : String} {before : List String}
    (h : lastField? path = some (before, last)) :
    last ≠ "" ∧ ∃ k, fields path = before ++ last :: List.replicate k "" ∧
      (endsInSlash path = false → k = 0) := by
  rw [lastField?] at h
  split at h
  · simp at h
  · next l rest hdrop =>
    obtain ⟨rfl, rfl⟩ : rest.reverse = before ∧ l = last := by simpa using h
    have hlast : l ≠ "" := by
      have hhead := List.head?_dropWhile_not (· == "") (fields path).reverse
      simpa [hdrop] using hhead
    have hblank : ∀ x ∈ (fields path).reverse.takeWhile (· == ""), x = "" := fun x hx => by
      simpa using List.mem_takeWhile_imp hx
    have hsplit := List.takeWhile_append_dropWhile (p := (· == "")) (l := (fields path).reverse)
    rw [hdrop, List.eq_replicate_of_mem hblank] at hsplit
    have hfields := congrArg List.reverse hsplit
    rw [List.reverse_reverse, List.reverse_append, List.reverse_cons, List.reverse_replicate,
      List.append_assoc] at hfields
    exact ⟨hlast, _, hfields.symm, fun hslash => eq_zero_of_not_endsInSlash hfields.symm hslash⟩

end Path

namespace FileSystem

variable {fs fs' : FileSystem}

/-- The same paths start from the same place, and all directories are still there. -/
structure KeepsDirectories (fs fs' : FileSystem) : Prop where
  workingDirectory : fs'.workingDirectory = fs.workingDirectory
  directories : ∀ place, fs.isDirectory place = true → fs'.isDirectory place = true

theorem KeepsDirectories.refl (fs : FileSystem) : KeepsDirectories fs fs := ⟨rfl, fun _ h => h⟩

theorem KeepsDirectories.trans {fs₁ fs₂ fs₃ : FileSystem} (h : KeepsDirectories fs₁ fs₂)
    (h' : KeepsDirectories fs₂ fs₃) : KeepsDirectories fs₁ fs₃ :=
  ⟨h'.workingDirectory.trans h.workingDirectory,
    fun place hp => h'.directories place (h.directories place hp)⟩

theorem bind_eq_ok_iff {α β ε : Type} {first : Except ε α} {next : α → Except ε β} {b : β} :
    first >>= next = .ok b ↔ ∃ a, first = .ok a ∧ next a = .ok b := by
  cases first <;> simp [bind, Except.bind]

theorem mapError_eq_ok_iff {α ε ε' : Type} {f : ε → ε'} {result : Except ε α} {a : α} :
    result.mapError f = .ok a ↔ result = .ok a := by
  cases result <;> simp [Except.mapError]

/-- What stands behind a check is reached just when the check finds nothing. -/
theorem check_eq_ok_iff {β ε : Type} {found : Prop} [Decidable found] {fault : ε}
    {next : Unit → Except ε β} {b : β} :
    (if found then .error fault >>= next else next ()) = .ok b ↔ ¬found ∧ next () = .ok b := by
  by_cases h : found <;> simp [h, bind, Except.bind]

section Step

variable {place next : Place} {field : String}

theorem isDirectory_of_step (h : fs.step place field = .ok next) : fs.isDirectory place = true := by
  rw [step] at h
  cases hd : fs.isDirectory place with
  | true => rfl
  | false => simp [hd] at h

theorem step_of_not_isName (h : ¬Path.isName field = true) :
    fs.step place field = .ok next ↔ fs.isDirectory place = true ∧ place = next := by
  rw [step]
  cases fs.isDirectory place <;> simp [h]

theorem step_up :
    fs.step place ".." = .ok next ↔ fs.isDirectory place = true ∧ place.dropLast = next := by
  rw [step]
  cases fs.isDirectory place <;> simp [Path.isName]

theorem step_down (hname : Path.isName field = true) (hup : field ≠ "..") :
    fs.step place field = .ok next ↔ fs.isDirectory place = true ∧
      placeIn place field = .ok next ∧ (fs.find? next).isSome = true := by
  rw [step]
  cases fs.isDirectory place with
  | false => simp
  | true =>
    simp only [hname, hup, Bool.not_true, Bool.false_eq_true, if_false, bind_eq_ok_iff, check_eq_ok_iff,
      true_and]
    constructor
    · rintro ⟨q, hplace, hfound, h⟩
      obtain rfl := Except.ok.inj h
      exact ⟨hplace, by simpa [Option.isSome_iff_ne_none] using hfound⟩
    · rintro ⟨hplace, hfound⟩
      exact ⟨next, hplace, by simpa [Option.isSome_iff_ne_none] using hfound, rfl⟩

private theorem step_mono (h : fs.step place field = .ok next) (hp : fs'.isDirectory place = true)
    (hn : (fs'.find? next).isSome = true) : fs'.step place field = .ok next := by
  by_cases hname : Path.isName field = true
  · by_cases hup : field = ".."
    · subst hup
      exact step_up.mpr ⟨hp, (step_up.mp h).2⟩
    · rw [step_down hname hup] at h ⊢
      exact ⟨hp, h.2.1, hn⟩
  · rw [step_of_not_isName hname] at h ⊢
    exact ⟨hp, h.2⟩

end Step

/-- Only a directory can be left. -/
theorem eq_or_isDirectory_of_steps {place last : Place} {fields : List String}
    (h : fields.foldlM fs.step place = .ok last) : place = last ∨ fs.isDirectory place = true := by
  cases fields with
  | nil => exact .inl (Except.ok.inj h)
  | cons field fields =>
    obtain ⟨next, hstep, -⟩ := bind_eq_ok_iff.mp h
    exact .inr (isDirectory_of_step hstep)

private theorem steps_mono (hk : KeepsDirectories fs fs') {place last : Place}
    {fields : List String} (h : fields.foldlM fs.step place = .ok last)
    (hl : (fs'.find? last).isSome = true) : fields.foldlM fs'.step place = .ok last := by
  induction fields generalizing place with
  | nil => exact h
  | cons field fields ih =>
    obtain ⟨next, hstep, h⟩ := bind_eq_ok_iff.mp h
    have hplace := hk.directories place (isDirectory_of_step hstep)
    have hnext : (fs'.find? next).isSome = true := by
      rcases eq_or_isDirectory_of_steps h with rfl | hd
      · exact hl
      · rw [isDirectory_iff.mp (hk.directories next hd)]
        rfl
    exact bind_eq_ok_iff.mpr ⟨next, step_mono hstep hplace hnext, ih h⟩

def base (fs : FileSystem) (path : String) : Place :=
  if Path.isAbsolute path then [] else fs.workingDirectory

/-- Neither an empty path nor a very long one leads anywhere. -/
def IsTaken (path : String) : Prop := path ≠ "" ∧ path.utf8ByteSize < pathLimit

theorem follow_eq_ok_iff {path : String} {fields : List String} {place : Place} :
    fs.follow path fields = .ok place ↔
      IsTaken path ∧ fields.foldlM fs.step (fs.base path) = .ok place := by
  rw [follow, IsTaken, base]
  by_cases hempty : path = ""
  · simp [hempty]
  by_cases hlong : pathLimit ≤ path.utf8ByteSize
  · simp [hempty, hlong, Nat.not_lt.mpr hlong]
  · simp [hempty, hlong, Nat.lt_of_not_le hlong]

/-- A way leads to the same place as before, as long as there is something. -/
theorem follow_mono_of_isSome (hk : KeepsDirectories fs fs') {path : String} {fields : List String}
    {place : Place} (h : fs.follow path fields = .ok place) (hp : (fs'.find? place).isSome = true) :
    fs'.follow path fields = .ok place := by
  rw [follow_eq_ok_iff] at h ⊢
  rw [base, hk.workingDirectory]
  exact ⟨h.1, steps_mono hk h.2 hp⟩

/-- A way through directories leads to the same directory as before. -/
theorem follow_mono (hk : KeepsDirectories fs fs') {path : String} {fields : List String}
    {place : Place} (h : fs.follow path fields = .ok place) (hp : fs.isDirectory place = true) :
    fs'.follow path fields = .ok place := by
  refine follow_mono_of_isSome hk h ?_
  rw [isDirectory_iff.mp (hk.directories place hp)]
  rfl

theorem leadsToDirectory_iff {path : String} : fs.leadsToDirectory path = true ↔
    ∃ place, fs.locate path = .ok place ∧ fs.isDirectory place = true := by
  rw [leadsToDirectory]
  cases fs.locate path with
  | ok place => simp
  | error e => simp

theorem leadsToDirectory_mono {path : String} (hk : KeepsDirectories fs fs')
    (h : fs.leadsToDirectory path = true) : fs'.leadsToDirectory path = true := by
  obtain ⟨place, hl, hd⟩ := leadsToDirectory_iff.mp h
  exact leadsToDirectory_iff.mpr ⟨place, follow_mono hk hl hd, hk.directories place hd⟩

/-- What a path that has a slot looks like. -/
theorem slot_eq_some {path : String} {place : Place} (h : fs.slot path = .ok (some place)) :
    ∃ before last directory, Path.lastField? path = some (before, last) ∧
      fs.follow path before = .ok directory ∧ fs.isDirectory directory = true ∧
      last ≠ "." ∧ last ≠ ".." ∧ placeIn directory last = .ok place := by
  rw [slot] at h
  split at h
  · cases hf : fs.follow path [] <;> simp [hf, Except.map] at h
  · next before last hlast =>
    obtain ⟨directory, hf, h⟩ := bind_eq_ok_iff.mp h
    obtain ⟨hd, h⟩ := check_eq_ok_iff.mp h
    split at h
    · cases h
    · next hdots =>
      obtain ⟨q, hplace, h⟩ := bind_eq_ok_iff.mp h
      obtain rfl := Option.some.inj (Except.ok.inj h)
      exact ⟨before, last, directory, hlast, hf, by simpa using hd, fun h => hdots (.inl h),
        fun h => hdots (.inr h), hplace⟩

theorem slot_mono {path : String} {place : Place} (hk : KeepsDirectories fs fs')
    (h : fs.slot path = .ok (some place)) :
    fs'.slot path = .ok (some place) := by
  obtain ⟨before, last, directory, hlast, hf, hd, hdot, hup, hplace⟩ := slot_eq_some h
  have hf' := follow_mono hk hf hd
  have hd' := hk.directories directory hd
  simp [slot, hlast, hf', hd', hdot, hup, hplace, bind, Except.bind, pure, Except.pure]

theorem placeIn_eq_ok {directory place : Place} {name : String}
    (h : placeIn directory name = .ok place) : place = directory ++ [name] := by
  rw [placeIn] at h
  split at h
  · simp at h
  · exact (Except.ok.inj h).symm

theorem ne_root_of_slot {path : String} {place : Place} (h : fs.slot path = .ok (some place)) :
    place ≠ [] := by
  obtain ⟨before, last, directory, -, -, -, -, -, hp⟩ := slot_eq_some h
  rw [placeIn_eq_ok hp]
  simp

private theorem steps_blank {place : Place} (h : fs.isDirectory place = true) (k : Nat) :
    (List.replicate k "").foldlM fs.step place = .ok place := by
  induction k with
  | zero => rfl
  | succ k ih =>
    have hstep : fs.step place "" = .ok place := (step_of_not_isName (by decide)).mpr ⟨h, rfl⟩
    rw [List.replicate_succ, List.foldlM_cons, hstep]
    exact ih

/-- Once there is something in the slot of a path, the path leads there. Only a directory may be
followed by slashes. -/
theorem locate_of_slot (hk : KeepsDirectories fs fs') {path : String} {place : Place}
    (h : fs.slot path = .ok (some place)) (hp : (fs'.find? place).isSome = true)
    (hs : fs'.isDirectory place = true ∨ Path.endsInSlash path = false) :
    fs'.locate path = .ok place := by
  obtain ⟨before, last, directory, hlast, hf, hd, hdot, hup, hplace⟩ := slot_eq_some h
  obtain ⟨hne, k, hfields, hk0⟩ := Path.fields_of_lastField? hlast
  have hf' := follow_mono hk hf hd
  have hd' := hk.directories directory hd
  have hname : Path.isName last = true := by simp [Path.isName, hne, hdot]
  have hstep : fs'.step directory last = .ok place := (step_down hname hup).mpr ⟨hd', hplace, hp⟩
  have hblank : (List.replicate k "").foldlM fs'.step place = .ok place := by
    rcases hs with hs | hs
    · exact steps_blank hs k
    · rw [hk0 hs]
      rfl
  rw [follow_eq_ok_iff] at hf'
  rw [locate, follow_eq_ok_iff, hfields, List.foldlM_append, hf'.2]
  refine ⟨hf'.1, ?_⟩
  change (last :: List.replicate k "").foldlM fs'.step directory = _
  rw [List.foldlM_cons, hstep]
  exact hblank

end FileSystem

end VpdHeaders
