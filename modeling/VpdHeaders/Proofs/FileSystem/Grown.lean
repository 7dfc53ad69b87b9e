import VpdHeaders.Proofs.FileSystem.Paths

/-! # Growth: files stay as they are, and directories may come on the way to something -/
namespace VpdHeaders.FileSystem

variable {fs fs' fs₁ fs₂ fs₃ : FileSystem} {paths : List String} {place : Place} {file : File}

def fileAt? (fs : FileSystem) (place : Place) : Option File :=
  match fs.find? place with
  | some (.file file) => some file
  | _ => none

theorem fileAt?_eq_some_iff : fs.fileAt? place = some file ↔ fs.find? place = some (.file file) := by
  rw [fileAt?]
  split <;> simp_all

theorem fileAt?_congr (h : fs'.find? place = fs.find? place) :
    fs'.fileAt? place = fs.fileAt? place := by
  rw [fileAt?, fileAt?, h]

theorem isDirectory_congr (h : fs'.find? place = fs.find? place) :
    fs'.isDirectory place = fs.isDirectory place := by
  rw [isDirectory, isDirectory, h]

/-- Directories are kept by whatever happens where none is. -/
theorem KeepsDirectories.of_update {entry : Option Entry}
    (hw : fs'.workingDirectory = fs.workingDirectory)
    (h : fs'.find? = Function.update fs.find? place entry) (hd : fs.isDirectory place = false) :
    KeepsDirectories fs fs' := by
  refine ⟨hw, fun q hq => ?_⟩
  have hne : q ≠ place := by
    rintro rfl
    simp [hd] at hq
  exact (isDirectory_congr (by rw [h, Function.update_of_ne hne])).trans hq

/-- All files are as before but the one at the place that is written, if there is one, and each
directory that was not there before is one that these paths lead to. -/
structure Grown (paths : List String) (written : Option Place) (fs fs' : FileSystem) : Prop
    extends KeepsDirectories fs fs' where
  files : ∀ place, written ≠ some place → fs'.fileAt? place = fs.fileAt? place
  onTheWay : ∀ place, fs'.isDirectory place = true →
    fs.isDirectory place = true ∨ ∃ path ∈ paths, fs'.locate path = .ok place

namespace Grown

variable {written : Option Place}

/-- Where the same lies everywhere, nothing has happened. -/
theorem of_find?_eq (hw : fs'.workingDirectory = fs.workingDirectory) (h : fs'.find? = fs.find?) :
    Grown paths none fs fs' where
  workingDirectory := hw
  directories place hp := by rwa [isDirectory_congr (congrFun h place)]
  files place _ := fileAt?_congr (congrFun h place)
  onTheWay place hp := .inl (by rwa [← isDirectory_congr (congrFun h place)])

theorem refl (paths : List String) (fs : FileSystem) : Grown paths none fs fs := of_find?_eq rfl rfl

theorem mono {paths' : List String} (h : Grown paths written fs fs') (hs : paths ⊆ paths') :
    Grown paths' written fs fs' where
  toKeepsDirectories := h.toKeepsDirectories
  files := h.files
  onTheWay place hp := by
    rcases h.onTheWay place hp with hd | ⟨path, hmem, hl⟩
    · exact .inl hd
    · exact .inr ⟨path, hs hmem, hl⟩

/-- A path that leads to a new directory leads there after later growth too. -/
theorem trans (h : Grown paths none fs₁ fs₂) (h' : Grown paths written fs₂ fs₃) :
    Grown paths written fs₁ fs₃ where
  toKeepsDirectories := h.toKeepsDirectories.trans h'.toKeepsDirectories
  files place hp := (h'.files place hp).trans (h.files place (by simp))
  onTheWay place hp := by
    rcases h'.onTheWay place hp with hd | hnew
    · rcases h.onTheWay place hd with hd₁ | ⟨path, hmem, hl⟩
      · exact .inl hd₁
      · exact .inr ⟨path, hmem, follow_mono h'.toKeepsDirectories hl hd⟩
    · exact .inr hnew

/-- A file that is put where no directory is changes nothing else. -/
theorem of_update (hw : fs'.workingDirectory = fs.workingDirectory)
    (h : fs'.find? = Function.update fs.find? place (some (.file file)))
    (hd : fs.isDirectory place = false) : Grown paths (some place) fs fs' := by
  refine ⟨.of_update hw h hd, fun q hq => ?_, fun q hq => .inl ?_⟩
  · have hne : q ≠ place := fun he => hq (by rw [he])
    exact fileAt?_congr (by rw [h, Function.update_of_ne hne])
  · have hne : q ≠ place := by
      rintro rfl
      rw [isDirectory, h, Function.update_self] at hq
      cases hq
    exact (isDirectory_congr (by rw [h, Function.update_of_ne hne])).symm.trans hq

end Grown

theorem makeDirectory_eq_ok {path : String} (h : fs.makeDirectory path = .ok fs') :
    ∃ place, fs.slot path = .ok (some place) ∧ fs.find? place = none ∧
      fs' = fs.put place .directory := by
  rw [makeDirectory] at h
  split at h
  · cases h
  obtain ⟨slot, hslot, h⟩ := bind_eq_ok_iff.mp h
  cases slot with
  | none => cases h
  | some place =>
    obtain ⟨hfree, h⟩ := check_eq_ok_iff.mp h
    exact ⟨place, mapError_eq_ok_iff.mp hslot, by simpa using hfree, (Except.ok.inj h).symm⟩

/-- The only new directory is the one that was asked for, and its path leads to it. -/
theorem Grown.of_makeDirectory {path : String} (h : fs.makeDirectory path = .ok fs') :
    Grown [path] none fs fs' := by
  obtain ⟨place, hslot, hfree, rfl⟩ := makeDirectory_eq_ok h
  have hfind : (fs.put place .directory).find? = _ := find?_put (ne_root_of_slot hslot) .directory
  have hhere : (fs.put place .directory).find? place = some .directory := by
    rw [hfind, Function.update_self]
  have hkeeps : KeepsDirectories fs (fs.put place .directory) :=
    .of_update rfl hfind (by rw [isDirectory, hfree]; rfl)
  have hlocate : (fs.put place .directory).locate path = .ok place :=
    locate_of_slot hkeeps hslot (by rw [hhere]; rfl) (.inl (isDirectory_iff.mpr hhere))
  refine ⟨hkeeps, fun q _ => ?_, fun q hq => ?_⟩
  · by_cases hqp : q = place
    · rw [hqp, fileAt?, fileAt?, hhere, hfree]
    · exact fileAt?_congr (by rw [hfind, Function.update_of_ne hqp])
  · by_cases hqp : q = place
    · exact .inr ⟨path, by simp, hqp ▸ hlocate⟩
    · exact .inl ((isDirectory_congr (by rw [hfind, Function.update_of_ne hqp])).symm.trans hq)

theorem rename_eq_ok {source : Place} {path : String} (h : fs.rename source path = .ok fs') :
    path.toList.contains '\x00' = false ∧
      ∃ place entry, fs.slot path = .ok (some place) ∧ Path.endsInSlash path = false ∧
        fs.isDirectory place = false ∧ fs.find? source = some entry ∧
        fs' = (fs.erase source).put place entry := by
  rw [rename] at h
  split at h
  · cases h
  next hnul =>
  obtain ⟨slot, hslot, h⟩ := bind_eq_ok_iff.mp h
  cases slot with
  | none => cases h
  | some place =>
    obtain ⟨hslash, h⟩ := check_eq_ok_iff.mp h
    obtain ⟨hd, h⟩ := check_eq_ok_iff.mp h
    cases hentry : fs.find? source with
    | none =>
      rw [hentry] at h
      cases h
    | some entry =>
      rw [hentry] at h
      exact ⟨by simpa using hnul, place, entry, mapError_eq_ok_iff.mp hslot, by simpa using hslash,
        by simpa using hd, rfl, (Except.ok.inj h).symm⟩

end VpdHeaders.FileSystem
