import VpdHeaders.Proofs.FileSystem.Grown
import VpdHeaders.Proofs.Text.Bytes

/-! # Reading a file while other files change

A path names one place in all file systems with the same working directory, whatever lies there. -/
namespace VpdHeaders.FileSystem

variable {fs fs' : FileSystem} {path text : String} {place : Place}

def go (place : Place) (field : String) : Place :=
  if !Path.isName field then place
  else if field = ".." then place.dropLast
  else place ++ [field]

/-- The place that a path names. -/
def named (fs : FileSystem) (path : String) : Place :=
  (Path.fields path).foldl go (if Path.isAbsolute path then [] else fs.workingDirectory)

theorem named_congr (h : fs'.workingDirectory = fs.workingDirectory) (path : String) :
    fs'.named path = fs.named path := by
  rw [named, named, h]

private theorem eq_go_of_step {next : Place} {field : String} (h : fs.step place field = .ok next) :
    next = go place field := by
  rw [go]
  by_cases hname : Path.isName field = true
  · by_cases hup : field = ".."
    · subst hup
      rw [if_neg (by decide), if_pos rfl, (step_up.mp h).2]
    · rw [if_neg (by simp [hname]), if_neg hup, placeIn_eq_ok ((step_down hname hup).mp h).2.1]
  · rw [if_pos (by simp [hname]), ((step_of_not_isName hname).mp h).2]

private theorem eq_foldl_of_steps {start : Place} {fields : List String}
    (h : fields.foldlM fs.step start = .ok place) : place = fields.foldl go start := by
  induction fields generalizing start with
  | nil => exact (Except.ok.inj h).symm
  | cons field fields ih =>
    obtain ⟨next, hstep, h⟩ := bind_eq_ok_iff.mp h
    rw [List.foldl_cons, ← eq_go_of_step hstep]
    exact ih h

theorem eq_named_of_locate (h : fs.locate path = .ok place) : place = fs.named path := by
  rw [locate, follow_eq_ok_iff] at h
  exact eq_foldl_of_steps h.2

/-- What is read is the text that the bytes of a file stand for. -/
theorem readText_eq_ok_iff : fs.readText path = .ok text ↔
    path.toList.contains '\x00' = false ∧ ∃ place file, fs.locate path = .ok place ∧
      fs.fileAt? place = some file ∧ file.contents = text.toUTF8.toList := by
  rw [readText]
  cases hnul : path.toList.contains '\x00' with
  | true => simp
  | false =>
    rw [if_neg (by simp)]
    cases hl : fs.locate path with
    | error e => simp [Except.mapError, bind, Except.bind]
    | ok place =>
      cases hfind : fs.find? place with
      | none => simp [fileAt?, hfind, Except.mapError, bind, Except.bind]
      | some entry =>
        cases entry with
        | directory => simp [fileAt?, hfind, Except.mapError, bind, Except.bind]
        | file file =>
          have hfile := fileAt?_eq_some_iff.mpr hfind
          have hdecode := @Text.fromUTF8?_eq_some_iff file.contents text
          cases htext : String.fromUTF8? ⟨file.contents.toArray⟩ <;> rw [htext] at hdecode <;>
            simpa [hfind, hfile, htext, Except.mapError, bind, Except.bind, pure, Except.pure]
              using hdecode

/-- What is read is read again if directories stay and the file that the path names does not change. -/
theorem readText_mono (hk : KeepsDirectories fs fs')
    (hf : fs'.fileAt? (fs.named path) = fs.fileAt? (fs.named path))
    (h : fs.readText path = .ok text) : fs'.readText path = .ok text := by
  obtain ⟨hnul, place, file, hl, hfile, htext⟩ := readText_eq_ok_iff.mp h
  rw [← eq_named_of_locate hl, hfile] at hf
  have hthere : (fs'.find? place).isSome = true := by
    cases hfind : fs'.find? place with
    | none => simp [fileAt?, hfind] at hf
    | some entry => rfl
  exact readText_eq_ok_iff.mpr ⟨hnul, place, file, follow_mono_of_isSome hk hl hthere, hf, htext⟩

end VpdHeaders.FileSystem
