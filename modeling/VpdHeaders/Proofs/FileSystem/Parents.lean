import VpdHeaders.Proofs.FileSystem.Progress
import VpdHeaders.Proofs.FileSystem.Reading
import VpdHeaders.Proofs.Path.Ancestors

/-! # Where the directories lie that a path goes through

Fields that name nothing lead nowhere else, so two paths with the same names and the same start go the
same way. -/
namespace VpdHeaders.FileSystem

variable {fs : FileSystem} {place last : Place} {field path p : String} {fields missing : List String}

section Names

private theorem steps_filter (h : fields.foldlM fs.step place = .ok last) :
    (fields.filter Path.isName).foldlM fs.step place = .ok last := by
  induction fields generalizing place with
  | nil => exact h
  | cons field fields ih =>
    obtain ⟨next, hstep, h⟩ := bind_eq_ok_iff.mp h
    by_cases hname : Path.isName field = true
    · rw [List.filter_cons_of_pos hname]
      exact bind_eq_ok_iff.mpr ⟨next, hstep, ih h⟩
    · obtain ⟨-, rfl⟩ := (step_of_not_isName hname).mp hstep
      rw [List.filter_cons_of_neg hname]
      exact ih h

private theorem steps_of_filter (h : (fields.filter Path.isName).foldlM fs.step place = .ok last)
    (hl : fs.isDirectory last = true) : fields.foldlM fs.step place = .ok last := by
  induction fields generalizing place with
  | nil => exact h
  | cons field fields ih =>
    by_cases hname : Path.isName field = true
    · rw [List.filter_cons_of_pos hname] at h
      obtain ⟨next, hstep, h⟩ := bind_eq_ok_iff.mp h
      exact bind_eq_ok_iff.mpr ⟨next, hstep, ih h⟩
    · rw [List.filter_cons_of_neg hname] at h
      have hplace : fs.isDirectory place = true := by
        rcases eq_or_isDirectory_of_steps h with rfl | hd
        · exact hl
        · exact hd
      exact bind_eq_ok_iff.mpr ⟨place, (step_of_not_isName hname).mpr ⟨hplace, rfl⟩, ih h⟩

/-- The way to a directory is told by the names on it. -/
theorem follow_filter (h : fs.follow path fields = .ok place) :
    fs.follow path (fields.filter Path.isName) = .ok place := by
  rw [follow_eq_ok_iff] at h ⊢
  exact ⟨h.1, steps_filter h.2⟩

end Names

section Over

theorem isTaken_of_isOver (h : Path.IsOver p path missing) (ht : IsTaken path) : IsTaken p :=
  ⟨h.ne_empty, Nat.lt_of_le_of_lt h.size ht.2⟩

theorem base_of_isOver (h : Path.IsOver p path missing) : fs.base p = fs.base path := by
  rw [base, base, h.absolute]

/-- A path on the way leads to the directory that its names lead to. -/
theorem locate_of_isOver (h : Path.IsOver p path missing)
    (hf : fs.follow path (Path.names p) = .ok place) (hd : fs.isDirectory place = true) :
    fs.locate p = .ok place := by
  rw [follow_eq_ok_iff] at hf
  rw [locate, follow_eq_ok_iff, base_of_isOver h]
  exact ⟨isTaken_of_isOver h hf.1, steps_of_filter hf.2 hd⟩

theorem leadsToDirectory_of_mem_ancestors (h : fs.locate path = .ok place)
    (hp : p ∈ Path.ancestors path) (hne : p ≠ "") : fs.leadsToDirectory p = true := by
  obtain ⟨missing, hm, hover⟩ := Path.isOver_of_mem_ancestors hp hne
  have hnames : fs.follow path (Path.names p ++ missing) = .ok place := by
    rw [← hover.names]
    exact follow_filter h
  rw [follow_eq_ok_iff, List.foldlM_append] at hnames
  obtain ⟨ht, hsteps⟩ := hnames
  obtain ⟨directory, hfirst, hrest⟩ := bind_eq_ok_iff.mp hsteps
  have hd : fs.isDirectory directory = true := by
    obtain ⟨name, rest, rfl⟩ := List.exists_cons_of_ne_nil hm
    obtain ⟨next, hstep, -⟩ := bind_eq_ok_iff.mp hrest
    exact isDirectory_of_step hstep
  exact leadsToDirectory_iff.mpr
    ⟨directory, locate_of_isOver hover (follow_eq_ok_iff.mpr ⟨ht, hfirst⟩) hd, hd⟩

/-- A file is put into the directory of its path. -/
theorem locate_directoryOf (h : fs.slot path = .ok (some place)) :
    fs.locate (Disk.directoryOf path) = .ok place.dropLast ∧ fs.isDirectory place.dropLast = true := by
  obtain ⟨before, last, directory, hlast, hf, hd, hdot, hup, hplace⟩ := slot_eq_some h
  obtain ⟨hne, k, hfields, -⟩ := Path.fields_of_lastField? hlast
  obtain rfl : place.dropLast = directory := by rw [placeIn_eq_ok hplace, List.dropLast_concat]
  have hname : Path.isName last = true := by simp [Path.isName, hne, hdot]
  have hnames : Path.names path = before.filter Path.isName ++ [last] := by
    have hblank : (List.replicate k "").filter Path.isName = [] := by simp [Path.isName]
    rw [Path.names, hfields, List.filter_append, List.filter_cons_of_pos hname, hblank]
  have hsome : Path.names path ≠ [] := by simp [hnames]
  obtain ⟨name, hover⟩ := Path.isOver_directoryOf hsome
  have hbefore : before.filter Path.isName = Path.names (Disk.directoryOf path) :=
    (List.append_inj' (hnames.symm.trans hover.names) rfl).1
  refine ⟨locate_of_isOver hover ?_ hd, hd⟩
  rw [← hbefore]
  exact follow_filter hf

end Over

section Loops

/-- A directory that the path lies in has the place of the path itself, as in `a/../a`. -/
def Loops (fs : FileSystem) (path : String) : Prop :=
  ∃ p ∈ Path.ancestors path, p ≠ "" ∧ fs.named p = fs.named path

private theorem foldl_go (h : ".." ∉ fields) (place : Place) :
    fields.foldl go place = place ++ fields.filter Path.isName := by
  induction fields generalizing place with
  | nil => exact (List.append_nil place).symm
  | cons field fields ih =>
    obtain ⟨hup, hrest⟩ : field ≠ ".." ∧ ".." ∉ fields := by simpa [eq_comm] using h
    rw [List.foldl_cons, ih hrest, go]
    by_cases hname : Path.isName field = true
    · simp [hname, hup]
    · simp [hname]

/-- A path that never goes up names the place that its names spell. -/
theorem named_of_not_mem (fs : FileSystem) (h : ".." ∉ Path.fields path) :
    fs.named path = fs.base path ++ Path.names path := foldl_go h _

/-- Only a path that goes up can come back to where it is. -/
theorem up_of_loops (h : fs.Loops path) : ".." ∈ Path.fields path := by
  obtain ⟨p, hp, hne, hsame⟩ := h
  obtain ⟨missing, hm, hover⟩ := Path.isOver_of_mem_ancestors hp hne
  by_contra hup
  have hup' : ".." ∉ Path.fields p := by
    intro hmem
    have hnames : ".." ∈ Path.names path := by
      rw [hover.names]
      exact List.mem_append_left _ (List.mem_filter.mpr ⟨hmem, rfl⟩)
    exact hup (List.mem_filter.mp hnames).1
  rw [named_of_not_mem fs hup, named_of_not_mem fs hup', base_of_isOver hover, hover.names,
    List.append_cancel_left_eq] at hsame
  exact hm (List.self_eq_append_right.mp hsame)

end Loops

end VpdHeaders.FileSystem
