import VpdHeaders.Proofs.FileSystem.Output

/-! # Where nothing is in the way, a file is written -/
namespace VpdHeaders.FileSystem

variable {fs fs' : FileSystem} {place : Place} {path : String}

theorem rename_of_slot {source : Place} {entry : Entry} (hn : path.toList.contains '\x00' = false)
    (hs : Path.endsInSlash path = false) (h : fs.slot path = .ok (some place))
    (hd : fs.isDirectory place = false) (he : fs.find? source = some entry) :
    fs.rename source path = .ok ((fs.erase source).put place entry) := by
  rw [rename, if_neg (by rw [hn]; simp), h]
  simp [hs, hd, he, Except.mapError, bind, Except.bind, pure, Except.pure]

private theorem follow_of_append {before after : List String} {q : Place}
    (h : fs.follow path (before ++ after) = .ok q) : ∃ p, fs.follow path before = .ok p := by
  rw [follow_eq_ok_iff, List.foldlM_append] at h
  obtain ⟨p, hp, -⟩ := bind_eq_ok_iff.mp h.2
  exact ⟨p, follow_eq_ok_iff.mpr ⟨h.1, hp⟩⟩

private theorem slot_ne_notFound (h : fs.locate path = .ok place) :
    fs.slot path ≠ .error .notFound := by
  rw [locate] at h
  rw [slot]
  split
  · obtain ⟨p, hp⟩ : ∃ p, fs.follow path [] = .ok p := follow_of_append h
    simp [hp, Except.map]
  · next before last hlast =>
    obtain ⟨-, k, hfields, -⟩ := Path.fields_of_lastField? hlast
    rw [hfields] at h
    obtain ⟨p, hp⟩ := follow_of_append h
    cases hd : fs.isDirectory p with
    | false => simp [hp, hd, bind, Except.bind]
    | true =>
      by_cases hdots : last = "." ∨ last = ".."
      · simp [hp, hd, hdots, bind, Except.bind, pure, Except.pure]
      · by_cases hlong : nameLimit ≤ last.utf8ByteSize
        · simp [hp, hd, hdots, placeIn, hlong, bind, Except.bind]
        · simp [hp, hd, hdots, placeIn, hlong, bind, Except.bind, pure, Except.pure]

private theorem slot_of_makeDirectory_notFound
    (h : fs.makeDirectory path = .error (.system .notFound)) : fs.slot path = .error .notFound := by
  rw [makeDirectory] at h
  split at h
  · simp at h
  cases hslot : fs.slot path with
  | error e => simpa [hslot, Except.mapError, bind, Except.bind] using h
  | ok slot =>
    cases slot with
    | none => simp [hslot, Except.mapError, bind, Except.bind] at h
    | some q =>
      cases hfind : fs.find? q with
      | none => simp [hslot, hfind, Except.mapError, bind, Except.bind, pure, Except.pure] at h
      | some entry => simp [hslot, hfind, Except.mapError, bind, Except.bind] at h

/-- Where there is a directory none can be made, and it is not for want of one above it. -/
theorem makeDirectory_of_leadsToDirectory (h : fs.leadsToDirectory path = true) :
    ∃ fault, fs.makeDirectory path = .error fault ∧ fault ≠ .system .notFound := by
  obtain ⟨place, hl, hd⟩ := leadsToDirectory_iff.mp h
  cases hm : fs.makeDirectory path with
  | error fault =>
    refine ⟨fault, rfl, ?_⟩
    rintro rfl
    exact slot_ne_notFound hl (slot_of_makeDirectory_notFound hm)
  | ok fs' =>
    have hg := Grown.of_makeDirectory hm
    obtain ⟨q, hslot, hfree, rfl⟩ := makeDirectory_eq_ok hm
    have hq : (fs.put q .directory).isDirectory q = true := by
      rw [isDirectory_iff, find?_put (ne_root_of_slot hslot), Function.update_self]
    -- The path would lead to the new directory and to the one that is there.
    rcases hg.onTheWay q hq with hold | ⟨p, hp, hnew⟩
    · rw [isDirectory_iff, hfree] at hold
      cases hold
    · obtain rfl : p = path := by simpa using hp
      have hsame := hnew.symm.trans (follow_mono hg.toKeepsDirectories hl hd)
      obtain rfl := Except.ok.inj hsame
      rw [isDirectory_iff, hfree] at hd
      cases hd

section Outcome

variable {text : String} {temporary : Place} {file : File}

private theorem outcome_change (f : FileSystem → Except FileFault FileSystem)
    (h : f fs = .ok fs') : outcome (guarded none (change f)) fs = (.ok (), fs') := by
  rw [guarded, change, outcome_bind_ok (outcome_get fs), h]
  rfl

/-- Directories that are there already are left alone. -/
theorem outcome_createDirectories (path : String) (above : List String)
    (h : path.isEmpty = true ∨ fs.leadsToDirectory path = true) :
    outcome ((disk noFaults).createDirectories (path :: above)) fs = (.ok (), fs) := by
  rw [Disk.createDirectories]
  by_cases hempty : path.isEmpty = true
  · rw [if_pos hempty]
    rfl
  rw [if_neg hempty]
  have hthere := h.resolve_left hempty
  obtain ⟨fault, hm, hne⟩ := makeDirectory_of_leadsToDirectory hthere
  have hmake : outcome ((disk noFaults).makeDirectory path) fs = (.error fault, fs) := by
    change outcome (guarded none (change (·.makeDirectory path))) fs = _
    rw [guarded, change, outcome_bind_ok (outcome_get fs), hm]
    rfl
  have hlook : outcome (liftM ((disk noFaults).isDirectory path) :
      ExceptT FileFault (StateM FileSystem) Bool) fs = (.ok (fs.leadsToDirectory path), fs) := rfl
  rw [outcome_tryCatch_error hmake, if_neg hne, Disk.unlessDirectory, outcome_bind_ok hlook, hthere]
  rfl

theorem outcome_createTemporary {directory : String} (h : fs.leadsToDirectory directory = true) :
    ∃ temporary fs', outcome ((disk noFaults).createTemporary directory) fs = (.ok temporary, fs') ∧
      Holds temporary ⟨[], 0o600⟩ fs fs' := by
  obtain ⟨place, hl, hd⟩ := leadsToDirectory_iff.mp h
  have hc : fs.createTemporary directory = .ok (place ++ [fs.freshName place],
      fs.put (place ++ [fs.freshName place]) (.file ⟨[], 0o600⟩)) := by
    simp [createTemporary, hl, hd, Except.mapError, bind, Except.bind, pure, Except.pure]
  rcases createTemporary_cases noFaults fs directory with
    ⟨fault, -, hfault | hfault⟩ | ⟨-, -, hcreated⟩
  · cases hfault
  · rw [hc] at hfault
    cases hfault
  · exact hcreated

theorem outcome_fill (hw : fs.IsWritable path place) (h : Holds temporary file fs fs')
    (text : String) :
    ∃ fs₁, outcome ((disk noFaults).fill temporary path text) fs' = (.ok (), fs₁) := by
  have hwrite : outcome ((disk noFaults).writeText temporary text) fs' = (.ok (), _) :=
    outcome_change _ rfl
  have h₁ := h.modify fun file => { file with contents := text.toUTF8.toList }
  have hmode (fs₁ : FileSystem) : outcome ((disk noFaults).setMode temporary Disk.headerMode) fs₁ =
      (.ok (), fs₁.modify temporary fun file => { file with mode := Disk.headerMode }) :=
    outcome_change _ rfl
  have h₂ := h₁.modify fun file => { file with mode := Disk.headerMode }
  have hkeeps : KeepsDirectories fs _ := ⟨h₂.workingDirectory, fun q hq => by rwa [h₂.isDirectory]⟩
  have hrename := outcome_change (·.rename temporary path) (rename_of_slot hw.noNul hw.noSlash
    (slot_mono hkeeps hw.slot) ((h₂.isDirectory place).trans hw.free) h₂.here)
  have hprepared : outcome (do
      (disk noFaults).writeText temporary text
      (disk noFaults).synchronize temporary
      (disk noFaults).setMode temporary Disk.headerMode) fs' = (.ok (), _) :=
    (outcome_bind_ok hwrite _).trans (hmode _)
  rw [Disk.fill, outcome_bind_ok (outcome_adapt_ok hprepared _)]
  exact ⟨_, outcome_adapt_ok hrename _⟩

/-- With no faults a file is written at every path where one can be put. -/
theorem outcome_writeOutput (h : fs.IsWritable path place) (text : String) :
    ∃ fs', outcome ((disk noFaults).writeOutput path text) fs = (.ok (), fs') := by
  have hdirectories : Path.ancestors path ≠ [] →
      outcome ((disk noFaults).createDirectories (Path.ancestors path)) fs = (.ok (), fs) := by
    intro hne
    obtain ⟨parent, above, hcons⟩ := List.exists_cons_of_ne_nil hne
    have hparent : Disk.directoryOf path = if parent.isEmpty then "." else parent := by
      simp [Disk.directoryOf, Path.parent?, hcons]
    rw [hcons]
    by_cases hempty : parent.isEmpty = true
    · exact outcome_createDirectories parent above (.inl hempty)
    · have hthere := h.directory
      rw [hparent, if_neg hempty] at hthere
      exact outcome_createDirectories parent above (.inr hthere)
  obtain ⟨temporary, fs₁, hc, hholds⟩ := outcome_createTemporary h.directory
  obtain ⟨fs₂, hfill⟩ := outcome_fill h hholds text
  refine ⟨fs₂, ?_⟩
  rw [Disk.writeOutput]
  by_cases hne : Path.ancestors path ≠ []
  · rw [if_pos hne, outcome_bind_ok (outcome_adapt_ok (hdirectories hne) _),
      outcome_bind_ok (outcome_adapt_ok hc _), outcome_tryCatch_ok hfill]
  · rw [if_neg hne, outcome_bind_ok (outcome_adapt_ok hc _), outcome_tryCatch_ok hfill]

end Outcome

end VpdHeaders.FileSystem
