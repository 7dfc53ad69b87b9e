import VpdHeaders.FileSystem.Listing
import VpdHeaders.Proofs.FileSystem.Parents

/-! # A file is written whole, or all is as it was

Whichever operation fails, no more than new directories on the way to the file are left. One of them can
stand where the file belongs, but only for a path that comes back to itself. -/
namespace VpdHeaders

namespace Disk

variable {m : Type → Type} [Monad m] {Temporary : Type}

/-- A disk with another way to create temporary files outside of one directory. -/
def elsewhere (disk : Disk m Temporary) (directory : String)
    (create : String → ExceptT FileFault m Temporary) : Disk m Temporary :=
  { disk with
    createTemporary := fun path =>
      if path = directory then disk.createTemporary path else create path }

variable (disk : Disk m Temporary) (create : String → ExceptT FileFault m Temporary)

theorem createDirectories_elsewhere (directory : String) (paths : List String) :
    (disk.elsewhere directory create).createDirectories paths = disk.createDirectories paths := by
  induction paths with
  | nil => rfl
  | cons path above ih =>
    rw [createDirectories, createDirectories, ih]
    rfl

/-- The temporary file is created in the directory of the file, and nowhere else. -/
theorem writeOutput_elsewhere (path text : String) :
    (disk.elsewhere (directoryOf path) create).writeOutput path text = disk.writeOutput path text := by
  have hcreate : (disk.elsewhere (directoryOf path) create).createTemporary (directoryOf path) =
      disk.createTemporary (directoryOf path) := if_pos rfl
  rw [writeOutput, writeOutput, createDirectories_elsewhere, hcreate]
  rfl

end Disk

namespace FileSystem

variable {fs fs' : FileSystem} {paths : List String} {place : Place} {file : File} {path : String}

/-- A directory where nothing was before, and that one of these paths leads to. -/
structure IsNew (paths : List String) (fs fs' : FileSystem) (place : Place) : Prop where
  free : fs.find? place = none
  directory : fs'.find? place = some .directory
  onTheWay : ∃ path ∈ paths, fs'.locate path = .ok place

theorem Grown.find?_cases {written : Option Place} (h : Grown paths written fs fs')
    (hp : written ≠ some place) : fs'.find? place = fs.find? place ∨ IsNew paths fs fs' place := by
  have hfiles := h.files place hp
  cases hold : fs.find? place with
  | some entry =>
    cases entry with
    | directory => exact .inl (isDirectory_iff.mp (h.directories place (isDirectory_iff.mpr hold)))
    | file file =>
      rw [fileAt?_eq_some_iff.mpr hold] at hfiles
      exact .inl (fileAt?_eq_some_iff.mp hfiles)
  | none =>
    cases hnew : fs'.find? place with
    | none => exact .inl rfl
    | some entry =>
      cases entry with
      | directory =>
        rcases h.onTheWay place (isDirectory_iff.mpr hnew) with hd | hway
        · rw [isDirectory_iff, hold] at hd
          cases hd
        · exact .inr ⟨hold, hnew, hway⟩
      | file file =>
        rw [fileAt?_eq_some_iff.mpr hnew, eq_comm, fileAt?_eq_some_iff, hold] at hfiles
        cases hfiles

/-- What a failure leaves: all that was there, and new directories on the way to the path. The place of
the path is as it was, unless the way leads through it. -/
structure IsSpared (path : String) (fs fs' : FileSystem) : Prop where
  workingDirectory : fs'.workingDirectory = fs.workingDirectory
  places : ∀ place, fs'.find? place = fs.find? place ∨ IsNew (Path.ancestors path) fs fs' place
  target : fs'.find? (fs.named path) = fs.find? (fs.named path) ∨
    fs.Loops path ∧ ".." ∈ Path.fields path

/-- What a success leaves: this file where the path leads, the directories that it lies in, and all that
was there elsewhere. -/
structure IsPut (path : String) (file : File) (fs fs' : FileSystem) : Prop where
  workingDirectory : fs'.workingDirectory = fs.workingDirectory
  leads : fs'.locate path = .ok (fs.named path)
  file : fs'.find? (fs.named path) = some (.file file)
  directory : fs'.locate (Disk.directoryOf path) = .ok (fs.named path).dropLast
  parents : ∀ p ∈ Path.ancestors path, p ≠ "" → fs'.leadsToDirectory p = true
  others : ∀ place, place ≠ fs.named path →
    fs'.find? place = fs.find? place ∨ IsNew (Path.ancestors path) fs fs' place

theorem locate_empty (fs : FileSystem) : fs.locate "" = .error .notFound := rfl

/-- A directory that comes up in the place of the path is one that the way leads through. -/
theorem IsNew.loops (h : IsNew (Path.ancestors path) fs fs' (fs.named path))
    (hw : fs'.workingDirectory = fs.workingDirectory) : fs.Loops path := by
  obtain ⟨p, hp, hl⟩ := h.onTheWay
  have hne : p ≠ "" := by
    rintro rfl
    rw [locate_empty] at hl
    cases hl
  exact ⟨p, hp, hne, (named_congr hw p).symm.trans (eq_named_of_locate hl).symm⟩

theorem IsSpared.of_grown (h : Grown (Path.ancestors path) none fs fs') : IsSpared path fs fs' where
  workingDirectory := h.workingDirectory
  places _ := h.find?_cases nofun
  target := (h.find?_cases nofun).imp_right fun hnew =>
    have hloops := hnew.loops h.workingDirectory
    ⟨hloops, up_of_loops hloops⟩

theorem IsPut.of_deliveredAt (h : DeliveredAt place (Path.ancestors path) path file fs fs') :
    IsPut path file fs fs' := by
  obtain rfl : place = fs.named path := by
    rw [eq_named_of_locate h.leads, named_congr h.grown.workingDirectory]
  exact
    { workingDirectory := h.grown.workingDirectory
      leads := h.leads
      file := fileAt?_eq_some_iff.mp h.file
      directory := (locate_directoryOf h.writable.slot).1
      parents := fun p hp hne => leadsToDirectory_of_mem_ancestors h.leads hp hne
      others := fun q hq => h.grown.find?_cases fun he => hq (Option.some.inj he).symm }

section Changes

variable {name : String}

def HasDistinctPlaces (fs : FileSystem) : Prop := (fs.entries.map Prod.fst).Nodup

instance (fs : FileSystem) : Decidable fs.HasDistinctPlaces :=
  inferInstanceAs (Decidable (fs.entries.map Prod.fst).Nodup)

theorem find?_of_mem_entries (hd : fs.HasDistinctPlaces) {entry : Entry}
    (h : (place, entry) ∈ fs.entries) (hp : place ≠ []) : fs.find? place = some entry := by
  obtain ⟨before, after, hsplit⟩ := List.append_of_mem h
  rw [find?, if_neg hp, List.lookup_eq_some_iff]
  refine ⟨before, after, hsplit, fun e he => ?_⟩
  rw [HasDistinctPlaces, hsplit, List.map_append, List.nodup_append] at hd
  simpa using (hd.2.2 e.1 (List.mem_map_of_mem he) place (by simp)).symm

theorem ne_root_of_relative? (h : fs.relative? place = some name) : place ≠ [] := by
  rintro rfl
  rw [relative?] at h
  split at h
  · next hbelow => simp_all
  · cases h

theorem mem_changesSince_iff : (name, file) ∈ fs'.changesSince fs ↔
    ∃ place, (place, .file file) ∈ fs'.entries ∧ fs'.relative? place = some name ∧
      fs.find? place ≠ some (.file file) := by
  rw [changesSince, List.mem_mergeSort, List.mem_filterMap]
  constructor
  · rintro ⟨⟨place, entry⟩, he, hc⟩
    split at hc
    · next shown file' hshown hentry =>
      split at hc
      · cases hc
      · next hnew =>
        obtain ⟨rfl, rfl⟩ := Prod.mk.inj (Option.some.inj hc)
        exact ⟨place, hentry ▸ he, hshown, hentry ▸ hnew⟩
    · cases hc
  · rintro ⟨place, he, hname, hnew⟩
    exact ⟨_, he, by simp [hname, hnew]⟩

/-- A changed file is in its place, and was not there before. -/
theorem exists_place_of_mem_changesSince (hd : fs'.HasDistinctPlaces)
    (h : (name, file) ∈ fs'.changesSince fs) : ∃ place, fs'.relative? place = some name ∧
      fs'.find? place = some (.file file) ∧ fs'.find? place ≠ fs.find? place := by
  obtain ⟨place, he, hname, hnew⟩ := mem_changesSince_iff.mp h
  have hfile := find?_of_mem_entries hd he (ne_root_of_relative? hname)
  exact ⟨place, hname, hfile, fun hsame => hnew (hsame.symm.trans hfile)⟩

/-- A failure changes no file: all that is new is directories. -/
theorem IsSpared.changesSince_eq_nil (h : IsSpared path fs fs') (hd : fs'.HasDistinctPlaces) :
    fs'.changesSince fs = [] := by
  refine List.eq_nil_iff_forall_not_mem.mpr fun ⟨name, file⟩ hc => ?_
  obtain ⟨place, -, hfile, hnew⟩ := exists_place_of_mem_changesSince hd hc
  rcases h.places place with hsame | hdirectory
  · exact hnew hsame
  · cases hfile.symm.trans hdirectory.directory

end Changes

/-- Whatever operations fail, writing ends in an error that says so and spares all that was there; or it
puts the complete file where it belongs, and no operation has failed but the creation of directories that
are there already. The temporary file is created in the directory of the path, which is the working
directory for a bare name, and nowhere else. With no faults, a file is written wherever one can be put. -/
theorem written_whole_or_not_at_all (faults : Faults) (fs : FileSystem) (path text : String) :
    ((∃ target fault fs',
        outcome ((disk faults).writeOutput path text) fs = (.error (.write target fault), fs') ∧
          IsSpared path fs fs') ∨
      IsUnhindered faults ∧ ∃ fs',
        outcome ((disk faults).writeOutput path text) fs = (.ok (), fs') ∧
          IsPut path (headerFile text) fs fs') ∧
    (∀ create, ((disk faults).elsewhere (Disk.directoryOf path) create).writeOutput path text =
      (disk faults).writeOutput path text) ∧
    ('/' ∈ path.toList ∨ Disk.directoryOf path = ".") ∧
    ∀ place, fs.IsWritable path place →
      ∃ fs', outcome ((disk noFaults).writeOutput path text) fs = (.ok (), fs') := by
  refine ⟨?_, fun create => Disk.writeOutput_elsewhere _ create path text, ?_,
    fun place hw => outcome_writeOutput hw text⟩
  · rcases writeOutput_cases faults fs path text with
      ⟨target, fault, fs', ho, hg⟩ | ⟨hfaults, place, fs', ho, hdelivered⟩
    · exact .inl ⟨target, fault, fs', ho, .of_grown hg⟩
    · exact .inr ⟨hfaults, fs', ho, .of_deliveredAt hdelivered⟩
  · by_cases hslash : '/' ∈ path.toList
    · exact .inl hslash
    · exact .inr (Path.directoryOf_of_no_slash hslash)

/-- A working directory with a directory in it where a header belongs, which holds a file. -/
def occupied : FileSystem where
  entries := [(["w"], .directory), (["w", "fru.hpp"], .directory),
    (["w", "fru.hpp", "old"], .file ⟨[], 0o644⟩)]
  workingDirectory := ["w"]

/-- No header is written over a directory, and then nothing changes. When the directory is gone, with all
that is in it, the header is written, and it is all there is. -/
theorem written_when_directory_is_gone :
    let write := (disk noFaults).writeOutput "fru.hpp" "x"
    let cleared := occupied.eraseTree ["w", "fru.hpp"]
    (∃ fault fs', outcome write occupied = (.error fault, fs') ∧ fs'.changesSince occupied = []) ∧
      cleared.listing = [] ∧ cleared.IsWritable "fru.hpp" ["w", "fru.hpp"] ∧
      ∃ fs', outcome write cleared = (.ok (), fs') ∧ fs'.listing = ["fru.hpp"] ∧
        fs'.changesSince cleared = [("fru.hpp", headerFile "x")] := by
  intro write cleared
  have hwritable : cleared.IsWritable "fru.hpp" ["w", "fru.hpp"] := ⟨rfl, rfl, rfl, rfl, rfl⟩
  refine ⟨?_, by decide +kernel, hwritable, ?_⟩
  · rcases (written_whole_or_not_at_all noFaults occupied "fru.hpp" "x").1 with
      ⟨target, fault, fs', ho, hspared⟩ | ⟨-, fs', ho, -⟩
    · obtain rfl : (outcome write occupied).2 = fs' := congrArg Prod.snd ho
      exact ⟨_, _, ho, hspared.changesSince_eq_nil (by decide +kernel)⟩
    · cases ho
  · obtain ⟨-, -, -, hwrites⟩ := written_whole_or_not_at_all noFaults cleared "fru.hpp" "x"
    obtain ⟨fs', ho⟩ := hwrites _ hwritable
    obtain rfl : (outcome write cleared).2 = fs' := congrArg Prod.snd ho
    exact ⟨_, ho, by decide +kernel, by decide +kernel⟩

/-- The directory of `b/../b` is found by way of `b`, which is created for it. Then the file cannot go
there, and the directory stays. -/
theorem directory_comes_instead_of_file :
    ∃ fs', outcome ((disk noFaults).writeOutput "b/../b" "x") (ofName "w") =
        (.error (.write "b/../b" (.system .isDirectory)), fs') ∧
      (ofName "w").find? ((ofName "w").named "b/../b") = none ∧
      fs'.find? ((ofName "w").named "b/../b") = some .directory :=
  ⟨_, Prod.ext rfl rfl, rfl, rfl⟩

end FileSystem

end VpdHeaders
