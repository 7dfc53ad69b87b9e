import VpdHeaders.Disk.Output
import VpdHeaders.FileSystem.Disk
import VpdHeaders.Proofs.FileSystem.Grown

/-! # What writing a file leaves behind, whatever fails on the way -/
namespace VpdHeaders.FileSystem

variable {α β ε ε' : Type} {fs fs' : FileSystem}

/-- What an action returns on a file system, and the file system that it leaves. -/
def outcome (action : ExceptT ε (StateM FileSystem) α) (fs : FileSystem) :
    Except ε α × FileSystem := (action.run.run fs).run

theorem outcome_get (fs : FileSystem) : outcome (get : Action FileSystem) fs = (.ok fs, fs) := rfl

section Combinators

variable {action : ExceptT ε (StateM FileSystem) α}

theorem outcome_bind_ok {a : α} (h : outcome action fs = (.ok a, fs'))
    (next : α → ExceptT ε (StateM FileSystem) β) :
    outcome (action >>= next) fs = outcome (next a) fs' := by
  rw [outcome] at h
  rw [outcome, ExceptT.run_bind, StateT.run_bind, Id.run_bind, h]
  rfl

theorem outcome_bind_error {e : ε} (h : outcome action fs = (.error e, fs'))
    (next : α → ExceptT ε (StateM FileSystem) β) :
    outcome (action >>= next) fs = (.error e, fs') := by
  rw [outcome] at h
  rw [outcome, ExceptT.run_bind, StateT.run_bind, Id.run_bind, h]
  rfl

theorem outcome_tryCatch_ok {a : α} (h : outcome action fs = (.ok a, fs'))
    (handle : ε → ExceptT ε (StateM FileSystem) α) :
    outcome (tryCatch action handle) fs = (.ok a, fs') := by
  rw [outcome] at h
  rw [outcome, ExceptT.run_tryCatch, StateT.run_bind, Id.run_bind, h]
  rfl

theorem outcome_tryCatch_error {e : ε} (h : outcome action fs = (.error e, fs'))
    (handle : ε → ExceptT ε (StateM FileSystem) α) :
    outcome (tryCatch action handle) fs = outcome (handle e) fs' := by
  rw [outcome] at h
  rw [outcome, ExceptT.run_tryCatch, StateT.run_bind, Id.run_bind, h]
  rfl

private theorem outcome_adapt (f : ε → ε') (action : ExceptT ε (StateM FileSystem) α) :
    outcome (ExceptT.adapt f action) fs =
      ((outcome action fs).1.mapError f, (outcome action fs).2) := rfl

theorem outcome_adapt_ok {a : α} (h : outcome action fs = (.ok a, fs')) (f : ε → ε') :
    outcome (ExceptT.adapt f action) fs = (.ok a, fs') := by
  rw [outcome_adapt, h]
  rfl

theorem outcome_adapt_error {e : ε} (h : outcome action fs = (.error e, fs')) (f : ε → ε') :
    outcome (ExceptT.adapt f action) fs = (.error (f e), fs') := by
  rw [outcome_adapt, h]
  rfl

end Combinators

/-- Each operation but the reading ones either fails and leaves all as it is, or makes its change. -/
theorem outcome_guarded_change (fault? : Option FileFault)
    (f : FileSystem → Except FileFault FileSystem) (fs : FileSystem) :
    (∃ fault, outcome (guarded fault? (change f)) fs = (.error fault, fs)) ∨
      fault? = none ∧ ∃ fs', f fs = .ok fs' ∧ outcome (guarded fault? (change f)) fs = (.ok (), fs') := by
  cases fault? with
  | some fault => exact .inl ⟨fault, rfl⟩
  | none =>
    rw [guarded, change, outcome_bind_ok (outcome_get fs)]
    cases f fs with
    | error fault => exact .inl ⟨fault, rfl⟩
    | ok fs' => exact .inr ⟨rfl, fs', rfl, rfl⟩

/-- Whatever comes of an action, nothing but directories that these paths lead to is new. -/
def Grows (paths : List String) (action : ExceptT ε (StateM FileSystem) α) : Prop :=
  ∀ fs, Grown paths none fs (outcome action fs).2

namespace Grows

variable {paths : List String} {action : ExceptT ε (StateM FileSystem) α}

theorem pure (paths : List String) (a : α) :
    Grows paths (Pure.pure a : ExceptT ε (StateM FileSystem) α) := fun fs => Grown.refl paths fs

theorem throw (paths : List String) (e : ε) :
    Grows paths (MonadExcept.throw e : ExceptT ε (StateM FileSystem) α) :=
  fun fs => Grown.refl paths fs

theorem mono {paths' : List String} (h : Grows paths action) (hs : paths ⊆ paths') :
    Grows paths' action := fun fs => (h fs).mono hs

theorem bind {next : α → ExceptT ε (StateM FileSystem) β} (h : Grows paths action)
    (hn : ∀ a, Grows paths (next a)) : Grows paths (action >>= next) := by
  intro fs
  have hfirst := h fs
  cases ho : outcome action fs with
  | mk r fs' =>
    rw [ho] at hfirst
    cases r with
    | ok a =>
      rw [outcome_bind_ok ho]
      exact hfirst.trans (hn a fs')
    | error e =>
      rw [outcome_bind_error ho]
      exact hfirst

theorem tryCatch {handle : ε → ExceptT ε (StateM FileSystem) α} (h : Grows paths action)
    (hn : ∀ e, Grows paths (handle e)) : Grows paths (MonadExcept.tryCatch action handle) := by
  intro fs
  have hfirst := h fs
  cases ho : outcome action fs with
  | mk r fs' =>
    rw [ho] at hfirst
    cases r with
    | ok a =>
      rw [outcome_tryCatch_ok ho]
      exact hfirst
    | error e =>
      rw [outcome_tryCatch_error ho]
      exact hfirst.trans (hn e fs')

theorem makeDirectory (faults : Faults) (path : String) :
    Grows [path] ((disk faults).makeDirectory path) := by
  intro fs
  rcases outcome_guarded_change (faults (.makeDirectory path)) (·.makeDirectory path) fs with
    ⟨fault, ho⟩ | ⟨-, fs', hf, ho⟩
  · change Grown [path] none fs (outcome (guarded _ (change _)) fs).2
    rw [ho]
    exact Grown.refl _ fs
  · change Grown [path] none fs (outcome (guarded _ (change _)) fs).2
    rw [ho]
    exact Grown.of_makeDirectory hf

theorem unlessDirectory (paths : List String) (faults : Faults) (path : String) (fault : FileFault) :
    Grows paths ((disk faults).unlessDirectory path fault) := by
  intro fs
  have hlook : outcome (liftM ((disk faults).isDirectory path) :
      ExceptT FileFault (StateM FileSystem) Bool) fs = (.ok (fs.leadsToDirectory path), fs) := rfl
  rw [Disk.unlessDirectory, outcome_bind_ok hlook]
  split
  · exact throw paths fault fs
  · exact pure paths () fs

theorem createDirectories (faults : Faults) (paths : List String) :
    Grows paths ((disk faults).createDirectories paths) := by
  induction paths with
  | nil => exact throw [] _
  | cons path above ih =>
    have hmake : Grows (path :: above) ((disk faults).makeDirectory path) :=
      (makeDirectory faults path).mono (by simp)
    have habove : Grows (path :: above) ((disk faults).createDirectories above) :=
      ih.mono (List.subset_cons_self path above)
    rw [Disk.createDirectories]
    split
    · exact pure _ ()
    · refine hmake.tryCatch fun fault => ?_
      split
      · exact habove.bind fun _ => hmake.tryCatch fun fault => unlessDirectory _ faults path fault
      · exact unlessDirectory _ faults path fault

end Grows

variable {faults : Faults} {temporary : Place} {file : File} {path text : String}

/-- The path leads to this file, and no other file has changed. -/
def Delivered (paths : List String) (path : String) (file : File) (fs fs' : FileSystem) : Prop :=
  ∃ place, fs'.locate path = .ok place ∧ fs'.fileAt? place = some file ∧
    Grown paths (some place) fs fs'

/-- A path at which a file can be put: its directory is there, and no directory is in its place. -/
structure IsWritable (fs : FileSystem) (path : String) (place : Place) : Prop where
  noNul : path.toList.contains '\x00' = false
  noSlash : Path.endsInSlash path = false
  directory : fs.leadsToDirectory (Disk.directoryOf path) = true
  slot : fs.slot path = .ok (some place)
  free : fs.isDirectory place = false

/-- The path leads to this file at this place, and no other file has changed. -/
structure DeliveredAt (place : Place) (paths : List String) (path : String) (file : File)
    (fs fs' : FileSystem) : Prop where
  writable : fs'.IsWritable path place
  leads : fs'.locate path = .ok place
  file : fs'.fileAt? place = some file
  grown : Grown paths (some place) fs fs'

/-- After a success the path leads to this file, after a failure no file has changed. -/
def IsWhole (paths : List String) (path : String) (file : File) (fs : FileSystem) :
    Except ε Unit × FileSystem → Prop
  | (.ok (), fs') => Delivered paths path file fs fs'
  | (.error _, fs') => Grown paths none fs fs'

theorem DeliveredAt.delivered {place : Place} {paths : List String}
    (h : DeliveredAt place paths path file fs fs') : Delivered paths path file fs fs' :=
  ⟨place, h.leads, h.file, h.grown⟩

theorem DeliveredAt.after {place : Place} {paths : List String} {fs₁ : FileSystem}
    (h : DeliveredAt place [] path file fs₁ fs') (hg : Grown paths none fs fs₁) :
    DeliveredAt place paths path file fs fs' :=
  { h with grown := hg.trans (h.grown.mono (List.nil_subset paths)) }

/-- A file system that is another one with a file at a place of its own. -/
structure Holds (temporary : Place) (file : File) (fs fs' : FileSystem) : Prop where
  workingDirectory : fs'.workingDirectory = fs.workingDirectory
  free : fs.find? temporary = none
  find? : fs'.find? = Function.update fs.find? temporary (some (.file file))

namespace Holds

theorem here (h : Holds temporary file fs fs') : fs'.find? temporary = some (.file file) := by
  rw [h.find?, Function.update_self]

theorem modify (h : Holds temporary file fs fs') (f : File → File) :
    Holds temporary (f file) fs (fs'.modify temporary f) where
  workingDirectory := (modify_workingDirectory f).trans h.workingDirectory
  free := h.free
  find? := by rw [find?_modify h.here, h.find?, Function.update_idem]

theorem isDirectory (h : Holds temporary file fs fs') (q : Place) :
    fs'.isDirectory q = fs.isDirectory q := by
  by_cases hq : q = temporary
  · subst hq
    rw [FileSystem.isDirectory, FileSystem.isDirectory, h.here, h.free]
    rfl
  · refine isDirectory_congr ?_
    rw [h.find?, Function.update_of_ne hq]

/-- Without its file it is the other one. -/
theorem erase (h : Holds temporary file fs fs') : (fs'.erase temporary).find? = fs.find? := by
  rw [find?_erase (ne_root_of_file h.here), h.find?, Function.update_idem, ← h.free,
    Function.update_eq_self]

/-- The file goes where the path leads, and nothing else has happened. -/
theorem rename {fs₁ : FileSystem} (h : Holds temporary file fs fs')
    (hdirectory : fs.leadsToDirectory (Disk.directoryOf path) = true)
    (hr : fs'.rename temporary path = .ok fs₁) :
    ∃ place, DeliveredAt place [] path file fs fs₁ := by
  obtain ⟨hnul, place, entry, hslot, hslash, hd, hentry, rfl⟩ := rename_eq_ok hr
  obtain rfl : .file file = entry := Option.some.inj (h.here.symm.trans hentry)
  have hfind : ((fs'.erase temporary).put place (.file file)).find? =
      Function.update fs.find? place (some (.file file)) := by
    rw [find?_put (ne_root_of_slot hslot), h.erase]
  have hplace : ((fs'.erase temporary).put place (.file file)).find? place = some (.file file) := by
    rw [hfind, Function.update_self]
  have hgrown : Grown [] (some place) fs ((fs'.erase temporary).put place (.file file)) :=
    .of_update h.workingDirectory hfind (by rwa [← h.isDirectory])
  -- The path was looked up while the temporary file was still there.
  have hkeeps : KeepsDirectories fs' ((fs'.erase temporary).put place (.file file)) :=
    ⟨rfl, fun q hq => hgrown.directories q (by rwa [← h.isDirectory])⟩
  exact ⟨place,
    { writable :=
        { noNul := hnul
          noSlash := hslash
          directory := leadsToDirectory_mono hgrown.toKeepsDirectories hdirectory
          slot := slot_mono hkeeps hslot
          free := by
            rw [FileSystem.isDirectory, hplace]
            rfl }
      leads := locate_of_slot hkeeps hslot (by rw [hplace]; rfl) (.inr hslash)
      file := fileAt?_eq_some_iff.mpr hplace
      grown := hgrown }⟩

end Holds

def headerFile (text : String) : File := ⟨text.toUTF8.toList, 0o644⟩

/-- No operation fails but the creation of directories, which can be there already. -/
def IsUnhindered (faults : Faults) : Prop :=
  ∀ operation, (∀ path, operation ≠ .makeDirectory path) → faults operation = none

section Fill

variable (faults : Faults) (fs : FileSystem)

private theorem writeText_cases (temporary : Place) (text : String) :
    (∃ fault, outcome ((disk faults).writeText temporary text) fs = (.error fault, fs)) ∨
      faults .writeText = none ∧ outcome ((disk faults).writeText temporary text) fs =
        (.ok (), fs.modify temporary fun file => { file with contents := text.toUTF8.toList }) := by
  rcases outcome_guarded_change (faults .writeText) (fun fs => .ok (fs.modify temporary
    fun file => { file with contents := text.toUTF8.toList })) fs with h | ⟨hnone, fs', hf, ho⟩
  · exact .inl h
  · obtain rfl := Except.ok.inj hf
    exact .inr ⟨hnone, ho⟩

private theorem synchronize_cases (temporary : Place) :
    (∃ fault, outcome ((disk faults).synchronize temporary) fs = (.error fault, fs)) ∨
      faults .synchronize = none ∧
        outcome ((disk faults).synchronize temporary) fs = (.ok (), fs) := by
  change (∃ fault, outcome (guarded (faults .synchronize) (pure ())) fs = (.error fault, fs)) ∨
    faults .synchronize = none ∧ outcome (guarded (faults .synchronize) (pure ())) fs = (.ok (), fs)
  cases faults .synchronize with
  | some fault => exact .inl ⟨fault, rfl⟩
  | none => exact .inr ⟨rfl, rfl⟩

private theorem setMode_cases (temporary : Place) (mode : Nat) :
    (∃ fault, outcome ((disk faults).setMode temporary mode) fs = (.error fault, fs)) ∨
      faults .setMode = none ∧ outcome ((disk faults).setMode temporary mode) fs =
        (.ok (), fs.modify temporary fun file => { file with mode := mode }) := by
  rcases outcome_guarded_change (faults .setMode) (fun fs => .ok (fs.modify temporary
    fun file => { file with mode := mode })) fs with h | ⟨hnone, fs', hf, ho⟩
  · exact .inl h
  · obtain rfl := Except.ok.inj hf
    exact .inr ⟨hnone, ho⟩

private theorem rename_cases (temporary : Place) (path : String) :
    (∃ fault, outcome ((disk faults).rename temporary path) fs = (.error fault, fs)) ∨
      faults .rename = none ∧ ∃ fs', fs.rename temporary path = .ok fs' ∧
        outcome ((disk faults).rename temporary path) fs = (.ok (), fs') :=
  outcome_guarded_change (faults .rename) (·.rename temporary path) fs

end Fill

private def prepare (faults : Faults) (temporary : Place) (text : String) : Action Unit := do
  (disk faults).writeText temporary text
  (disk faults).synchronize temporary
  (disk faults).setMode temporary Disk.headerMode

private theorem prepare_cases (faults : Faults) (h : Holds temporary file fs fs') (text : String) :
    (∃ fault file' fs₁, outcome (prepare faults temporary text) fs' = (.error fault, fs₁) ∧
      Holds temporary file' fs fs₁) ∨
    (faults .writeText = none ∧ faults .synchronize = none ∧ faults .setMode = none) ∧
      ∃ fs₁, outcome (prepare faults temporary text) fs' = (.ok (), fs₁) ∧
        Holds temporary (headerFile text) fs fs₁ := by
  rcases writeText_cases faults fs' temporary text with ⟨fault, ho⟩ | ⟨hwrite, ho⟩
  · exact .inl ⟨fault, file, fs', outcome_bind_error ho _, h⟩
  have h₁ := h.modify fun file => { file with contents := text.toUTF8.toList }
  rw [prepare, outcome_bind_ok ho]
  rcases synchronize_cases faults _ temporary with ⟨fault, ho⟩ | ⟨hsync, ho⟩
  · exact .inl ⟨fault, _, _, outcome_bind_error ho _, h₁⟩
  rw [outcome_bind_ok ho]
  rcases setMode_cases faults _ temporary Disk.headerMode with ⟨fault, ho⟩ | ⟨hmode, ho⟩
  · exact .inl ⟨fault, _, _, ho, h₁⟩
  · exact .inr ⟨⟨hwrite, hsync, hmode⟩, _, ho,
      h₁.modify fun file => { file with mode := Disk.headerMode }⟩

/-- Filling ends with the complete file where the path leads, or with nothing but the temporary one. -/
theorem fill_cases (faults : Faults) (h : Holds temporary file fs fs') (path text : String) :
    (∃ target fault file' fs₁,
      outcome ((disk faults).fill temporary path text) fs' = (.error (.write target fault), fs₁) ∧
        Holds temporary file' fs fs₁) ∨
    (faults .writeText = none ∧ faults .synchronize = none ∧ faults .setMode = none ∧
        faults .rename = none) ∧
      ∃ fs₁ fs₂, outcome ((disk faults).fill temporary path text) fs' = (.ok (), fs₂) ∧
        Holds temporary (headerFile text) fs fs₁ ∧ fs₁.rename temporary path = .ok fs₂ := by
  have hfill : (disk faults).fill temporary path text = (do
      ExceptT.adapt (.write ((disk faults).temporaryPath temporary)) (prepare faults temporary text)
      ExceptT.adapt (.write path) ((disk faults).rename temporary path)) := rfl
  rw [hfill]
  rcases prepare_cases faults h text with
    ⟨fault, file', fs₁, ho, h₁⟩ | ⟨⟨hwrite, hsync, hmode⟩, fs₁, ho, h₁⟩
  · exact .inl ⟨_, fault, file', fs₁, outcome_bind_error (outcome_adapt_error ho _) _, h₁⟩
  rw [outcome_bind_ok (outcome_adapt_ok ho _)]
  rcases rename_cases faults fs₁ temporary path with ⟨fault, ho⟩ | ⟨hrename, fs₂, hr, ho⟩
  · exact .inl ⟨_, fault, _, fs₁, outcome_adapt_error ho _, h₁⟩
  · exact .inr ⟨⟨hwrite, hsync, hmode, hrename⟩, fs₁, fs₂, outcome_adapt_ok ho _, h₁, hr⟩

private theorem createTemporary_eq_ok {directory : String}
    (h : fs.createTemporary directory = .ok (temporary, fs')) :
    fs.leadsToDirectory directory = true ∧ Holds temporary ⟨[], 0o600⟩ fs fs' := by
  rw [createTemporary] at h
  obtain ⟨place, hl, h⟩ := bind_eq_ok_iff.mp h
  obtain ⟨hd, h⟩ := check_eq_ok_iff.mp h
  obtain ⟨rfl, rfl⟩ := Prod.mk.inj (Except.ok.inj h)
  exact ⟨leadsToDirectory_iff.mpr ⟨place, mapError_eq_ok_iff.mp hl, by simpa using hd⟩,
    rfl, find?_freshName place, find?_put (by simp) _⟩

theorem createTemporary_cases (faults : Faults) (fs : FileSystem) (directory : String) :
    (∃ fault, outcome ((disk faults).createTemporary directory) fs = (.error fault, fs) ∧
      (faults .createTemporary = some fault ∨ fs.createTemporary directory = .error fault)) ∨
    faults .createTemporary = none ∧ fs.leadsToDirectory directory = true ∧
      ∃ temporary fs', outcome ((disk faults).createTemporary directory) fs = (.ok temporary, fs') ∧
        Holds temporary ⟨[], 0o600⟩ fs fs' := by
  rw [disk]
  simp only
  cases faults .createTemporary with
  | some fault => exact .inl ⟨fault, rfl, .inl rfl⟩
  | none =>
    rw [guarded, outcome_bind_ok (outcome_get fs)]
    cases hc : fs.createTemporary directory with
    | error fault => exact .inl ⟨fault, rfl, .inr rfl⟩
    | ok created =>
      obtain ⟨hd, hholds⟩ := createTemporary_eq_ok hc
      exact .inr ⟨rfl, hd, created.1, created.2, rfl, hholds⟩

private theorem outcome_remove (faults : Faults) (fs : FileSystem) (temporary : Place) :
    outcome (liftM ((disk faults).remove temporary) : ExceptT Error (StateM FileSystem) Unit) fs =
      (.ok (), fs.erase temporary) := rfl

private def deliver (faults : Faults) (path text : String) :
    ExceptT Error (StateM FileSystem) Unit := do
  let temporary ← ExceptT.adapt (.write (Disk.directoryOf path))
    ((disk faults).createTemporary (Disk.directoryOf path))
  tryCatch ((disk faults).fill temporary path text) fun error => do
    (disk faults).remove temporary
    throw error

private theorem deliver_cases (faults : Faults) (fs : FileSystem) (path text : String) :
    (∃ target fault fs', outcome (deliver faults path text) fs = (.error (.write target fault), fs') ∧
      Grown [] none fs fs') ∨
    IsUnhindered faults ∧ ∃ place fs', outcome (deliver faults path text) fs = (.ok (), fs') ∧
      DeliveredAt place [] path (headerFile text) fs fs' := by
  rw [deliver]
  rcases createTemporary_cases faults fs (Disk.directoryOf path) with
    ⟨fault, ho, -⟩ | ⟨hcreate, hd, temporary, fs₁, ho, h⟩
  · exact .inl ⟨_, fault, fs, outcome_bind_error (outcome_adapt_error ho _) _, Grown.refl [] fs⟩
  rw [outcome_bind_ok (outcome_adapt_ok ho _)]
  rcases fill_cases faults h path text with
    ⟨target, fault, file', fs₂, ho, h₂⟩ | ⟨⟨hwrite, hsync, hmode, hrename⟩, fs₂, fs₃, ho, h₂, hr⟩
  · refine .inl ⟨target, fault, fs₂.erase temporary, ?_, .of_find?_eq h₂.workingDirectory h₂.erase⟩
    rw [outcome_tryCatch_error ho, outcome_bind_ok (outcome_remove faults fs₂ temporary)]
    rfl
  · obtain ⟨place, hdelivered⟩ := h₂.rename hd hr
    refine .inr ⟨fun operation hne => ?_, place, fs₃, outcome_tryCatch_ok ho _, hdelivered⟩
    cases operation with
    | makeDirectory path => exact absurd rfl (hne path)
    | createTemporary => exact hcreate
    | writeText => exact hwrite
    | synchronize => exact hsync
    | setMode => exact hmode
    | rename => exact hrename

/-- Writing fails and leaves nothing behind but directories, or it puts the complete file where the
path leads. -/
theorem writeOutput_cases (faults : Faults) (fs : FileSystem) (path text : String) :
    (∃ target fault fs',
      outcome ((disk faults).writeOutput path text) fs = (.error (.write target fault), fs') ∧
        Grown (Path.ancestors path) none fs fs') ∨
    IsUnhindered faults ∧ ∃ place fs',
      outcome ((disk faults).writeOutput path text) fs = (.ok (), fs') ∧
        DeliveredAt place (Path.ancestors path) path (headerFile text) fs fs' := by
  have hwrite : (disk faults).writeOutput path text =
      (if Path.ancestors path ≠ [] then
        ExceptT.adapt (.write (Disk.directoryOf path))
          ((disk faults).createDirectories (Path.ancestors path)) >>= fun _ =>
            deliver faults path text
      else deliver faults path text) := rfl
  rw [hwrite]
  split
  · have hg := Grows.createDirectories faults (Path.ancestors path) fs
    cases ho : outcome ((disk faults).createDirectories (Path.ancestors path)) fs with
    | mk r fs₁ =>
      rw [ho] at hg
      cases r with
      | error fault =>
        exact .inl ⟨_, fault, fs₁, outcome_bind_error (outcome_adapt_error ho _) _, hg⟩
      | ok =>
        rw [outcome_bind_ok (outcome_adapt_ok ho _)]
        rcases deliver_cases faults fs₁ path text with
          ⟨target, fault, fs', ho, hg'⟩ | ⟨hfaults, place, fs', ho, hdelivered⟩
        · exact .inl ⟨target, fault, fs', ho, hg.trans (hg'.mono (List.nil_subset _))⟩
        · exact .inr ⟨hfaults, place, fs', ho, hdelivered.after hg⟩
  · rcases deliver_cases faults fs path text with
      ⟨target, fault, fs', ho, hg⟩ | ⟨hfaults, place, fs', ho, hdelivered⟩
    · exact .inl ⟨target, fault, fs', ho, hg.mono (List.nil_subset _)⟩
    · exact .inr ⟨hfaults, place, fs', ho, hdelivered.after (Grown.refl _ fs)⟩

/-- A file is written whole or not at all, whatever operations fail. -/
theorem isWhole_writeOutput (faults : Faults) (fs : FileSystem) (path text : String) :
    IsWhole (Path.ancestors path) path (headerFile text) fs
      (outcome ((disk faults).writeOutput path text) fs) := by
  rcases writeOutput_cases faults fs path text with
    ⟨target, fault, fs', ho, hg⟩ | ⟨-, place, fs', ho, hdelivered⟩
  · rw [ho]
    exact hg
  · rw [ho]
    exact hdelivered.delivered

theorem requires_writeOutput (faults : Faults) (path text : String) (fs : FileSystem) (a : Unit)
    (fs' : FileSystem) (h : outcome ((disk faults).writeOutput path text) fs = (.ok a, fs')) :
    path.toList.contains '\x00' = false := by
  rcases writeOutput_cases faults fs path text with
    ⟨target, fault, fs₁, ho, -⟩ | ⟨-, place, fs₁, -, hdelivered⟩
  · rw [ho] at h
    cases h
  · exact hdelivered.writable.noNul

end VpdHeaders.FileSystem
