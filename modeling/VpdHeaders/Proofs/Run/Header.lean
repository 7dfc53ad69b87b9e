import VpdHeaders.Proofs.FileSystem.Output
import VpdHeaders.Run

/-! # The header that a run is about, and how the run ends -/
namespace VpdHeaders

namespace FileSystem

def configured? (fs : FileSystem) (flags : Invocation) : Option Config := do
  let base ← match flags.config with
    | some path => (fs.readText path).toOption.bind fun text => (Config.ofText text).toOption
    | none => some Config.standard
  (base.withFlags flags).toOption

def generated? (fs : FileSystem) (config : Config) (target : Target) : Option String := do
  let text ← (fs.readText (config.paths target).input).toOption
  let tree ← Yaml.read text
  (render config target tree).result.toOption

def header? (fs : FileSystem) (flags : Invocation) : Option (String × String) := do
  let config ← fs.configured? flags
  let text ← fs.generated? config flags.target
  return ((config.paths flags.target).output, text)

end FileSystem

open FileSystem

variable {α β ε : Type} {fs fs₁ fs₂ : FileSystem}

/-- A run comes to this result and leaves this file system, whatever has been reported before. -/
def Ends (run : Run (StateM FileSystem) α) (fs : FileSystem) (r : Except Failure α)
    (fs' : FileSystem) : Prop :=
  ∀ reports, ∃ reports', ((run.run.run reports).run fs).run = ((r, reports'), fs')

namespace Ends

theorem pure (a : α) : Ends (Pure.pure a) fs (.ok a) fs := fun reports => ⟨reports, rfl⟩

theorem throw (failure : Failure) :
    Ends (MonadExcept.throw failure : Run (StateM FileSystem) α) fs (.error failure) fs :=
  fun reports => ⟨reports, rfl⟩

theorem report (report : Report) : Ends (Run.report report) fs (.ok ()) fs :=
  fun reports => ⟨reports ++ [report], rfl⟩

theorem orFail (failure : ε → Failure) (r : Except ε α) :
    Ends (Run.orFail failure r) fs (r.mapError failure) fs := by
  cases r with
  | ok a => exact pure a
  | error e => exact throw (failure e)

section Bind

variable {run : Run (StateM FileSystem) α}

theorem bind_ok {a : α} (h : Ends run fs (.ok a) fs₁) {next : α → Run (StateM FileSystem) β}
    {r : Except Failure β} (hn : Ends (next a) fs₁ r fs₂) : Ends (run >>= next) fs r fs₂ := by
  intro reports
  obtain ⟨reports₁, h₁⟩ := h reports
  obtain ⟨reports₂, h₂⟩ := hn reports₁
  refine ⟨reports₂, ?_⟩
  rw [ExceptT.run_bind, StateT.run_bind, StateT.run_bind, Id.run_bind, h₁]
  exact h₂

theorem bind_error {failure : Failure} (h : Ends run fs (.error failure) fs₁)
    (next : α → Run (StateM FileSystem) β) : Ends (run >>= next) fs (.error failure) fs₁ := by
  intro reports
  obtain ⟨reports₁, h₁⟩ := h reports
  refine ⟨reports₁, ?_⟩
  rw [ExceptT.run_bind, StateT.run_bind, StateT.run_bind, Id.run_bind, h₁]
  rfl

end Bind

theorem ofDisk {action : ExceptT ε (StateM FileSystem) α} {r : Except ε α}
    (h : outcome action fs = (r, fs₁)) (failure : ε → Failure) :
    Ends (Run.ofDisk failure action) fs (r.mapError failure) fs₁ := by
  have hrun : Ends (liftM (action.run : StateM FileSystem (Except ε α))) fs (.ok r) fs₁ := by
    intro reports
    refine ⟨reports, ?_⟩
    change ((Except.ok (outcome action fs).1, reports), (outcome action fs).2) = _
    rw [h]
  exact hrun.bind_ok (orFail failure r)

theorem logs (events : List Event) :
    Ends (events.forM Run.log : Run (StateM FileSystem) PUnit) fs (.ok ()) fs := by
  induction events with
  | nil => exact pure ()
  | cons event events ih => exact (report (.event event)).bind_ok ih

theorem ofTraced (t : Traced α) :
    Ends (Run.ofTraced t) fs (t.result.mapError .error) fs :=
  (logs t.events).bind_ok (orFail .error t.result)

end Ends

/-- A run finds this value, or fails if there is none, and leaves all as it is. -/
def Finds (run : Run (StateM FileSystem) α) (fs : FileSystem) (value? : Option α) : Prop :=
  ∃ r, Ends run fs r fs ∧ r.toOption = value?

namespace Finds

theorem of_mapError {run : Run (StateM FileSystem) α} {r : Except ε α} {failure : ε → Failure}
    (h : Ends run fs (r.mapError failure) fs) : Finds run fs r.toOption := by
  refine ⟨_, h, ?_⟩
  cases r <;> rfl

theorem pure (a : α) : Finds (Pure.pure a) fs (some a) := ⟨_, .pure a, rfl⟩

variable {run : Run (StateM FileSystem) α} {value? : Option α}

theorem some_bind {a : α} (h : Finds run fs (some a)) {next : α → Run (StateM FileSystem) β}
    {r : Except Failure β} (hn : Ends (next a) fs r fs₁) : Ends (run >>= next) fs r fs₁ := by
  obtain ⟨r₀ | a', hr, hv⟩ := h
  · simp [Except.toOption] at hv
  · obtain rfl : a' = a := by simpa [Except.toOption] using hv
    exact hr.bind_ok hn

theorem none_bind (h : Finds run fs none) (next : α → Run (StateM FileSystem) β) :
    ∃ failure, Ends (run >>= next) fs (.error failure) fs := by
  obtain ⟨failure | a, hr, hv⟩ := h
  · exact ⟨failure, hr.bind_error next⟩
  · simp [Except.toOption] at hv

theorem bind {next : α → Run (StateM FileSystem) β} {f : α → Option β} (h : Finds run fs value?)
    (hn : ∀ a, Finds (next a) fs (f a)) : Finds (run >>= next) fs (value?.bind f) := by
  cases value? with
  | none =>
    obtain ⟨failure, hr⟩ := h.none_bind next
    exact ⟨_, hr, rfl⟩
  | some a =>
    obtain ⟨r, hr, hv⟩ := hn a
    exact ⟨r, h.some_bind hr, hv⟩

end Finds

section Reading

variable (faults : Faults) (onTerminal : Bool)

private theorem outcome_readText (path : String) :
    outcome ((disk faults).readText path) fs = (fs.readText path, fs) := by
  rw [disk]
  simp only
  rw [outcome_bind_ok (outcome_get fs)]
  cases fs.readText path <;> rfl

theorem finds_readText (failure : FileFault → Failure) (path : String) :
    Finds (Run.ofDisk failure ((disk faults).readText path)) fs (fs.readText path).toOption :=
  .of_mapError (.ofDisk (outcome_readText faults path) failure)

theorem finds_loadConfig (path : String) : Finds ((disk faults).loadConfig path) fs
    ((fs.readText path).toOption.bind fun text => (Config.ofText text).toOption) :=
  (finds_readText faults _ path).bind fun text => .of_mapError (.orFail _ (Config.ofText text))

theorem finds_resolveConfig (flags : Invocation) :
    Finds ((disk faults).resolveConfig flags) fs (fs.configured? flags) := by
  have hflags (base : Config) : Finds (do
      let config ← Run.orFail .scope (base.withFlags flags)
      Run.log (.resolvedConfig config)
      return config) fs (base.withFlags flags).toOption := by
    rw [← Option.bind_fun_some (base.withFlags flags).toOption]
    refine (Finds.of_mapError (.orFail .scope _)).bind fun config => ?_
    exact ⟨.ok config, (Ends.report _).bind_ok (.pure config), rfl⟩
  rw [Disk.resolveConfig, configured?]
  cases flags.config with
  | none => exact (Finds.pure Config.standard).bind hflags
  | some path => exact (finds_loadConfig faults path).bind hflags

theorem finds_loadDescription (path : String) : Finds ((disk faults).loadDescription path) fs
    ((fs.readText path).toOption.bind Yaml.read) := by
  refine (finds_readText faults _ path).bind fun text => ?_
  cases Yaml.read text with
  | none =>
    refine ⟨.error (.error (.malformed path)), (Ends.report _).bind_ok ?_, rfl⟩
    exact .throw _
  | some tree =>
    refine ⟨.ok tree, (Ends.report _).bind_ok ?_, rfl⟩
    exact .pure tree

private def loadHeader (flags : Invocation) : Run (StateM FileSystem) (String × String) := do
  let config ← (disk faults).resolveConfig flags
  let tree ← (disk faults).loadDescription (config.paths flags.target).input
  let header ← Run.ofTraced (render config flags.target tree)
  return ((config.paths flags.target).output, header)

private def settleHeader (flags : Invocation) (output header : String) :
    Run (StateM FileSystem) Unit :=
  if flags.check then (disk faults).checkHeader onTerminal output header
  else do
    (disk faults).writeHeader output header
    Run.log (.generated output)
    Run.report (.generated output)

private theorem generate_eq (flags : Invocation) : (disk faults).generate flags onTerminal =
    loadHeader faults flags >>= fun header =>
      settleHeader faults onTerminal flags header.1 header.2 := by
  rw [loadHeader]
  simp only [bind_assoc, pure_bind]
  rfl

private theorem finds_loadHeader (flags : Invocation) :
    Finds (loadHeader faults flags) fs (fs.header? flags) := by
  refine (finds_resolveConfig faults flags).bind fun config => ?_
  have hrendered (tree : Tree) : Finds (do
      let header ← Run.ofTraced (render config flags.target tree)
      return ((config.paths flags.target).output, header)) fs
      ((render config flags.target tree).result.toOption.bind fun header =>
        some ((config.paths flags.target).output, header)) :=
    (Finds.of_mapError (.ofTraced _)).bind fun header => .pure _
  have hloaded : Finds _ fs _ :=
    (finds_loadDescription faults (config.paths flags.target).input).bind hrendered
  have hgenerated : (((fs.readText (config.paths flags.target).input).toOption.bind Yaml.read).bind
      fun tree => (render config flags.target tree).result.toOption.bind fun header =>
        some ((config.paths flags.target).output, header)) =
      (fs.generated? config flags.target).bind fun header =>
        some ((config.paths flags.target).output, header) := by
    simp only [generated?, Option.bind_eq_bind, Option.bind_assoc]
  rwa [hgenerated] at hloaded

/-- Without a header nothing is checked or written. -/
theorem ends_of_no_header {flags : Invocation} (h : fs.header? flags = none) :
    ∃ failure, Ends ((disk faults).generate flags onTerminal) fs (.error failure) fs := by
  have hfinds : Finds _ fs _ := finds_loadHeader faults flags
  rw [h] at hfinds
  rw [generate_eq]
  exact hfinds.none_bind _

private theorem ends_of_header {flags : Invocation} {output header : String}
    {r : Except Failure Unit} (h : fs.header? flags = some (output, header))
    (hs : Ends (settleHeader faults onTerminal flags output header) fs r fs₁) :
    Ends ((disk faults).generate flags onTerminal) fs r fs₁ := by
  have hfinds : Finds _ fs _ := finds_loadHeader faults flags
  rw [h] at hfinds
  rw [generate_eq]
  exact hfinds.some_bind hs

private theorem ends_checkHeader (output header : String) :
    ∃ r, Ends ((disk faults).checkHeader onTerminal output header) fs r fs ∧
      (r.isOk = true ↔ fs.readText output = .ok header) := by
  cases hread : fs.readText output with
  | error fault =>
    have hfault (failure : FileFault → Failure) : Ends
        (Run.ofDisk failure ((disk faults).readText output)) fs (.error (failure fault)) fs := by
      have hr : Ends _ fs _ fs := .ofDisk (outcome_readText faults output) failure
      rwa [hread] at hr
    exact ⟨_, (hfault _).bind_error _, by simp [Except.isOk, Except.toBool]⟩
  | ok existing =>
    have hexisting (failure : FileFault → Failure) :
        Ends (Run.ofDisk failure ((disk faults).readText output)) fs (.ok existing) fs := by
      have hr : Ends _ fs _ fs := .ofDisk (outcome_readText faults output) failure
      rwa [hread] at hr
    by_cases hsame : existing = header
    · refine ⟨.ok (), (hexisting _).bind_ok ?_, by simp [hsame, Except.isOk, Except.toBool]⟩
      rw [if_pos hsame]
      exact .report _
    · refine ⟨.error (.stale output), (hexisting _).bind_ok ?_,
        by simp [hsame, Except.isOk, Except.toBool]⟩
      rw [if_neg hsame]
      cases Diff.unified? output existing header onTerminal with
      | none => exact .throw _
      | some text => exact (Ends.report _).bind_ok (.throw _)

/-- A check only looks, and it succeeds just when the file holds the header. -/
theorem ends_of_check {flags : Invocation} {output header : String}
    (h : fs.header? flags = some (output, header)) (hcheck : flags.check = true) :
    ∃ r, Ends ((disk faults).generate flags onTerminal) fs r fs ∧
      (r.isOk = true ↔ fs.readText output = .ok header) := by
  obtain ⟨r, hr, hok⟩ := ends_checkHeader faults onTerminal output header
  refine ⟨r, ends_of_header faults onTerminal h ?_, hok⟩
  rw [settleHeader, hcheck]
  exact hr

theorem ends_of_write {flags : Invocation} {output header : String}
    (h : fs.header? flags = some (output, header)) (hcheck : flags.check = false) {fs' : FileSystem}
    {r : Except Error Unit} (ho : outcome ((disk faults).writeOutput output header) fs = (r, fs')) :
    ∃ r', Ends ((disk faults).generate flags onTerminal) fs r' fs' ∧ r'.isOk = r.isOk := by
  cases r with
  | error error =>
    refine ⟨.error (.error error), ends_of_header faults onTerminal h ?_, rfl⟩
    rw [settleHeader, hcheck]
    exact ((Ends.ofDisk ho .error).bind_error _).bind_error _
  | ok =>
    refine ⟨.ok (), ends_of_header faults onTerminal h ?_, rfl⟩
    rw [settleHeader, hcheck]
    exact ((Ends.ofDisk ho .error).bind_ok (.report _)).bind_ok ((Ends.report _).bind_ok (.report _))

end Reading

end VpdHeaders
