import VpdHeaders.Proofs.FileSystem.Reading
import VpdHeaders.Proofs.Run.Atomic

/-! # Checking a header agrees with writing it

A check succeeds just where writing would change no contents, and so right after a header is written. -/
namespace VpdHeaders

open FileSystem

variable {fs fs' : FileSystem}

section Quiet

variable {α β ε : Type}

/-- If a run succeeds, it has reported nothing but log events. -/
def LogsOnly (run : Run (StateM FileSystem) α) : Prop :=
  ∀ fs reports a reports' fs', ((run.run.run reports).run fs).run = ((.ok a, reports'), fs') →
    ∃ events : List Event, reports' = reports ++ events.map .event

namespace LogsOnly

theorem pure (a : α) : LogsOnly (Pure.pure a) := by
  rintro fs reports _ _ _ ⟨⟩
  exact ⟨[], by simp⟩

theorem throw (failure : Failure) :
    LogsOnly (MonadExcept.throw failure : Run (StateM FileSystem) α) := by
  rintro fs reports _ _ _ ⟨⟩

theorem log (event : Event) : LogsOnly (Run.log event) := by
  rintro fs reports _ _ _ ⟨⟩
  exact ⟨[event], rfl⟩

theorem bind {run : Run (StateM FileSystem) α} {next : α → Run (StateM FileSystem) β}
    (h : LogsOnly run) (hn : ∀ a, LogsOnly (next a)) : LogsOnly (run >>= next) := by
  intro fs reports b reports₂ fs₂ hr
  rw [ExceptT.run_bind, StateT.run_bind, StateT.run_bind, Id.run_bind] at hr
  cases hfirst : ((run.run.run reports).run fs).run with
  | mk left fs₁ =>
    obtain ⟨r | a, reports₁⟩ := left
    · rw [hfirst] at hr
      cases hr
    · rw [hfirst] at hr
      obtain ⟨events, rfl⟩ := h fs reports a reports₁ fs₁ hfirst
      obtain ⟨others, rfl⟩ := hn a fs₁ _ b reports₂ fs₂ hr
      exact ⟨events ++ others, by simp⟩

theorem orFail (failure : ε → Failure) (r : Except ε α) : LogsOnly (Run.orFail failure r) := by
  cases r with
  | ok a => exact pure a
  | error e => exact throw (failure e)

theorem ofDisk (failure : ε → Failure) (action : ExceptT ε (StateM FileSystem) α) :
    LogsOnly (Run.ofDisk failure action) := by
  have hrun : LogsOnly (liftM (action.run : StateM FileSystem (Except ε α))) := by
    rintro fs reports _ _ _ ⟨⟩
    exact ⟨[], by simp⟩
  exact hrun.bind fun r => orFail failure r

theorem ofTraced (t : Traced α) : LogsOnly (Run.ofTraced t) := by
  have hlogs (events : List Event) :
      LogsOnly (events.forM Run.log : Run (StateM FileSystem) PUnit) := by
    induction events with
    | nil => exact pure ()
    | cons event events ih => exact (log event).bind fun _ => ih
  exact (hlogs t.events).bind fun _ => orFail .error t.result

end LogsOnly

variable (faults : Faults) (onTerminal : Bool)

private theorem logsOnly_resolveConfig (flags : Invocation) :
    LogsOnly ((disk faults).resolveConfig flags) := by
  have hflags (base : Config) : LogsOnly (do
      let config ← Run.orFail .scope (base.withFlags flags)
      Run.log (.resolvedConfig config)
      return config) :=
    (LogsOnly.orFail _ _).bind fun config => (LogsOnly.log _).bind fun _ => .pure config
  rw [Disk.resolveConfig]
  cases flags.config with
  | none => exact (LogsOnly.pure Config.standard).bind hflags
  | some path =>
    exact LogsOnly.bind ((LogsOnly.ofDisk _ _).bind fun text => .orFail _ _) hflags

private theorem logsOnly_loadDescription (path : String) :
    LogsOnly ((disk faults).loadDescription path) := by
  refine (LogsOnly.ofDisk _ _).bind fun text => (LogsOnly.log _).bind fun _ => ?_
  cases Yaml.read text with
  | none => exact .throw _
  | some tree => exact .pure tree

private theorem logsOnly_checkHeader (output header : String) :
    LogsOnly ((disk faults).checkHeader onTerminal output header) := by
  refine (LogsOnly.ofDisk _ _).bind fun existing => ?_
  split
  · exact .log _
  · -- a difference is shown here, but then the run fails
    intro fs reports a reports' fs' hr
    cases hd : Diff.unified? output existing header onTerminal <;> rw [hd] at hr <;> cases hr

theorem logsOnly_generate {flags : Invocation} (h : flags.check = true) :
    LogsOnly ((disk faults).generate flags onTerminal) := by
  refine (logsOnly_resolveConfig faults flags).bind fun config => ?_
  refine (logsOnly_loadDescription faults _).bind fun tree => ?_
  refine (LogsOnly.ofTraced _).bind fun header => ?_
  rw [if_pos h]
  exact logsOnly_checkHeader faults onTerminal _ header

end Quiet

namespace FileSystem

variable {flags : Invocation} {config : Config} {output text : String}

/-- The files that a run reads: its settings, if they are in a file, and its description. -/
def sources (flags : Invocation) (config : Config) : List String :=
  flags.config.toList ++ [(config.paths flags.target).input]

/-- The file at the output path of a run holds its header. -/
def IsUpToDate (fs : FileSystem) (flags : Invocation) : Prop :=
  ∃ output text, fs.header? flags = some (output, text) ∧ fs.readText output = .ok text

def IsApart (fs : FileSystem) (flags : Invocation) : Prop :=
  ∀ config, fs.configured? flags = some config →
    ∀ path ∈ sources flags config, fs.named path ≠ fs.named (config.paths flags.target).output

private theorem toOption_eq_some_iff {α ε : Type} {r : Except ε α} {a : α} :
    r.toOption = some a ↔ r = .ok a := by
  cases r <;> simp [Except.toOption]

private def Rereads (fs fs' : FileSystem) (path : String) : Prop :=
  ∀ text, fs.readText path = .ok text → fs'.readText path = .ok text

private theorem configured?_mono (hr : ∀ path ∈ flags.config, Rereads fs fs' path)
    (h : fs.configured? flags = some config) : fs'.configured? flags = some config := by
  rw [configured?] at h ⊢
  cases hc : flags.config with
  | none => rwa [hc] at h
  | some path =>
    rw [hc] at h
    obtain ⟨base, hbase, h⟩ := Option.bind_eq_some_iff.mp h
    obtain ⟨text, htext, hbase⟩ := Option.bind_eq_some_iff.mp hbase
    have htext' := hr path (by simp [hc]) text (toOption_eq_some_iff.mp htext)
    refine Option.bind_eq_some_iff.mpr ⟨base, Option.bind_eq_some_iff.mpr ⟨text, ?_, hbase⟩, h⟩
    exact toOption_eq_some_iff.mpr htext'

private theorem generated?_mono {target : Target}
    (hr : Rereads fs fs' (config.paths target).input)
    (h : fs.generated? config target = some text) : fs'.generated? config target = some text := by
  obtain ⟨description, hd, h⟩ := Option.bind_eq_some_iff.mp h
  have hd' := hr description (toOption_eq_some_iff.mp hd)
  exact Option.bind_eq_some_iff.mpr ⟨description, toOption_eq_some_iff.mpr hd', h⟩

/-- A run comes to the same header as long as no file but its output changes. -/
theorem header?_mono (ha : fs.IsApart flags) (hk : KeepsDirectories fs fs')
    (hf : ∀ place, place ≠ fs.named output → fs'.fileAt? place = fs.fileAt? place)
    (h : fs.header? flags = some (output, text)) : fs'.header? flags = some (output, text) := by
  obtain ⟨config, hc, h⟩ := Option.bind_eq_some_iff.mp h
  obtain ⟨header, hg, h⟩ := Option.bind_eq_some_iff.mp h
  obtain ⟨rfl, rfl⟩ := Prod.mk.inj (Option.some.inj h)
  have hr : ∀ path ∈ sources flags config, Rereads fs fs' path := fun path hp _ =>
    readText_mono hk (hf _ (ha config hc path hp))
  have hc' := configured?_mono (fun path hp => hr path (by simp_all [sources])) hc
  have hg' := generated?_mono (hr _ (by simp [sources])) hg
  exact Option.bind_eq_some_iff.mpr ⟨config, hc', Option.bind_eq_some_iff.mpr ⟨header, hg', h⟩⟩

end FileSystem

namespace Call

variable {call : Call} {output text : String}

def exitCode (call : Call) (fs : FileSystem) : Nat := Run.exitCode (call.succeeds fs)

def reports (call : Call) (fs : FileSystem) : List Report :=
  (((disk call.faults).perform call.flags call.onTerminal).run fs).run.1.1

theorem exitCode_eq_zero_iff : call.exitCode fs = 0 ↔ call.succeeds fs = true := by
  cases h : call.succeeds fs <;> simp [exitCode, Run.exitCode, h]

theorem exitCode_eq_one_iff : call.exitCode fs = 1 ↔ call.exitCode fs ≠ 0 := by
  cases h : call.succeeds fs <;> simp [exitCode, Run.exitCode, h]

theorem succeeds_check_iff (h : call.flags.check = true) :
    call.succeeds fs = true ↔ fs.IsUpToDate call.flags := by
  rw [IsUpToDate]
  cases hheader : fs.header? call.flags with
  | none =>
    obtain ⟨failure, he⟩ := ends_of_no_header call.faults call.onTerminal hheader
    simp [(of_ends he).1, Except.isOk, Except.toBool]
  | some header =>
    obtain ⟨output, text⟩ := header
    obtain ⟨r, he, hr⟩ := ends_of_check call.faults call.onTerminal hheader h
    rw [(of_ends he).1, hr]
    simp

theorem reports_of_succeeds_check (h : call.flags.check = true) (hs : call.succeeds fs = true) :
    ∃ events : List Event, call.reports fs = events.map .event := by
  cases hg : ((((disk call.faults).generate call.flags call.onTerminal).run.run []).run fs).run with
  | mk left fs' =>
    obtain ⟨failure | a, shown⟩ := left
    · rw [succeeds, Disk.perform, StateT.run_bind, Id.run_bind, hg] at hs
      cases hs
    · obtain ⟨events, rfl⟩ := logsOnly_generate call.faults call.onTerminal h fs [] a shown fs' hg
      rw [reports, Disk.perform, StateT.run_bind, Id.run_bind, hg]
      exact ⟨events, rfl⟩

/-- What a call has written can be read at the path of its output, and no other file has changed. -/
theorem readText_after (hcheck : call.flags.check = false) (hs : call.succeeds fs = true) :
    ∃ output text, fs.header? call.flags = some (output, text) ∧
      (call.after fs).readText output = .ok text ∧ Grown (call.way fs) (some (fs.named output)) fs
        (call.after fs) := by
  obtain ⟨output, text, h, place, hl, hfile, hg⟩ := (call.isAtomic fs).written hcheck hs
  cases ho : outcome ((disk call.faults).writeOutput output text) fs with
  | mk r fs' =>
    cases r with
    | error error =>
      rw [(of_write h hcheck ho).1] at hs
      cases hs
    | ok =>
      have hnul := requires_writeOutput call.faults output text fs () fs' ho
      have hread : (call.after fs).readText output = .ok text :=
        readText_eq_ok_iff.mpr ⟨hnul, place, headerFile text, hl, hfile, rfl⟩
      have hplace : place = fs.named output := by
        rw [eq_named_of_locate hl, named_congr hg.workingDirectory]
      exact ⟨output, text, h, hread, hplace ▸ hg⟩

theorem isUpToDate_after (ha : fs.IsApart call.flags) (hcheck : call.flags.check = false)
    (hs : call.succeeds fs = true) : (call.after fs).IsUpToDate call.flags := by
  obtain ⟨output, text, h, hread, hg⟩ := readText_after hcheck hs
  have hothers (place : Place) (hp : place ≠ fs.named output) :
      (call.after fs).fileAt? place = fs.fileAt? place :=
    hg.files place fun heq => hp (Option.some.inj heq).symm
  exact ⟨output, text, header?_mono ha hg.toKeepsDirectories hothers h, hread⟩

/-- Where the check succeeds, writing changes no contents. -/
theorem contents_after_of_isUpToDate (h : fs.IsUpToDate call.flags) (place : Place) :
    ((call.after fs).fileAt? place).map File.contents =
      (fs.fileAt? place).map File.contents := by
  obtain ⟨output, text, hheader, hread⟩ := h
  rcases call.fileAt?_after fs place with hsame | ⟨text', ⟨hcheck, hs, output', hheader', hl⟩, hfile⟩
  · rw [hsame]
  · obtain ⟨rfl, rfl⟩ := Prod.mk.inj (Option.some.inj (hheader'.symm.trans hheader))
    obtain ⟨_, _, _, _, hg⟩ := readText_after hcheck hs
    obtain ⟨-, before, file, hbefore, hold, htext⟩ := readText_eq_ok_iff.mp hread
    -- the path was looked up before and after, in different file systems
    obtain rfl : place = before := by
      rw [eq_named_of_locate hl, eq_named_of_locate hbefore, named_congr hg.workingDirectory]
    rw [hfile, hold]
    exact congrArg some htext.symm

/-- The check of a header agrees with the writing of it. It succeeds and shows no difference right
after the header is written, unless that replaces one of the sources. It succeeds just where the file
at the output path holds the header that writing would put there, and then writing changes no
contents. Anywhere else it fails. -/
theorem check_agrees_with_write (fs : FileSystem) (flags : Invocation) (faults faults' : Faults)
    (onTerminal onTerminal' : Bool) :
    let write : Call := ⟨faults, { flags with check := false }, onTerminal⟩
    let check : Call := ⟨faults', { flags with check := true }, onTerminal'⟩
    (fs.IsApart flags → write.exitCode fs = 0 →
      check.exitCode (write.after fs) = 0 ∧
        ∃ events : List Event, check.reports (write.after fs) = events.map .event) ∧
    (write.exitCode fs = 0 → ∃ output text, fs.header? flags = some (output, text) ∧
      (write.after fs).readText output = .ok text) ∧
    (check.exitCode fs = 0 ↔ fs.IsUpToDate flags) ∧
    (fs.IsUpToDate flags → ∀ place, ((write.after fs).fileAt? place).map File.contents =
      (fs.fileAt? place).map File.contents) ∧
    (¬ fs.IsUpToDate flags → check.exitCode fs = 1) := by
  intro write check
  have hcheck (fs : FileSystem) : check.exitCode fs = 0 ↔ fs.IsUpToDate flags := by
    rw [exitCode_eq_zero_iff]
    exact succeeds_check_iff rfl
  refine ⟨fun ha hw => ?_, fun hw => ?_, hcheck fs, fun h place => ?_, fun h => ?_⟩
  · have hdone : check.exitCode (write.after fs) = 0 :=
      (hcheck _).mpr (isUpToDate_after ha rfl (exitCode_eq_zero_iff.mp hw))
    exact ⟨hdone, reports_of_succeeds_check rfl (exitCode_eq_zero_iff.mp hdone)⟩
  · obtain ⟨output, text, h, hread, -⟩ := readText_after rfl (exitCode_eq_zero_iff.mp hw)
    exact ⟨output, text, h, hread⟩
  · exact contents_after_of_isUpToDate h place
  · exact exitCode_eq_one_iff.mpr fun hzero => h ((hcheck fs).mp hzero)

def bench : FileSystem where
  entries := [(["bench"], .directory),
    (["bench", "writefru.yaml"], .file ⟨"Chassis: {}\n".toUTF8.toList, 0o644⟩)]
  workingDirectory := ["bench"]

/-- On the bench a header is written, and its check succeeds from then on. -/
theorem check_agrees_with_write_on_bench :
    let flags : Invocation := ⟨.writeFru, none, none, none, none, false, false⟩
    let write : Call := ⟨noFaults, flags, true⟩
    let check : Call := ⟨noFaults, { flags with check := true }, true⟩
    bench.IsApart flags ∧ write.exitCode bench = 0 ∧ check.exitCode bench = 1 ∧
      check.exitCode (write.after bench) = 0 := by
  intro flags write check
  have hstandard : bench.configured? flags = some Config.standard := by decide +kernel
  have hapart : bench.IsApart flags := by
    intro config hc
    obtain rfl := Option.some.inj (hstandard.symm.trans hc)
    decide +kernel
  have hwritten : write.exitCode bench = 0 := by decide +kernel
  have hstale : check.exitCode bench = 1 := by decide +kernel
  have hagree := check_agrees_with_write bench flags noFaults noFaults true true
  exact ⟨hapart, hwritten, hstale, (hagree.1 hapart hwritten).1⟩

end Call

end VpdHeaders
