import Mathlib.Data.List.Induction
import VpdHeaders.Proofs.FileSystem.Output
import VpdHeaders.Proofs.Run.Header

/-! # Calls of the program are atomic

Each call leaves the files as they are, or puts one complete header in its place. -/
namespace VpdHeaders

open FileSystem

variable {fs : FileSystem} {place : Place}

/-- One call of the program: the operations that fail while it runs, its command line, and whether its
errors go to a terminal. -/
structure Call where
  faults : Faults
  flags : Invocation
  onTerminal : Bool

namespace Call

def succeeds (call : Call) (fs : FileSystem) : Bool :=
  (((disk call.faults).perform call.flags call.onTerminal).run fs).run.1.2

def after (call : Call) (fs : FileSystem) : FileSystem :=
  (((disk call.faults).perform call.flags call.onTerminal).run fs).run.2

/-- The directories that a call may create: those on the way to its output, and none before there is
a header to write. -/
def way (call : Call) (fs : FileSystem) : List String :=
  match fs.header? call.flags with
  | some (output, _) => if call.flags.check then [] else Path.ancestors output
  | none => []

/-- A check and a failure change no file; any other call puts the header of the files as they were at
its output path, and changes no other file. -/
structure IsAtomic (call : Call) (fs : FileSystem) : Prop where
  untouched : call.flags.check = true ∨ call.succeeds fs = false →
    Grown (call.way fs) none fs (call.after fs)
  written : call.flags.check = false → call.succeeds fs = true →
    ∃ output text, fs.header? call.flags = some (output, text) ∧
      Delivered (call.way fs) output (headerFile text) fs (call.after fs)

theorem of_ends {call : Call} {r : Except Failure Unit} {fs' : FileSystem}
    (h : Ends ((disk call.faults).generate call.flags call.onTerminal) fs r fs') :
    call.succeeds fs = r.isOk ∧ call.after fs = fs' := by
  obtain ⟨reports, hr⟩ := h []
  have hperform : (((disk call.faults).perform call.flags call.onTerminal).run fs).run =
      ((match (r, reports) with
        | (.ok (), reports) => (reports, true)
        | (.error failure, reports) => (reports ++ [.event (.failed call.flags.target failure.message),
            .failure failure], false)), fs') := by
    rw [Disk.perform, StateT.run_bind, Id.run_bind, hr]
    cases r <;> rfl
  rw [succeeds, after, hperform]
  cases r <;> exact ⟨rfl, rfl⟩

theorem of_write {call : Call} {output text : String} (h : fs.header? call.flags = some (output, text))
    (hcheck : call.flags.check = false) {r : Except Error Unit} {fs' : FileSystem}
    (ho : outcome ((disk call.faults).writeOutput output text) fs = (r, fs')) :
    call.succeeds fs = r.isOk ∧ call.after fs = fs' := by
  obtain ⟨r', he, hok⟩ := ends_of_write call.faults call.onTerminal h hcheck ho
  rw [← hok]
  exact of_ends he

private theorem isAtomic_of_unchanged {call : Call} (h : call.after fs = fs)
    (hc : call.flags.check = false → call.succeeds fs = false) : call.IsAtomic fs := by
  refine ⟨fun _ => ?_, fun hcheck hs => ?_⟩
  · rw [h]
    exact Grown.refl _ fs
  · rw [hc hcheck] at hs
    cases hs

private theorem isAtomic_of_write {call : Call} {output text : String}
    (h : fs.header? call.flags = some (output, text)) (hcheck : call.flags.check = false) :
    call.IsAtomic fs := by
  have hway : call.way fs = Path.ancestors output := by
    rw [way, h]
    simp [hcheck]
  have hwhole := isWhole_writeOutput call.faults fs output text
  cases ho : outcome ((disk call.faults).writeOutput output text) fs with
  | mk r fs' =>
    rw [ho] at hwhole
    obtain ⟨hs, rfl⟩ := of_write h hcheck ho
    rw [← hway] at hwhole
    cases r with
    | error error =>
      refine ⟨fun _ => hwhole, fun _ hsucceeds => ?_⟩
      rw [hs] at hsucceeds
      cases hsucceeds
    | ok =>
      refine ⟨fun hfails => ?_, fun _ _ => ⟨output, text, h, hwhole⟩⟩
      rw [hs, hcheck] at hfails
      simp [Except.isOk, Except.toBool] at hfails

theorem isAtomic (call : Call) (fs : FileSystem) : call.IsAtomic fs := by
  cases h : fs.header? call.flags with
  | none =>
    obtain ⟨failure, he⟩ := ends_of_no_header call.faults call.onTerminal h
    obtain ⟨hs, ha⟩ := of_ends he
    exact isAtomic_of_unchanged ha fun _ => hs
  | some header =>
    obtain ⟨output, text⟩ := header
    cases hcheck : call.flags.check with
    | true =>
      obtain ⟨r, he, -⟩ := ends_of_check call.faults call.onTerminal h hcheck
      exact isAtomic_of_unchanged (of_ends he).2 fun hc => absurd (hcheck.symm.trans hc) (by simp)
    | false => exact isAtomic_of_write h hcheck

/-- A call that succeeds puts the header with this text at a place. -/
def Writes (call : Call) (fs : FileSystem) (place : Place) (text : String) : Prop :=
  call.flags.check = false ∧ call.succeeds fs = true ∧
    ∃ output, fs.header? call.flags = some (output, text) ∧ (call.after fs).locate output = .ok place

/-- What a call does to the file at a place. -/
theorem fileAt?_after (call : Call) (fs : FileSystem) (place : Place) :
    (call.after fs).fileAt? place = fs.fileAt? place ∨
      ∃ text, call.Writes fs place text ∧ (call.after fs).fileAt? place = some (headerFile text) := by
  have hatomic := call.isAtomic fs
  by_cases hwrites : call.flags.check = false ∧ call.succeeds fs = true
  · obtain ⟨output, text, h, q, hl, hfile, hg⟩ := hatomic.written hwrites.1 hwrites.2
    by_cases hq : q = place
    · subst hq
      exact .inr ⟨text, ⟨hwrites.1, hwrites.2, output, h, hl⟩, hfile⟩
    · exact .inl (hg.files place fun heq => hq (Option.some.inj heq))
  · have hneither : call.flags.check = true ∨ call.succeeds fs = false := by
      by_contra hnot
      rw [not_or] at hnot
      exact hwrites (by simpa using hnot)
    exact .inl ((hatomic.untouched hneither).files place (by simp))

def afterAll (calls : List Call) (fs : FileSystem) : FileSystem :=
  calls.foldl (fun fs call => call.after fs) fs

theorem afterAll_concat (calls : List Call) (call : Call) (fs : FileSystem) :
    afterAll (calls ++ [call]) fs = call.after (afterAll calls fs) := by
  rw [afterAll, List.foldl_append]
  rfl

theorem fileAt?_afterAll (calls : List Call) (fs : FileSystem) (place : Place) :
    (afterAll calls fs).fileAt? place = fs.fileAt? place ∨
      ∃ earlier call later text, calls = earlier ++ call :: later ∧
        call.Writes (afterAll earlier fs) place text ∧
        (afterAll calls fs).fileAt? place = some (headerFile text) := by
  induction calls using List.reverseRecOn with
  | nil => exact .inl rfl
  | append_singleton calls call ih =>
    rw [afterAll_concat]
    rcases call.fileAt?_after (afterAll calls fs) place with hsame | ⟨text, hw, hfile⟩
    · rw [hsame]
      rcases ih with hfirst | ⟨earlier, writer, later, text, rfl, hw, hfile⟩
      · exact .inl hfirst
      · exact .inr ⟨earlier, writer, later ++ [call], text, by simp, hw, hfile⟩
    · exact .inr ⟨calls, call, [], text, rfl, hw, hfile⟩

/-- Every call of a sequence is atomic, whatever operations fail in it, and so every file ends as it
was at first or as the complete header of a call that succeeded. -/
theorem calls_are_atomic (fs : FileSystem) (calls : List Call) :
    (∀ earlier call later, calls = earlier ++ call :: later →
      call.IsAtomic (afterAll earlier fs)) ∧
    ∀ place, (afterAll calls fs).fileAt? place = fs.fileAt? place ∨
      ∃ earlier call later text, calls = earlier ++ call :: later ∧
        call.Writes (afterAll earlier fs) place text ∧
        (afterAll calls fs).fileAt? place = some (headerFile text) :=
  ⟨fun earlier call _ _ => call.isAtomic (afterAll earlier fs), fileAt?_afterAll calls fs⟩

end Call

end VpdHeaders
