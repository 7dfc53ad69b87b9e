import VpdHeaders.Proofs.Diff.Located

/-! # A printed difference is a patch

Its lines are those of a patch that turns each text into the other. The headers can name other places
than those of the hunks. -/
namespace VpdHeaders.Diff

section Hunks

variable {old new : List String}

private theorem mem_patchLines {h : Hunk} {l : PatchLine} (hl : l ∈ h.patchLines) :
    l.line ∈ removedText h ∨ l.line ∈ addedText h := by
  obtain ⟨b, hb, hlb⟩ := List.mem_flatMap.mp hl
  have hblock : l.line ∈ b.removed ∨ l.line ∈ b.added := by
    rw [Block.patchLines] at hlb
    split at hlb
    · rcases List.mem_append.mp hlb with hm | hm
      · obtain ⟨line, hline, rfl⟩ := List.mem_map.mp hm
        exact .inl hline
      · obtain ⟨line, hline, rfl⟩ := List.mem_map.mp hm
        exact .inr hline
    · obtain ⟨line, hline, rfl⟩ := List.mem_map.mp hlb
      exact .inl hline
  exact hblock.imp (fun hm => List.mem_flatMap.mpr ⟨b, hb, hm⟩) fun hm => List.mem_flatMap.mpr ⟨b, hb, hm⟩

/-- Hunks show lines of the texts. -/
theorem Leads.mem {i j : Nat} {hs : List Hunk} (h : Leads i j old new hs) :
    ∀ h ∈ hs, ∀ l ∈ Hunk.patchLines h, l.line ∈ old ∨ l.line ∈ new := by
  induction h with
  | done gap => nofun
  | @hunk i j old new h rest gap _ _ ih =>
    refine List.forall_mem_cons.mpr ⟨fun l hl => ?_, fun h' hh' l hl => ?_⟩
    · rcases mem_patchLines hl with hm | hm <;> simp [hm]
    · rcases ih h' hh' l hl with hm | hm <;> simp [hm]

end Hunks

section Empty

variable {old new : List String}

private theorem settle_singleton (kind : Kind) (fuel : Nat) (r : Run) :
    settle kind (fuel + 2) [] [r] = [r] := by
  rw [settle]
  split
  · simp [Focus.up, Focus.down, settle]
  · rfl

private theorem compact_singleton (r : Run) : compact [r] = [r] := by
  have h (kind : Kind) : settle kind (weight [r] + 1) [] [r] = [r] := by
    rw [weight, List.foldr_cons]
    exact settle_singleton ..
  rw [compact, h, h]

private theorem sharedStart_of_nil (h : old = [] ∨ new = []) : sharedStart old new = 0 := by
  rcases h with rfl | rfl
  · rfl
  · cases old <;> rfl

/-- The difference from or to an empty text is one change, which stands at the start. -/
theorem hunks_of_nil (h : old = [] ∨ new = []) (hne : old ≠ new) :
    hunks old new = [[⟨true, 0, 0, old, new⟩]] := by
  have hstart := sharedStart_of_nil h
  have hend : sharedEnd old new = 0 :=
    sharedStart_of_nil (h.imp List.reverse_eq_nil_iff.mpr List.reverse_eq_nil_iff.mpr)
  rcases h with rfl | rfl
  · have hscript : script 0 0 [] new = [⟨.insert, 0, 0, new⟩] := by
      rw [script]
      simp [hstart, hend, runOf, hne.symm]
    rw [hunks, hscript, compact_singleton]
    rfl
  · have hscript : script 0 0 old [] = [⟨.delete, 0, 0, old⟩] := by
      rw [script]
      simp [hstart, hend, runOf, hne]
    rw [hunks, hscript, compact_singleton]
    rfl

theorem stands_of_nil (h : old = [] ∨ new = []) (hne : old ≠ new) :
    Stands 0 0 old new ((hunks old new).filterMap Hunk.printed?) := by
  have hprinted : (hunks old new).filterMap Hunk.printed? =
      [Hunk.located 0 0 [⟨true, 0, 0, old, new⟩]] := by
    rw [hunks_of_nil h hne]
    simp [Hunk.printed?, Hunk.located, Range.between]
  have hplaced : BlocksPlaced 0 0 [⟨true, 0, 0, old, new⟩] :=
    ⟨⟨fun _ => rfl, fun _ => rfl, by simp⟩, trivial⟩
  have hstands := Stands.located [] hplaced (.done [])
  rw [hprinted]
  simpa using hstands

end Empty

/-- What is printed for two texts, unless they are equal, can be read, and shows the lines of a patch
that turns each text into the other, character for character. It is that patch itself if a text is
empty, or if all hunks show where they are; else headers can name other places. -/
theorem unified_is_patch {label : String} (hlabel : IsClean label.toList) (old new : String) :
    (unified? label old new false = none ↔ old = new) ∧
    ∀ text, unified? label old new false = some text → ∃ printed exact : Patch,
      Patch.read? text = some printed ∧
      printed.oldTitle = label ++ " (on disk)" ∧ printed.newTitle = label ++ " (generated)" ∧
      exact.Turns old new ∧ List.Forall₂ PatchHunk.Agrees printed.hunks exact.hunks ∧
      (old = "" ∨ new = "" ∨ (∀ h ∈ printed.hunks, h.IsTold) → printed.Turns old new) := by
  have hnone : unified? label old new false = none ↔ old = new := by
    simp [unified?]
  refine ⟨hnone, fun text htext => ?_⟩
  have hne : old ≠ new := fun he => by simp [hnone.mpr he] at htext
  rw [unified?_of_ne label hne, Option.some.injEq] at htext
  subst htext
  have hleads := leads_hunks (linesOf old) (linesOf new)
  obtain ⟨exact, hstands, hagrees⟩ := hleads.exists_stands isTidy_of_mem_hunks
  have hlines : ∀ h ∈ hunks (linesOf old) (linesOf new), ∀ l ∈ Hunk.patchLines h,
      IsLine l.line.toList := by
    intro h hh l hl
    rcases hleads.mem h hh l hl with hm | hm <;> exact isLine_of_mem_linesOf hm
  refine ⟨_, ⟨label, label, exact⟩, read?_rows hlabel hlines, rfl, rfl, turns_of_stands hstands,
    hagrees, ?_⟩
  have hempty (h : old = "" ∨ new = "") : linesOf old = [] ∨ linesOf new = [] :=
    h.imp (fun he => by rw [he]; rfl) fun he => by rw [he]; rfl
  have hlinesNe := linesOf_injective.ne hne
  rintro (hold | hnew | htold)
  · exact turns_of_stands (stands_of_nil (hempty (.inl hold)) hlinesNe)
  · exact turns_of_stands (stands_of_nil (hempty (.inr hnew)) hlinesNe)
  · rw [← eq_of_isTold hagrees htold] at hstands
    exact turns_of_stands hstands

/-- A last line without an end. -/
theorem unended_line_is_patched : IsClean "h".toList ∧ ∃ text printed,
    unified? "h" "a\nb" "a\nc\n" false = some text ∧ Patch.read? text = some printed ∧
      printed.Turns "a\nb" "a\nc\n" := by
  have hlabel : IsClean "h".toList := by simp
  have htext : unified? "h" "a\nb" "a\nc\n" false = some ("--- h (on disk)\n+++ h (generated)\n" ++
      "@@ -1,2 +1,2 @@\n a\n-b\n\\ No newline at end of file\n+c\n") := by
    decide +kernel
  obtain ⟨printed, exact, hread, -, -, -, -, hturns⟩ := (unified_is_patch hlabel _ _).2 _ htext
  refine ⟨hlabel, _, printed, htext, hread, hturns (.inr (.inr ?_))⟩
  obtain rfl : printed = ⟨"h (on disk)", "h (generated)",
      [⟨⟨0, 2⟩, ⟨0, 2⟩, [⟨.keep, "a\n"⟩, ⟨.remove, "b"⟩, ⟨.add, "c\n"⟩]⟩]⟩ :=
    Option.some.inj (hread.symm.trans (by decide +kernel))
  decide

/-- An insertion that goes with the line before it names the place where it was found, and the hunk
ends there. -/
theorem header_names_other_place : ∃ text printed,
    unified? "h" "X\na\n" "a\na\n" false = some text ∧ Patch.read? text = some printed ∧
      printed.applied? "X\na\n" = none := by
  refine ⟨"--- h (on disk)\n+++ h (generated)\n@@ -1 +2 @@\n-X\n a\n+a\n", ⟨"h (on disk)", "h (generated)",
    [⟨⟨0, 1⟩, ⟨1, 1⟩, [⟨.remove, "X\n"⟩, ⟨.keep, "a\n"⟩, ⟨.add, "a\n"⟩]⟩]⟩, ?_, ?_, ?_⟩
  · decide +kernel
  · decide +kernel
  · decide +kernel

end VpdHeaders.Diff
