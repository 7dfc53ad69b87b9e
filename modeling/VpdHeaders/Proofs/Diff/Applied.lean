import VpdHeaders.Proofs.Diff.Lines
import VpdHeaders.Proofs.Diff.Patch

/-! # Hunks that stand where they say are a patch, forwards and backwards -/
namespace VpdHeaders.Diff

section Ranges

variable {r : Range} {text lines : List String}

theorem Range.holds_iff : r.Holds text lines ↔
    ∃ front back, text = front ++ (lines ++ back) ∧ r = ⟨front.length, lines.length⟩ := by
  obtain ⟨first, count⟩ := r
  constructor
  · rintro ⟨hfirst, hcount, hlines⟩
    refine ⟨text.take first, text.drop (first + count), ?_, ?_⟩
    · rw [← hlines, ← List.drop_drop, List.take_append_drop, List.take_append_drop]
    · rw [List.length_take_of_le hfirst, ← hcount]
  · rintro ⟨front, back, rfl, h⟩
    obtain ⟨rfl, rfl⟩ := Range.mk.injEq .. ▸ h
    simp [Range.Holds]

end Ranges

/-- Hunks that stand where they say, between lines that both texts have. -/
inductive Stands : Nat → Nat → List String → List String → List PatchHunk → Prop
  | done {i j} (gap : List String) : Stands i j gap gap []
  | hunk {i j old new h rest} (gap : List String)
      (inOld : h.old = ⟨i + gap.length, h.oldLines.length⟩)
      (inNew : h.new = ⟨j + gap.length, h.newLines.length⟩)
      (after : Stands (i + gap.length + h.oldLines.length) (j + gap.length + h.newLines.length)
        old new rest) :
      Stands i j (gap ++ (h.oldLines ++ old)) (gap ++ (h.newLines ++ new)) (h :: rest)

namespace PatchHunk

variable (h : PatchHunk)

theorem oldLines_reversed : h.reversed.oldLines = h.newLines := by
  have hmark (m : Mark) : decide (m.reversed ≠ .add) = decide (m ≠ .remove) := by cases m <;> rfl
  simp only [oldLines, newLines, PatchHunk.reversed, List.filter_map, List.map_map, Function.comp_def, hmark]

theorem newLines_reversed : h.reversed.newLines = h.oldLines := by
  have hmark (m : Mark) : decide (m.reversed ≠ .remove) = decide (m ≠ .add) := by cases m <;> rfl
  simp only [oldLines, newLines, PatchHunk.reversed, List.filter_map, List.map_map, Function.comp_def, hmark]

end PatchHunk

namespace Stands

variable {i j : Nat} {old new : List String} {hs : List PatchHunk}

theorem reversed (h : Stands i j old new hs) : Stands j i new old (hs.map PatchHunk.reversed) := by
  induction h with
  | done gap => exact .done gap
  | @hunk i j old new h rest gap inOld inNew _ ih =>
    rw [← h.oldLines_reversed, ← h.newLines_reversed] at *
    exact .hunk gap inNew inOld ih

theorem applyHunks (h : Stands i j old new hs) : applyHunks i j hs old = some new := by
  induction h with
  | done gap => rfl
  | @hunk i j old new h rest gap inOld inNew _ ih =>
    have hhere : (⟨gap.length, h.oldLines.length⟩ : Range).Holds (gap ++ (h.oldLines ++ old)) h.oldLines :=
      Range.holds_iff.mpr ⟨gap, old, rfl, rfl⟩
    simp [Diff.applyHunks, inOld, inNew, hhere, ih]

theorem holds (h : Stands i j old new hs) {front : List String} (hfront : front.length = i) :
    ∀ h ∈ hs, h.old.Holds (front ++ old) h.oldLines := by
  induction h generalizing front with
  | done gap => nofun
  | @hunk i j old new h rest gap inOld inNew _ ih =>
    refine List.forall_mem_cons.mpr ⟨Range.holds_iff.mpr ⟨front ++ gap, old, ?_, ?_⟩, ?_⟩
    · rw [List.append_assoc]
    · rw [inOld, List.length_append, hfront]
    · have hrest := @ih (front ++ (gap ++ h.oldLines)) (by simp [hfront, Nat.add_assoc])
      simpa using hrest

end Stands

theorem turns_of_stands {p : Patch} {old new : String}
    (h : Stands 0 0 (linesOf old) (linesOf new) p.hunks) : p.Turns old new where
  inOld := h.holds List.length_nil
  inNew := by
    have hnew := List.forall_mem_map.mp (h.reversed.holds List.length_nil)
    intro h hh
    rw [← h.oldLines_reversed]
    exact hnew h hh
  forth := by rw [Patch.applied?, h.applyHunks, Option.map_some, join_linesOf]
  back := by rw [Patch.applied?, Patch.reversed, h.reversed.applyHunks, Option.map_some, join_linesOf]

end VpdHeaders.Diff
