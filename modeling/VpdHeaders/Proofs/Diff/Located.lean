import VpdHeaders.Proofs.Diff.Applied
import VpdHeaders.Proofs.Diff.Hunks
import VpdHeaders.Proofs.Diff.Printed

/-! # Where the hunks of a difference stand, and where their headers say

Where runs have moved together, an insertion still names the place in the old text where it was found,
and a deletion that in the new text. So a hunk that begins or ends with such a run can name a wrong
place. -/
namespace VpdHeaders.Diff

section Told

def edge (lines : List PatchLine) : List PatchLine := lines.takeWhile (·.mark ≠ .keep)

/-- Whether lines show where they begin in the text with the lines of this mark. -/
def Tells (mark : Mark) (lines : List PatchLine) : Prop :=
  edge lines = [] ∨ ∃ l ∈ edge lines, l.mark = mark
  deriving Decidable

/-- Whether both ends of a hunk show where they are in both texts. -/
def PatchHunk.IsTold (h : PatchHunk) : Prop :=
  ∀ mark ∈ [Mark.remove, .add], Tells mark h.lines ∧ Tells mark h.lines.reverse
  deriving Decidable

/-- A printed range starts where it should if the hunk shows its start, and is as long if it shows its
end too. -/
def Range.Agrees (mark : Mark) (lines : List PatchLine) (printed exact : Range) : Prop :=
  Tells mark lines → printed.first = exact.first ∧
    (Tells mark lines.reverse → printed.count = exact.count)

structure PatchHunk.Agrees (printed exact : PatchHunk) : Prop where
  lines : printed.lines = exact.lines
  old : Range.Agrees .remove exact.lines printed.old exact.old
  new : Range.Agrees .add exact.lines printed.new exact.new

theorem PatchHunk.Agrees.eq_of_isTold {printed exact : PatchHunk} (h : printed.Agrees exact)
    (ht : printed.IsTold) : printed = exact := by
  have heq {mark : Mark} {r r' : Range} (hm : mark ∈ [Mark.remove, .add])
      (hr : Range.Agrees mark exact.lines r r') : r = r' := by
    obtain ⟨hstart, hend⟩ := ht mark hm
    rw [h.lines] at hstart hend
    obtain ⟨hfirst, hcount⟩ := hr hstart
    exact Range.ext hfirst (hcount hend)
  exact PatchHunk.ext (heq (by simp) h.old) (heq (by simp) h.new) h.lines

theorem eq_of_isTold {printed exact : List PatchHunk}
    (h : List.Forall₂ PatchHunk.Agrees printed exact) (ht : ∀ p ∈ printed, p.IsTold) :
    printed = exact := by
  induction h with
  | nil => rfl
  | cons h _ ih =>
    obtain ⟨hp, hrest⟩ := List.forall_mem_cons.mp ht
    rw [h.eq_of_isTold hp, ih hrest]

theorem agrees_between {mark : Mark} {lines : List PatchLine} {first last : Nat} {exact : Range}
    (hfirst : Tells mark lines → first = exact.first)
    (hlast : Tells mark lines.reverse → last = exact.first + exact.count) :
    Range.Agrees mark lines (.between first last) exact := by
  refine fun h => ⟨hfirst h, fun h' => ?_⟩
  simp [Range.between, hfirst h, hlast h']

/-- Where changed lines come first, one of them is of the text in question. -/
theorem exists_of_tells {mark : Mark} {changed rest : List PatchLine} (hne : changed ≠ [])
    (hchanged : ∀ l ∈ changed, l.mark ≠ .keep) (hrest : ∀ l ∈ rest.head?, l.mark = .keep)
    (h : Tells mark (changed ++ rest)) : ∃ l ∈ changed, l.mark = mark := by
  have hedge : edge (changed ++ rest) = changed := by
    have hstop : rest.takeWhile (·.mark ≠ .keep) = [] := by
      cases rest with
      | nil => rfl
      | cons l rest => simp [hrest l rfl]
    rw [edge, List.takeWhile_append_of_pos (by simpa using hchanged), hstop, List.append_nil]
  rw [Tells, hedge] at h
  exact h.resolve_left hne

end Told

section Located

variable {i j : Nat} {b : Block} {h : Hunk}

def Hunk.located (i j : Nat) (h : Hunk) : PatchHunk :=
  ⟨⟨i, (removedText h).length⟩, ⟨j, (addedText h).length⟩, h.patchLines⟩

private theorem oldLines_patchLines (b : Block) :
    (b.patchLines.filter (·.mark ≠ .add)).map PatchLine.line = b.removed := by
  rw [Block.patchLines]
  split <;> simp [List.filter_map, Function.comp_def]

private theorem newLines_patchLines (hstays : b.changed = false → b.added = b.removed) :
    (b.patchLines.filter (·.mark ≠ .remove)).map PatchLine.line = b.added := by
  cases hc : b.changed with
  | true => simp [Block.patchLines, hc, List.filter_map, Function.comp_def]
  | false => simp [Block.patchLines, hc, List.filter_map, Function.comp_def, hstays hc]

theorem oldLines_located (i j : Nat) (h : Hunk) : (h.located i j).oldLines = removedText h := by
  simp only [PatchHunk.oldLines, Hunk.located, Hunk.patchLines, List.filter_flatMap,
    List.map_flatMap, oldLines_patchLines, removedText]

theorem newLines_located (hplaced : BlocksPlaced i j h) : (h.located i j).newLines = addedText h := by
  simp only [PatchHunk.newLines, Hunk.located, Hunk.patchLines, List.filter_flatMap,
    List.map_flatMap, addedText]
  induction h generalizing i j with
  | nil => rfl
  | cons b rest ih =>
    obtain ⟨hb, hrest⟩ := blocksPlaced_cons.mp hplaced
    rw [List.flatMap_cons, List.flatMap_cons, newLines_patchLines hb.stays, ih hrest]

theorem Stands.located {old new : List String} {rest : List PatchHunk} (gap : List String)
    (here : BlocksPlaced (i + gap.length) (j + gap.length) h)
    (after : Stands (i + gap.length + (removedText h).length) (j + gap.length + (addedText h).length)
      old new rest) :
    Stands i j (gap ++ (removedText h ++ old)) (gap ++ (addedText h ++ new))
      (h.located (i + gap.length) (j + gap.length) :: rest) := by
  have hold := oldLines_located (i + gap.length) (j + gap.length) h
  have hnew := newLines_located here
  rw [← hold, ← hnew] at after ⊢
  refine .hunk gap ?_ ?_ after
  · rw [hold, Hunk.located]
  · rw [hnew, Hunk.located]

end Located

section Ends

variable {i j : Nat} {mark : Mark} {b : Block} {bs : List Block} {h : Hunk}

private theorem patchLines_ne_nil (hfull : b.removed = [] → b.changed = true ∧ b.added ≠ []) :
    b.patchLines ≠ [] := by
  rw [Block.patchLines]
  by_cases hremoved : b.removed = []
  · obtain ⟨hc, hadded⟩ := hfull hremoved
    simp [hc, hadded]
  · split <;> simp [hremoved]

private theorem keep_of_stays (hc : b.changed = false) : ∀ l ∈ b.patchLines, l.mark = .keep := by
  simp [Block.patchLines, hc]

private theorem not_keep_of_changed (hc : b.changed = true) : ∀ l ∈ b.patchLines, l.mark ≠ .keep := by
  simp [Block.patchLines, hc, or_imp, forall_and]

private theorem shown_first (htidy : IsTidy (b :: bs)) (hc : b.changed = true)
    (h : Tells mark (Hunk.patchLines (b :: bs))) : ∃ l ∈ b.patchLines, l.mark = mark := by
  have hnext : ∀ l ∈ (Hunk.patchLines bs).head?, l.mark = .keep := by
    cases bs with
    | nil => nofun
    | cons c cs =>
      have hstays : c.changed = false := (List.isChain_cons_cons.mp htidy.apart).1 hc
      rw [Hunk.patchLines, List.flatMap_cons,
        List.head?_append_of_ne_nil _ (patchLines_ne_nil (htidy.full c (by simp)))]
      exact fun l hl => keep_of_stays hstays l (List.mem_of_head? hl)
  exact exists_of_tells (patchLines_ne_nil (htidy.full b (by simp))) (not_keep_of_changed hc) hnext h

private theorem shown_last (htidy : IsTidy (bs ++ [b])) (hc : b.changed = true)
    (h : Tells mark (Hunk.patchLines (bs ++ [b])).reverse) : ∃ l ∈ b.patchLines, l.mark = mark := by
  have hnext : ∀ l ∈ (Hunk.patchLines bs).reverse.head?, l.mark = .keep := by
    rcases List.eq_nil_or_concat' bs with rfl | ⟨cs, c, rfl⟩
    · nofun
    · have hstays : c.changed = false := by
        obtain ⟨-, -, hapart⟩ := isTidy_append_iff.mp htidy
        have hcb := hapart c (by simp) b (by simp)
        by_contra hchanged
        simp [hc] at hcb
        contradiction
      rw [Hunk.patchLines, List.flatMap_append, List.flatMap_singleton, List.head?_reverse,
        List.getLast?_append_of_ne_nil _ (patchLines_ne_nil (htidy.full c (by simp)))]
      exact fun l hl => keep_of_stays hstays l (List.mem_of_getLast? hl)
  rw [Hunk.patchLines, List.flatMap_append, List.flatMap_singleton, List.reverse_append] at h
  obtain ⟨l, hl, hmark⟩ := exists_of_tells
    (by simpa using patchLines_ne_nil (htidy.full b (by simp)))
    (by simpa using not_keep_of_changed hc) hnext h
  exact ⟨l, List.mem_reverse.mp hl, hmark⟩

private theorem removed_ne_nil (hc : b.changed = true) (h : ∃ l ∈ b.patchLines, l.mark = .remove) :
    b.removed ≠ [] := by
  rintro hnil
  simp [Block.patchLines, hc, hnil] at h

private theorem added_ne_nil (hc : b.changed = true) (h : ∃ l ∈ b.patchLines, l.mark = .add) :
    b.added ≠ [] := by
  rintro hnil
  simp [Block.patchLines, hc, hnil] at h

theorem agrees_located (hne : h ≠ []) (htidy : IsTidy h) (hplaced : BlocksPlaced i j h) :
    ∃ printed, h.printed? = some printed ∧ printed.Agrees (h.located i j) := by
  obtain ⟨first, last, hfirst, hlast⟩ := Hunk.exists_ends hne
  have hprinted : h.printed? = some ⟨.between first.oldAt (last.oldAt + last.removed.length),
      .between first.newAt (last.newAt + last.added.length), h.patchLines⟩ := by
    rw [Hunk.printed?, hfirst, hlast]
  refine ⟨_, hprinted, rfl, agrees_between ?_ ?_, agrees_between ?_ ?_⟩
  · obtain ⟨rest, rfl⟩ := List.head?_eq_some_iff.mp hfirst
    exact fun h => hplaced.1.old fun hc => removed_ne_nil hc (shown_first htidy hc h)
  · obtain ⟨front, rfl⟩ := List.getLast?_eq_some_iff.mp hlast
    obtain ⟨-, hb, -⟩ := blocksPlaced_append.mp hplaced
    intro h
    rw [hb.old fun hc => removed_ne_nil hc (shown_last htidy hc h)]
    simp [Hunk.located, Nat.add_assoc]
  · obtain ⟨rest, rfl⟩ := List.head?_eq_some_iff.mp hfirst
    exact fun h => hplaced.1.new fun hc => added_ne_nil hc (shown_first htidy hc h)
  · obtain ⟨front, rfl⟩ := List.getLast?_eq_some_iff.mp hlast
    obtain ⟨-, hb, -⟩ := blocksPlaced_append.mp hplaced
    intro h
    rw [hb.new fun hc => added_ne_nil hc (shown_last htidy hc h)]
    simp [Hunk.located, Nat.add_assoc]

end Ends

/-- Hunks that lead from text to text stand at their places. -/
theorem Leads.exists_stands {i j : Nat} {old new : List String} {hs : List Hunk}
    (h : Leads i j old new hs) (htidy : ∀ h ∈ hs, h ≠ [] ∧ IsTidy h) :
    ∃ exact, Stands i j old new exact ∧
      List.Forall₂ PatchHunk.Agrees (hs.filterMap Hunk.printed?) exact := by
  induction h with
  | done gap => exact ⟨[], .done gap, .nil⟩
  | @hunk i j old new h rest gap here _ ih =>
    obtain ⟨⟨hne, hhere⟩, hrest⟩ := List.forall_mem_cons.mp htidy
    obtain ⟨exact, hstands, hagrees⟩ := ih hrest
    obtain ⟨printed, hprinted, hagree⟩ := agrees_located hne hhere here
    refine ⟨_, .located gap here hstands, ?_⟩
    rw [List.filterMap_cons_some hprinted]
    exact .cons hagree hagrees

end VpdHeaders.Diff
