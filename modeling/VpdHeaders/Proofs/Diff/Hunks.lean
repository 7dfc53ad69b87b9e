import VpdHeaders.Proofs.Diff.Blocks

/-! # Hunks leave out only lines that stay -/
namespace VpdHeaders.Diff

section Trim

variable {i j : Nat} {b : Block} {bs : List Block}

/-- A block that stays, cut in front. -/
theorem ending_of_isPlaced (hb : b.changed = false) (h : b.IsPlaced i j) (n : Nat) :
    ∃ gap, b.removed = gap ++ (b.ending n).removed ∧ b.added = gap ++ (b.ending n).added ∧
      gap.length = b.removed.length - n ∧
      (b.ending n).IsPlaced (i + gap.length) (j + gap.length) := by
  have hadded := h.stays hb
  have hlength : (b.removed.take (b.removed.length - n)).length = b.removed.length - n :=
    List.length_take_of_le (Nat.sub_le _ _)
  refine ⟨b.removed.take (b.removed.length - n), ?_, ?_, hlength, ?_⟩
  · simp [Block.ending]
  · simp [Block.ending, hadded]
  · rw [hlength]
    exact ⟨fun _ => by rw [Block.ending, h.old (by simp [hb])],
      fun _ => by rw [Block.ending, h.new (by simp [hb])], fun _ => by simp [Block.ending, hadded]⟩

/-- The same cut at the end. -/
theorem beginning_of_isPlaced (hb : b.changed = false) (h : b.IsPlaced i j) (n : Nat) :
    ∃ gap, b.removed = (b.beginning n).removed ++ gap ∧ b.added = (b.beginning n).added ++ gap ∧
      gap.length = b.removed.length - n ∧ (b.beginning n).IsPlaced i j := by
  have hadded := h.stays hb
  refine ⟨b.removed.drop n, ?_, ?_, List.length_drop, ?_⟩
  · simp [Block.beginning]
  · simp [Block.beginning, hadded]
  · exact ⟨fun _ => h.old (by simp [hb]), fun _ => h.new (by simp [hb]),
      fun _ => by simp [Block.beginning, hadded]⟩

/-- A long block that stays, cut in the middle: its first and its last lines are shown. -/
theorem middle_of_isPlaced (hb : b.changed = false) (h : b.IsPlaced i j) {n : Nat}
    (hlong : 2 * n < b.removed.length) :
    ∃ gap, b.removed = (b.beginning n).removed ++ (gap ++ (b.ending n).removed) ∧
      b.added = (b.beginning n).removed ++ (gap ++ (b.ending n).added) ∧
      (b.beginning n).IsPlaced i j ∧
      (b.ending n).IsPlaced (i + (b.beginning n).removed.length + gap.length)
        (j + (b.beginning n).removed.length + gap.length) := by
  obtain ⟨front, hold, hnew, hfront, hend⟩ := ending_of_isPlaced hb h n
  obtain ⟨-, -, -, -, hstart⟩ := beginning_of_isPlaced hb h n
  have htake : (b.beginning n).removed = front.take n := by
    rw [Block.beginning, hold, List.take_append_of_le_length (by omega)]
  have hcut : front = (b.beginning n).removed ++ front.drop n := by
    rw [htake, List.take_append_drop]
  rw [hcut, List.length_append, ← Nat.add_assoc, ← Nat.add_assoc] at hend
  rw [hcut, List.append_assoc] at hold hnew
  exact ⟨front.drop n, hold, hnew, hstart, hend⟩

theorem trimFirst_of_placed (h : BlocksPlaced i j bs) :
    ∃ gap, removedText bs = gap ++ removedText (trimFirst bs) ∧
      addedText bs = gap ++ addedText (trimFirst bs) ∧
      BlocksPlaced (i + gap.length) (j + gap.length) (trimFirst bs) := by
  cases bs with
  | nil => exact ⟨[], rfl, rfl, trivial⟩
  | cons b rest =>
    obtain ⟨hb, hrest⟩ := blocksPlaced_cons.mp h
    cases hc : b.changed with
    | true => exact ⟨[], by simp [trimFirst, hc], by simp [trimFirst, hc], by simpa [trimFirst, hc] using h⟩
    | false =>
      obtain ⟨gap, hold, hnew, -, hend⟩ := ending_of_isPlaced hc hb context
      refine ⟨gap, ?_, ?_, ?_⟩
      · simp [trimFirst, hc, hold]
      · simp [trimFirst, hc, hnew]
      · rw [hold, hnew, List.length_append, List.length_append, ← Nat.add_assoc, ← Nat.add_assoc] at hrest
        simpa [trimFirst, hc] using ⟨hend, hrest⟩

theorem trimLast_of_placed (h : BlocksPlaced i j bs) :
    ∃ gap, removedText bs = removedText (trimLast bs) ++ gap ∧
      addedText bs = addedText (trimLast bs) ++ gap ∧ BlocksPlaced i j (trimLast bs) := by
  fun_induction trimLast bs generalizing i j with
  | case1 => exact ⟨[], rfl, rfl, trivial⟩
  | case2 b =>
    cases hc : b.changed with
    | true => exact ⟨[], by simp, by simp, by simpa using h⟩
    | false =>
      obtain ⟨gap, hold, hnew, -, hstart⟩ := beginning_of_isPlaced hc h.1 context
      exact ⟨gap, by simp [hold], by simp [hnew], by simpa using hstart⟩
  | case3 b c rest ih =>
    obtain ⟨hb, hrest⟩ := blocksPlaced_cons.mp h
    obtain ⟨gap, hold, hnew, hplaced⟩ := ih hrest
    refine ⟨gap, ?_, ?_, hb, hplaced⟩
    · rw [removedText_cons, hold, removedText_cons, List.append_assoc]
    · rw [addedText_cons, hnew, addedText_cons, List.append_assoc]

end Trim

/-- Hunks lead from the old lines to the new ones if these are the same in between. -/
inductive Leads : Nat → Nat → List String → List String → List Hunk → Prop
  | done {i j} (gap : List String) : Leads i j gap gap []
  | hunk {i j old new h rest} (gap : List String) (here : BlocksPlaced (i + gap.length) (j + gap.length) h)
      (after : Leads (i + gap.length + (removedText h).length) (j + gap.length + (addedText h).length)
        old new rest) :
      Leads i j (gap ++ (removedText h ++ old)) (gap ++ (addedText h ++ new)) (h :: rest)

namespace Leads

variable {i j : Nat} {old new : List String} {hs : List Hunk}

theorem front (gap : List String) (h : Leads (i + gap.length) (j + gap.length) old new hs) :
    Leads i j (gap ++ old) (gap ++ new) hs := by
  generalize hi : i + gap.length = i', hj : j + gap.length = j' at h
  cases h with
  | done => exact .done _
  | hunk rest here after =>
    subst hi hj
    rw [← List.append_assoc gap, ← List.append_assoc gap]
    refine .hunk (gap ++ rest) ?_ ?_ <;>
      rwa [List.length_append, ← Nat.add_assoc, ← Nat.add_assoc]

theorem back (gap : List String) (h : Leads i j old new hs) :
    Leads i j (old ++ gap) (new ++ gap) hs := by
  induction h with
  | done rest => exact .done (rest ++ gap)
  | hunk rest here _ ih => simpa using Leads.hunk rest here ih

end Leads

private theorem addedText_of_stays {i j : Nat} {bs : List Block} (h : BlocksPlaced i j bs)
    (hs : bs.any Block.changed = false) : addedText bs = removedText bs := by
  induction bs generalizing i j with
  | nil => rfl
  | cons b rest ih =>
    obtain ⟨hb, hrest⟩ := blocksPlaced_cons.mp h
    obtain ⟨hc, hs⟩ := Bool.or_eq_false_iff.mp hs
    rw [addedText_cons, removedText_cons, hb.stays hc, ih hrest hs]

theorem leads_group {i j : Nat} (pending bs : List Block) (h : BlocksPlaced i j (pending ++ bs)) :
    Leads i j (removedText (pending ++ bs)) (addedText (pending ++ bs)) (group pending bs) := by
  fun_induction group pending bs generalizing i j with
  | case1 pending hany =>
    rw [List.append_nil] at h ⊢
    have hdone := Leads.hunk [] h (.done [])
    simpa using hdone
  | case2 pending hany =>
    rw [List.append_nil] at h ⊢
    rw [addedText_of_stays h (by simpa using hany)]
    exact .done _
  | case3 pending b rest hcut ih =>
    obtain ⟨hpending, hbs⟩ := blocksPlaced_append.mp h
    obtain ⟨hb, hrest⟩ := blocksPlaced_cons.mp hbs
    obtain ⟨hc, hlong⟩ : b.changed = false ∧ 2 * context < b.removed.length := by simpa using hcut
    obtain ⟨gap, hold, hnew, hstart, hend⟩ := middle_of_isPlaced hc hb hlong
    have hadded : (b.beginning context).added = (b.beginning context).removed := hstart.stays hc
    have hhere : BlocksPlaced i j (pending ++ [b.beginning context]) :=
      blocksPlaced_append.mpr ⟨hpending, hstart, trivial⟩
    have hafter : BlocksPlaced (i + (removedText (pending ++ [b.beginning context])).length + gap.length)
        (j + (addedText (pending ++ [b.beginning context])).length + gap.length)
        ([b.ending context] ++ rest) := by
      rw [hold, hnew] at hrest
      simp only [List.length_append, ← Nat.add_assoc] at hend hrest
      simp only [removedText_append, addedText_append, removedText_cons, addedText_cons, hadded,
        removedText_nil, addedText_nil, List.append_nil, List.length_append, ← Nat.add_assoc]
      exact ⟨hend, hrest⟩
    have hleads := Leads.hunk [] hhere (.front gap (ih hafter))
    simpa [hold, hnew, hadded] using hleads
  | case4 pending b rest hcut ih =>
    rw [List.append_cons] at h ⊢
    exact ih h

section Tidy

variable {b : Block} {as bs : List Block}

private theorem isTidy_of_map_changed (h : as.map Block.changed = bs.map Block.changed)
    (hfull : ∀ a ∈ as, a.removed = [] → a.changed = true ∧ a.added ≠ []) (hbs : IsTidy bs) :
    IsTidy as := by
  refine ⟨hfull, ?_⟩
  have hapart := (List.isChain_map (R := fun a b => a = true → b = false) Block.changed).mpr hbs.apart
  rw [← h] at hapart
  exact (List.isChain_map Block.changed).mp hapart

private theorem removed_ending (h : b.removed ≠ []) : (b.ending context).removed ≠ [] := by
  rw [← List.length_pos_iff] at h ⊢
  simp only [Block.ending, context, List.length_drop]
  omega

private theorem removed_beginning (h : b.removed ≠ []) : (b.beginning context).removed ≠ [] := by
  rw [← List.length_pos_iff] at h ⊢
  simp only [Block.beginning, context, List.length_take]
  omega

theorem isTidy_trimFirst (h : IsTidy bs) : IsTidy (trimFirst bs) := by
  cases bs with
  | nil => exact h
  | cons b rest =>
    obtain ⟨hb, hrest⟩ := List.forall_mem_cons.mp h.full
    cases hc : b.changed with
    | true => simpa [trimFirst, hc] using h
    | false =>
      have hne : b.removed ≠ [] := fun he => by simpa [hc] using (hb he).1
      refine isTidy_of_map_changed (by simp [trimFirst, hc, Block.ending]) ?_ h
      simpa [trimFirst, hc, removed_ending hne] using hrest

private theorem map_changed_trimLast (bs : List Block) :
    (trimLast bs).map Block.changed = bs.map Block.changed := by
  fun_induction trimLast bs with
  | case1 => rfl
  | case2 b => cases hc : b.changed <;> simp [hc, Block.beginning]
  | case3 b c rest ih => rw [List.map_cons, ih, ← List.map_cons]

theorem isTidy_trimLast (h : IsTidy bs) : IsTidy (trimLast bs) := by
  refine isTidy_of_map_changed (map_changed_trimLast bs) ?_ h
  obtain ⟨hfull, -⟩ := h
  fun_induction trimLast bs with
  | case1 => exact hfull
  | case2 b =>
    cases hc : b.changed with
    | true => simpa [hc] using hfull
    | false =>
      have hne : b.removed ≠ [] := fun he => by simpa [hc] using (hfull b List.mem_cons_self he).1
      simp [removed_beginning hne]
  | case3 b c rest ih =>
    obtain ⟨hb, hrest⟩ := List.forall_mem_cons.mp hfull
    exact List.forall_mem_cons.mpr ⟨hb, ih hrest⟩

theorem isTidy_of_mem_group {pending : List Block} (h : IsTidy (pending ++ bs)) :
    ∀ hunk ∈ group pending bs, hunk ≠ [] ∧ IsTidy hunk := by
  fun_induction group pending bs with
  | case1 pending hany =>
    rw [List.append_nil] at h
    simpa using ⟨by rintro rfl; simp at hany, h⟩
  | case2 pending hany => simp
  | case3 pending b rest hcut ih =>
    obtain ⟨hc, hlong⟩ : b.changed = false ∧ 2 * context < b.removed.length := by simpa using hcut
    have hne : b.removed ≠ [] := List.ne_nil_of_length_pos (by omega)
    rw [List.append_cons] at h
    obtain ⟨hleft, -, -⟩ := isTidy_append_iff.mp h
    rw [← List.append_cons] at h
    obtain ⟨hpending, hright, -⟩ := isTidy_append_iff.mp h
    refine List.forall_mem_cons.mpr ⟨⟨by simp, ?_⟩, ih ?_⟩
    · refine isTidy_of_map_changed (by simp [Block.beginning]) ?_ hleft
      exact List.forall_mem_append.mpr ⟨hpending.full, by simp [removed_beginning hne]⟩
    · refine isTidy_of_map_changed (by simp [Block.ending]) ?_ hright
      simpa [removed_ending hne] using (List.forall_mem_cons.mp hright.full).2
  | case4 pending b rest hcut ih =>
    rw [List.append_cons] at h
    exact ih h

end Tidy

/-- The hunks lead from the one text to the other, and what they leave out stays. -/
theorem leads_hunks (old new : List String) : Leads 0 0 old new (hunks old new) := by
  have hscript := covers_script 0 0 old new
  have hkeeps := keeps_compact (script 0 0 old new)
  have hcompact : Covers 0 0 old new (compact (script 0 0 old new)) :=
    ⟨hkeeps.old.trans hscript.old, hkeeps.new.trans hscript.new, hkeeps.placed 0 0 hscript.placed⟩
  have hblocks := blocksCover_blocks hcompact
  obtain ⟨front, hold, hnew, hplaced⟩ := trimFirst_of_placed hblocks.placed
  obtain ⟨back, hold', hnew', hplaced'⟩ := trimLast_of_placed hplaced
  have h := ((leads_group [] _ hplaced').back back).front front
  rw [List.nil_append, ← hold', ← hold, ← hnew', ← hnew, hblocks.old, hblocks.new] at h
  exact h

theorem isTidy_of_mem_hunks {old new : List String} :
    ∀ h ∈ hunks old new, h ≠ [] ∧ IsTidy h := by
  have hfull := full_compact (full_script 0 0 old new)
  exact isTidy_of_mem_group (isTidy_trimLast (isTidy_trimFirst (isTidy_blocks hfull)))

end VpdHeaders.Diff
