import VpdHeaders.Diff.Compaction
import VpdHeaders.Proofs.Diff.Covers

/-! # Moving runs keeps both texts

A run that moves keeps track of its place in the text that it has lines in. Of its place in the other
text it does not. -/
namespace VpdHeaders.Diff

/-- Other runs for the same texts, which know their places if the first ones did. -/
structure Keeps (xs ys : List Run) : Prop where
  old : oldText ys = oldText xs
  new : newText ys = newText xs
  placed : ∀ i j, Placed i j xs → Placed i j ys

namespace Keeps

variable {xs ys zs : List Run}

theorem refl (xs : List Run) : Keeps xs xs := ⟨rfl, rfl, fun _ _ h => h⟩

theorem trans (h : Keeps xs ys) (h' : Keeps ys zs) : Keeps xs zs where
  old := h'.old.trans h.old
  new := h'.new.trans h.new
  placed i j hx := h'.placed i j (h.placed i j hx)

/-- The same between other runs. -/
theorem within (h : Keeps xs ys) (before after : List Run) :
    Keeps (before ++ xs ++ after) (before ++ ys ++ after) where
  old := by simp [h.old]
  new := by simp [h.new]
  placed i j hx := by
    simp only [placed_append, oldText_append, newText_append, h.old, h.new] at hx ⊢
    exact ⟨⟨hx.1.1, h.placed _ _ hx.1.2⟩, hx.2⟩

theorem after (h : Keeps xs ys) (before : List Run) : Keeps (before ++ xs) (before ++ ys) := by
  simpa using h.within before []

theorem cons (h : Keeps xs ys) (r : Run) : Keeps (r :: xs) (r :: ys) := h.after [r]

end Keeps

section Steps

variable {r s : Run}

theorem keeps_merge (h : r.kind ≠ .equal) (hs : s.kind = r.kind) :
    Keeps [r, s] [{ r with lines := r.lines ++ s.lines }] := by
  obtain ⟨kind, p, q, lines⟩ := r
  obtain ⟨kind', p', q', lines'⟩ := s
  obtain rfl : kind' = kind := hs
  cases kind' <;> constructor <;>
    simp_all [Run.oldLines, Run.newLines, Run.IsPlaced]

theorem keeps_swap (hr : r.kind ≠ .equal) (hs : s.kind ≠ .equal) (h : r.kind ≠ s.kind) :
    Keeps [r, s] [s, r] := by
  obtain ⟨kind, p, q, lines⟩ := r
  obtain ⟨kind', p', q', lines'⟩ := s
  cases kind <;> cases kind' <;>
    first | contradiction | constructor <;> simp +contextual [Run.oldLines, Run.newLines, Run.IsPlaced]

theorem keeps_empty (i j : Nat) (rest : List Run) : Keeps (⟨.equal, i, j, []⟩ :: rest) rest := by
  constructor <;> simp [Run.oldLines, Run.newLines]

end Steps

namespace Focus

def runs (f : Focus) : List Run := f.before.reverse ++ f.run :: f.after

theorem keeps_giveAfter (i j : Nat) (lines : List String) (after : List Run) :
    Keeps (⟨.equal, i, j, lines⟩ :: after) (giveAfter i j lines after) := by
  cases after with
  | nil => exact .refl _
  | cons next rest =>
    rw [giveAfter]
    split
    · next hnext =>
      refine ⟨by simp [Run.oldLines, hnext], by simp [Run.newLines, hnext], fun i' j' h => ?_⟩
      simp only [placed_equal, hnext, List.length_append] at h ⊢
      obtain ⟨⟨rfl, rfl⟩, ⟨hi, hj⟩, hrest⟩ := h
      rw [hi, hj, Nat.add_sub_cancel, Nat.add_sub_cancel, ← Nat.add_assoc, ← Nat.add_assoc]
      exact ⟨⟨rfl, rfl⟩, hrest⟩
    · exact .refl _

theorem keeps_giveBefore (i j : Nat) (lines : List String) (before : List Run) :
    Keeps (before.reverse ++ [⟨.equal, i, j, lines⟩]) (giveBefore i j lines before).reverse := by
  cases before with
  | nil => exact .refl _
  | cons prev rest =>
    rw [giveBefore]
    split
    · next hprev =>
      have hmerge : Keeps [prev, ⟨.equal, i, j, lines⟩]
          [{ prev with lines := prev.lines ++ lines }] := by
        refine ⟨by simp [Run.oldLines, hprev], by simp [Run.newLines, hprev], fun i' j' h => ?_⟩
        simpa [Run.IsPlaced, hprev] using h.1
      simpa using hmerge.after rest.reverse
    · simpa using Keeps.refl _

private theorem keeps_slideUp {prev run : Run} {n : Nat} (hprev : prev.kind = .equal)
    (hrun : run.kind = .insert) (hn : n ≤ prev.lines.length) (hn' : n ≤ run.lines.length)
    (hlines : prev.lines.drop (prev.lines.length - n) = run.lines.drop (run.lines.length - n)) :
    let keep := prev.lines.length - n
    let stay := run.lines.length - n
    Keeps [prev, run]
      [{ prev with lines := prev.lines.take keep },
       { run with
          oldAt := run.oldAt - n
          newAt := run.newAt - n
          lines := prev.lines.drop keep ++ run.lines.take stay },
       ⟨.equal, prev.oldAt + keep, run.newAt + stay, prev.lines.drop keep⟩] := by
  -- the insertion moves over lines that it ends with itself, so both texts stay the same
  dsimp only
  refine ⟨by simp [Run.oldLines, hprev, hrun], ?_, fun i j h => ?_⟩
  · simp only [newText_cons, newText_nil, Run.newLines, hprev, hrun, reduceCtorEq, if_false,
      List.append_nil]
    rw [List.append_assoc, ← List.append_assoc (prev.lines.take _), List.take_append_drop, hlines,
      List.take_append_drop]
  · simp only [placed_equal, placed_insert, placed_nil, hprev, hrun, and_true, List.length_append,
      List.length_take, List.length_drop] at h ⊢
    omega

private theorem keeps_slideDown {run next : Run} {n : Nat} (hrun : run.kind = .insert)
    (hnext : next.kind = .equal) (hn : n ≤ next.lines.length) (hn' : n ≤ run.lines.length)
    (hlines : next.lines.take n = run.lines.take n) :
    Keeps [run, next]
      [⟨.equal, next.oldAt, run.newAt, next.lines.take n⟩,
       { run with
          oldAt := run.oldAt + n
          newAt := run.newAt + n
          lines := run.lines.drop n ++ next.lines.take n },
       { next with
          oldAt := next.oldAt + n
          newAt := next.newAt + n
          lines := next.lines.drop n }] := by
  refine ⟨by simp [Run.oldLines, hnext, hrun], ?_, fun i j h => ?_⟩
  · simp only [newText_cons, newText_nil, Run.newLines, hnext, hrun, reduceCtorEq, if_false,
      List.append_nil]
    rw [← List.append_assoc, ← List.append_assoc, hlines, List.take_append_drop, List.append_assoc,
      ← hlines, List.take_append_drop]
  · simp only [placed_equal, placed_insert, placed_nil, hnext, hrun, and_true, List.length_append,
      List.length_take, List.length_drop] at h ⊢
    omega

private theorem kind_eq_insert {run : Run} (h : run.kind ≠ .equal)
    (hlines : 0 < run.newLines.length) : run.kind = .insert ∧ run.newLines = run.lines := by
  cases hk : run.kind with
  | insert => simp [Run.newLines, hk]
  | equal => exact absurd hk h
  | delete => simp [Run.newLines, hk] at hlines

private theorem keeps_stepUp {prev run : Run} (before after : List Run) (hprev : prev.kind = .equal)
    (hrun : run.kind ≠ .equal) (hn : sharedEnd prev.lines run.newLines ≠ 0) :
    let n := sharedEnd prev.lines run.newLines
    let keep := prev.lines.length - n
    let stay := run.lines.length - n
    Keeps ((prev :: before).reverse ++ run :: after)
      (({ prev with lines := prev.lines.take keep } :: before).reverse ++
        { run with
          oldAt := run.oldAt - n
          newAt := run.newAt - n
          lines := prev.lines.drop keep ++ run.lines.take stay } ::
        giveAfter (prev.oldAt + keep) (run.newAt + stay) (prev.lines.drop keep) after) := by
  obtain ⟨hle, hle'⟩ := sharedEnd_le prev.lines run.newLines
  have hlines := drop_sharedEnd prev.lines run.newLines
  obtain ⟨hinsert, hnew⟩ := kind_eq_insert hrun (Nat.lt_of_lt_of_le (Nat.pos_of_ne_zero hn) hle')
  rw [hnew] at hle hle' hlines ⊢
  have hslide := (keeps_slideUp hprev hinsert hle hle' hlines).within before.reverse after
  simp only [List.reverse_cons, List.append_assoc, List.cons_append, List.nil_append] at hslide ⊢
  exact hslide.trans (.after (.cons (.cons (keeps_giveAfter ..) _) _) _)

/-- Moving up keeps both texts. -/
theorem keeps_up (before after : List Run) {run : Run} (hrun : run.kind ≠ .equal) :
    (up before run after).run.kind = run.kind ∧
      Keeps (before.reverse ++ run :: after) (up before run after).runs := by
  fun_induction up before run after with
  | case1 run after => exact ⟨rfl, .refl _⟩
  | case2 prev before run after hprev n hn => exact ⟨rfl, .refl _⟩
  | case3 prev before run after hprev n keep stay lines after' moved hn hkeep ih =>
    obtain ⟨hkind, hmoved⟩ := ih hrun
    have hstep : Keeps _ (({ prev with lines := prev.lines.take keep } :: before).reverse ++
      moved :: after') := keeps_stepUp before after hprev hrun hn
    have hnothing : { prev with lines := prev.lines.take keep } =
        (⟨.equal, prev.oldAt, prev.newAt, []⟩ : Run) := by simp [hkeep, hprev]
    have hempty := (keeps_empty prev.oldAt prev.newAt (moved :: after')).after before.reverse
    simp only [hnothing, List.reverse_cons, List.append_assoc, List.singleton_append] at hstep ⊢
    exact ⟨hkind, (hstep.trans hempty).trans hmoved⟩
  | case4 prev before run after hprev n keep stay lines after' moved hn hkeep ih =>
    obtain ⟨hkind, hmoved⟩ := ih hrun
    exact ⟨hkind, (keeps_stepUp before after hprev hrun hn).trans hmoved⟩
  | case5 prev before run after hprev hkind ih =>
    obtain ⟨hkind', hmoved⟩ := ih hprev
    have hmerge := (keeps_merge hprev hkind.symm).within before.reverse after
    refine ⟨hkind'.trans hkind, .trans ?_ hmoved⟩
    simpa using hmerge
  | case6 prev before run after hprev hkind ih =>
    obtain ⟨hkind', hmoved⟩ := ih hrun
    have hswap := (keeps_swap hprev hrun hkind).within before.reverse after
    refine ⟨hkind', .trans ?_ hmoved⟩
    simpa using hswap

private theorem keeps_stepDown {run next : Run} (before after : List Run) (hnext : next.kind = .equal)
    (hrun : run.kind ≠ .equal) (hn : sharedStart next.lines run.newLines ≠ 0) :
    let n := sharedStart next.lines run.newLines
    Keeps (before.reverse ++ run :: next :: after)
      ((giveBefore next.oldAt run.newAt (next.lines.take n) before).reverse ++
        { run with
          oldAt := run.oldAt + n
          newAt := run.newAt + n
          lines := run.lines.drop n ++ next.lines.take n } ::
        { next with
          oldAt := next.oldAt + n
          newAt := next.newAt + n
          lines := next.lines.drop n } :: after) := by
  obtain ⟨hle, hle'⟩ := sharedStart_le next.lines run.newLines
  have hlines := take_sharedStart next.lines run.newLines
  obtain ⟨hinsert, hnew⟩ := kind_eq_insert hrun (Nat.lt_of_lt_of_le (Nat.pos_of_ne_zero hn) hle')
  rw [hnew] at hle hle' hlines ⊢
  have hslide := (keeps_slideDown hinsert hnext hle hle' hlines).within before.reverse after
  have hgive := (keeps_giveBefore next.oldAt run.newAt
    (next.lines.take (sharedStart next.lines run.lines)) before).within []
  simp only [List.append_assoc, List.cons_append, List.nil_append] at hslide hgive ⊢
  exact hslide.trans (hgive _)

/-- Moving down keeps both texts. -/
theorem keeps_down (before after : List Run) {run : Run} (hrun : run.kind ≠ .equal) :
    (down before run after).run.kind = run.kind ∧
      Keeps (before.reverse ++ run :: after) (down before run after).runs := by
  fun_induction down before run after with
  | case1 before run => exact ⟨rfl, .refl _⟩
  | case2 before run next after hnext n hn => exact ⟨rfl, .refl _⟩
  | case3 before run next after hnext n lines before' moved hn hall ih =>
    obtain ⟨hkind, hmoved⟩ := ih hrun
    have hstep := keeps_stepDown before after hnext hrun hn
    have hempty := ((keeps_empty (next.oldAt + n) (next.newAt + n) after).cons moved).after
      before'.reverse
    refine ⟨hkind, .trans (.trans hstep ?_) hmoved⟩
    simpa [n, List.drop_eq_nil_of_le hall, hnext] using hempty
  | case4 before run next after hnext n lines before' moved hn hall ih =>
    obtain ⟨hkind, hmoved⟩ := ih hrun
    exact ⟨hkind, (keeps_stepDown before after hnext hrun hn).trans hmoved⟩
  | case5 before run next after hnext hkind ih =>
    obtain ⟨hkind', hmoved⟩ := ih hrun
    refine ⟨hkind', .trans ?_ hmoved⟩
    simpa using (keeps_merge hrun hkind).within before.reverse after
  | case6 before run next after hnext hkind ih =>
    obtain ⟨hkind', hmoved⟩ := ih hrun
    refine ⟨hkind', .trans ?_ hmoved⟩
    simpa using (keeps_swap hrun hnext (Ne.symm hkind)).within before.reverse after

end Focus

theorem keeps_settle {kind : Kind} (hkind : kind ≠ .equal) (fuel : Nat) (before after : List Run) :
    Keeps (before.reverse ++ after) (settle kind fuel before after) := by
  induction fuel generalizing before after with
  | zero => exact .refl _
  | succ fuel ih =>
    cases after with
    | nil => simpa [settle] using Keeps.refl _
    | cons r rest =>
      rw [settle]
      split
      · next hr =>
        obtain ⟨hup, hkeepsUp⟩ := Focus.keeps_up before rest (hr ▸ hkind : r.kind ≠ .equal)
        let f := Focus.up before r rest
        obtain ⟨-, hkeepsDown⟩ := Focus.keeps_down f.before f.after (hup ▸ hr ▸ hkind)
        let g := Focus.down f.before f.run f.after
        have hrest := ih (g.run :: g.before) g.after
        rw [List.reverse_cons, List.append_assoc] at hrest
        exact (hkeepsUp.trans hkeepsDown).trans hrest
      · simpa using ih (r :: before) rest

/-- Compaction keeps both texts, and every run its place in the texts that it has lines in. -/
theorem keeps_compact (runs : List Run) : Keeps runs (compact runs) :=
  (keeps_settle (by decide) _ [] runs).trans (keeps_settle (by decide) _ [] _)

section Full

def Full (runs : List Run) : Prop := ∀ r ∈ runs, r.lines ≠ []

variable {before after : List Run} {run : Run} {lines : List String} {i j : Nat}

@[simp] theorem full_cons {r : Run} {rest : List Run} :
    Full (r :: rest) ↔ r.lines ≠ [] ∧ Full rest := List.forall_mem_cons

@[simp] theorem full_append {xs ys : List Run} : Full (xs ++ ys) ↔ Full xs ∧ Full ys :=
  List.forall_mem_append

@[simp] theorem full_reverse {xs : List Run} : Full xs.reverse ↔ Full xs := by simp [Full]

namespace Focus

private theorem full_giveAfter (h : Full after) (hlines : lines ≠ []) :
    Full (giveAfter i j lines after) := by
  cases after with
  | nil => simpa [giveAfter, hlines] using h
  | cons next rest =>
    rw [giveAfter]
    split <;> simp_all

private theorem full_giveBefore (h : Full before) (hlines : lines ≠ []) :
    Full (giveBefore i j lines before) := by
  cases before with
  | nil => simpa [giveBefore, hlines] using h
  | cons prev rest =>
    rw [giveBefore]
    split <;> simp_all

theorem full_up (hbefore : Full before) (hrun : run.lines ≠ []) (hafter : Full after) :
    Full (up before run after).runs := by
  fun_induction up before run after with
  | case1 run after => simp_all [runs]
  | case2 prev before run after hprev n hn => simp_all [runs]
  | case3 prev before run after hprev n keep stay lines after' moved hn hkeep ih =>
    have hlines : lines ≠ [] := by
      simpa [lines, hkeep] using (full_cons.mp hbefore).1
    exact ih (full_cons.mp hbefore).2 (by simp [moved, hlines]) (full_giveAfter hafter hlines)
  | case4 prev before run after hprev n keep stay lines after' moved hn hkeep ih =>
    have hle := (sharedEnd_le prev.lines run.newLines).1
    have hlines : lines ≠ [] := by
      rw [← List.length_pos_iff, List.length_drop]
      omega
    have htake : prev.lines.take keep ≠ [] := by
      rw [← List.length_pos_iff, List.length_take]
      omega
    exact ih (full_cons.mpr ⟨htake, (full_cons.mp hbefore).2⟩) (by simp [moved, hlines])
      (full_giveAfter hafter hlines)
  | case5 prev before run after hprev hkind ih => simp_all
  | case6 prev before run after hprev hkind ih => simp_all

theorem full_down (hbefore : Full before) (hrun : run.lines ≠ []) (hafter : Full after) :
    Full (down before run after).runs := by
  fun_induction down before run after with
  | case1 before run => simp_all [runs]
  | case2 before run next after hnext n hn => simp_all [runs]
  | case3 before run next after hnext n lines before' moved hn hall ih =>
    have hlines : lines ≠ [] := by
      simpa [lines, hn] using (full_cons.mp hafter).1
    exact ih (full_giveBefore hbefore hlines) (by simp [moved, hlines]) (full_cons.mp hafter).2
  | case4 before run next after hnext n lines before' moved hn hall ih =>
    have hlines : lines ≠ [] := by
      simpa [lines, hn] using (full_cons.mp hafter).1
    have hdrop : next.lines.drop n ≠ [] := by
      rw [← List.length_pos_iff, List.length_drop]
      omega
    exact ih (full_giveBefore hbefore hlines) (by simp [moved, hlines])
      (full_cons.mpr ⟨hdrop, (full_cons.mp hafter).2⟩)
  | case5 before run next after hnext hkind ih => simp_all
  | case6 before run next after hnext hkind ih => simp_all

end Focus

theorem full_settle {kind : Kind} (fuel : Nat) (hbefore : Full before) (hafter : Full after) :
    Full (settle kind fuel before after) := by
  induction fuel generalizing before after with
  | zero => simpa [settle] using ⟨hbefore, hafter⟩
  | succ fuel ih =>
    cases after with
    | nil => simpa [settle] using hbefore
    | cons r rest =>
      obtain ⟨hr, hrest⟩ := full_cons.mp hafter
      rw [settle]
      split
      · obtain ⟨hup, hafter⟩ := full_append.mp (Focus.full_up hbefore hr hrest)
        obtain ⟨hrun, hafter⟩ := full_cons.mp hafter
        obtain ⟨hdown, hafter⟩ := full_append.mp (Focus.full_down (full_reverse.mp hup) hrun hafter)
        obtain ⟨hrun, hafter⟩ := full_cons.mp hafter
        exact ih (full_cons.mpr ⟨hrun, full_reverse.mp hdown⟩) hafter
      · exact ih (full_cons.mpr ⟨hr, hbefore⟩) hrest

theorem full_compact {runs : List Run} (h : Full runs) : Full (compact runs) :=
  full_settle _ (by simp [Full]) (full_settle _ (by simp [Full]) h)

private theorem full_runOf (kind : Kind) (i j : Nat) (lines : List String) :
    Full (runOf kind i j lines) := by
  cases lines <;> simp [runOf, Full]

theorem full_script (i j : Nat) (old new : List String) : Full (script i j old new) := by
  fun_induction script i j old new with
  | case1 i j old new start old₁ new₁ finish old₂ new₂ oldFrom newFrom apart between ih₁ ih₂ =>
    have hbetween : Full between := by
      have hapart : Full apart := full_append.mpr
        ⟨full_runOf _ _ _ _, full_runOf _ _ _ _⟩
      dsimp only [between]
      split
      · exact hapart
      · split
        · exact hapart
        · next x y _ =>
          split
          · next hxy => exact full_append.mpr ⟨ih₁ x y hxy, ih₂ x y hxy⟩
          · exact hapart
    exact full_append.mpr ⟨full_append.mpr ⟨full_runOf _ _ _ _, hbetween⟩, full_runOf _ _ _ _⟩

end Full

end VpdHeaders.Diff
