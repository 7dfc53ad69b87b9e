import Mathlib.Data.List.Basic
import VpdHeaders.Diff.Script

/-! # Runs that lead from one text to another -/
namespace VpdHeaders.Diff

section Shared

variable {as bs : List String}

theorem sharedStart_le (as bs : List String) :
    sharedStart as bs ≤ as.length ∧ sharedStart as bs ≤ bs.length := by
  fun_induction sharedStart as bs with
  | case1 a as b ih => simpa using ih
  | case2 => simp
  | case3 => simp

theorem take_sharedStart (as bs : List String) :
    as.take (sharedStart as bs) = bs.take (sharedStart as bs) := by
  fun_induction sharedStart as bs with
  | case1 a as b ih => simpa using ih
  | case2 => simp
  | case3 => simp

theorem sharedEnd_le (as bs : List String) :
    sharedEnd as bs ≤ as.length ∧ sharedEnd as bs ≤ bs.length := by
  simpa [sharedEnd] using sharedStart_le as.reverse bs.reverse

theorem drop_sharedEnd (as bs : List String) :
    as.drop (as.length - sharedEnd as bs) = bs.drop (bs.length - sharedEnd as bs) := by
  have h := take_sharedStart as.reverse bs.reverse
  rw [List.take_reverse, List.take_reverse] at h
  exact List.reverse_injective h

end Shared

section Aligned

variable {α : Type} (old new : α → List String) (fits : Nat → Nat → α → Prop)

/-- Parts of two texts, one behind the other, each of which fits the places where it stands. -/
def Aligned (i j : Nat) : List α → Prop
  | [] => True
  | a :: rest => fits i j a ∧ Aligned (i + (old a).length) (j + (new a).length) rest

theorem aligned_append {i j : Nat} {xs ys : List α} :
    Aligned old new fits i j (xs ++ ys) ↔ Aligned old new fits i j xs ∧
      Aligned old new fits (i + (xs.flatMap old).length) (j + (xs.flatMap new).length) ys := by
  induction xs generalizing i j with
  | nil => simp [Aligned]
  | cons x xs ih => simp [Aligned, ih, and_assoc, Nat.add_assoc]

end Aligned

def oldText (runs : List Run) : List String := runs.flatMap Run.oldLines

def newText (runs : List Run) : List String := runs.flatMap Run.newLines

def Run.IsPlaced (i j : Nat) (r : Run) : Prop :=
  (r.kind ≠ .insert → r.oldAt = i) ∧ (r.kind ≠ .delete → r.newAt = j)

def Placed (i j : Nat) (runs : List Run) : Prop :=
  Aligned Run.oldLines Run.newLines Run.IsPlaced i j runs

section Texts

variable {xs ys : List Run} {r : Run} {i j : Nat}

@[simp] theorem oldText_nil : oldText [] = [] := rfl

@[simp] theorem newText_nil : newText [] = [] := rfl

@[simp] theorem oldText_cons : oldText (r :: xs) = r.oldLines ++ oldText xs := List.flatMap_cons

@[simp] theorem newText_cons : newText (r :: xs) = r.newLines ++ newText xs := List.flatMap_cons

@[simp] theorem oldText_append : oldText (xs ++ ys) = oldText xs ++ oldText ys := List.flatMap_append

@[simp] theorem newText_append : newText (xs ++ ys) = newText xs ++ newText ys := List.flatMap_append

@[simp] theorem placed_nil : Placed i j [] := trivial

@[simp] theorem placed_cons : Placed i j (r :: xs) ↔
    r.IsPlaced i j ∧ Placed (i + r.oldLines.length) (j + r.newLines.length) xs := Iff.rfl

@[simp] theorem placed_append : Placed i j (xs ++ ys) ↔
    Placed i j xs ∧ Placed (i + (oldText xs).length) (j + (newText xs).length) ys :=
  aligned_append ..

end Texts

section Kinds

variable {xs : List Run} {r : Run} {i j : Nat}

theorem Run.oldLines_of_ne (h : r.kind ≠ .insert) : r.oldLines = r.lines := if_neg h

theorem Run.oldLines_of_insert (h : r.kind = .insert) : r.oldLines = [] := if_pos h

theorem Run.newLines_of_ne (h : r.kind ≠ .delete) : r.newLines = r.lines := if_neg h

theorem Run.newLines_of_delete (h : r.kind = .delete) : r.newLines = [] := if_pos h

theorem placed_equal (h : r.kind = .equal) : Placed i j (r :: xs) ↔
    (r.oldAt = i ∧ r.newAt = j) ∧ Placed (i + r.lines.length) (j + r.lines.length) xs := by
  simp [Run.IsPlaced, Run.oldLines_of_ne, Run.newLines_of_ne, h]

theorem placed_delete (h : r.kind = .delete) : Placed i j (r :: xs) ↔
    r.oldAt = i ∧ Placed (i + r.lines.length) j xs := by
  simp [Run.IsPlaced, Run.oldLines_of_ne, Run.newLines_of_delete, h]

theorem placed_insert (h : r.kind = .insert) : Placed i j (r :: xs) ↔
    r.newAt = j ∧ Placed i (j + r.lines.length) xs := by
  simp [Run.IsPlaced, Run.oldLines_of_insert, Run.newLines_of_ne, h]

end Kinds

structure Covers (i j : Nat) (old new : List String) (runs : List Run) : Prop where
  old : oldText runs = old
  new : newText runs = new
  placed : Placed i j runs

namespace Covers

variable {i j : Nat} {old new old' new' lines : List String} {xs ys : List Run}

theorem append (h : Covers i j old new xs)
    (h' : Covers (i + old.length) (j + new.length) old' new' ys) :
    Covers i j (old ++ old') (new ++ new') (xs ++ ys) where
  old := by rw [oldText_append, h.old, h'.old]
  new := by rw [newText_append, h.new, h'.new]
  placed := by
    rw [placed_append, h.old, h.new]
    exact ⟨h.placed, h'.placed⟩

private theorem equal (i j : Nat) (lines : List String) :
    Covers i j lines lines (runOf .equal i j lines) := by
  cases lines with
  | nil => exact ⟨rfl, rfl, trivial⟩
  | cons l lines => constructor <;> simp [runOf, Run.oldLines, Run.newLines, Run.IsPlaced]

private theorem apart (i j : Nat) (old new : List String) :
    Covers i j old new (runOf .delete i j old ++ runOf .insert i j new) := by
  cases old <;> cases new <;>
    constructor <;> simp [runOf, Run.oldLines, Run.newLines, Run.IsPlaced]

private theorem behindSharedStart
    (h : Covers (i + sharedStart old new) (j + sharedStart old new) (old.drop (sharedStart old new))
      (new.drop (sharedStart old new)) xs) :
    Covers i j old new (runOf .equal i j (old.take (sharedStart old new)) ++ xs) := by
  have hstart : (old.take (sharedStart old new)).length = sharedStart old new :=
    List.length_take_of_le (sharedStart_le old new).1
  have hall := (equal i j (old.take (sharedStart old new))).append (by
    rw [hstart]
    exact h)
  rw [List.take_append_drop, take_sharedStart, List.take_append_drop] at hall
  rw [take_sharedStart]
  exact hall

private theorem beforeSharedEnd {oldCount newCount : Nat}
    (hold : oldCount = old.length - sharedEnd old new)
    (hnew : newCount = new.length - sharedEnd old new)
    (h : Covers i j (old.take oldCount) (new.take newCount) xs) :
    Covers i j old new (xs ++ runOf .equal (i + oldCount) (j + newCount) (old.drop oldCount)) := by
  have hdrop : new.drop newCount = old.drop oldCount := by
    rw [hold, hnew]
    exact (drop_sharedEnd old new).symm
  have hall := h.append (equal _ _ (old.drop oldCount))
  rw [List.length_take_of_le (hold ▸ Nat.sub_le ..), List.length_take_of_le (hnew ▸ Nat.sub_le ..)] at hall
  rwa [List.take_append_drop, ← hdrop, List.take_append_drop, hdrop] at hall

end Covers

/-- A script leads from the one text to the other. -/
theorem covers_script (i j : Nat) (old new : List String) :
    Covers i j old new (script i j old new) := by
  fun_induction script i j old new with
  | case1 i j old new start old₁ new₁ finish old₂ new₂ oldFrom newFrom apart between ih₁ ih₂ =>
    have hbetween : Covers oldFrom newFrom old₂ new₂ between := by
      have hapart : Covers oldFrom newFrom old₂ new₂ apart := .apart ..
      dsimp only [between]
      split
      · exact hapart
      · split
        · exact hapart
        · next x y _ =>
          split
          · next hxy =>
            have h := (ih₁ x y hxy).append (by
              rw [List.length_take_of_le hxy.2.1, List.length_take_of_le hxy.2.2.1]
              exact ih₂ x y hxy)
            rwa [List.take_append_drop, List.take_append_drop] at h
          · exact hapart
    have hold : old₂.length = old₁.length - finish := List.length_take_of_le (Nat.sub_le ..)
    have hnew : new₂.length = new₁.length - finish := List.length_take_of_le (Nat.sub_le ..)
    have htake : old₁.take old₂.length = old₂ := by rw [hold]
    have htake' : new₁.take new₂.length = new₂ := by rw [hnew]
    have hend : Covers oldFrom newFrom old₁ new₁ (between ++
        runOf .equal (oldFrom + old₂.length) (newFrom + new₂.length) (old₁.drop old₂.length)) :=
      .beforeSharedEnd hold hnew (by rwa [htake, htake'])
    rw [List.append_assoc]
    exact hend.behindSharedStart

end VpdHeaders.Diff
