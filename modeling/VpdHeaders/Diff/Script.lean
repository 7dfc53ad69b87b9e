import VpdHeaders.Diff.Run
import VpdHeaders.Diff.Snake

/-! # Edit scripts: runs that turn one text into another -/
namespace VpdHeaders.Diff

def runOf (kind : Kind) (oldAt newAt : Nat) (lines : List String) : List Run :=
  if lines.isEmpty then [] else [⟨kind, oldAt, newAt, lines⟩]

private theorem length_part_le (lines : List String) (start count : Nat) :
    ((lines.drop start).take count).length ≤ lines.length := by
  rw [List.length_take, List.length_drop]
  omega

/-- The shared lines in front and at the end are set aside; what is left is cut in two at a point on
a shortest edit path, until one side is empty. -/
def script (oldAt newAt : Nat) (old new : List String) : List Run :=
  let start := sharedStart old new
  let old₁ := old.drop start
  let new₁ := new.drop start
  let finish := sharedEnd old₁ new₁
  let old₂ := old₁.take (old₁.length - finish)
  let new₂ := new₁.take (new₁.length - finish)
  let oldFrom := oldAt + start
  let newFrom := newAt + start
  let apart := runOf .delete oldFrom newFrom old₂ ++ runOf .insert oldFrom newFrom new₂
  let between :=
    if old₂.isEmpty || new₂.isEmpty then apart
    else match Snake.middle old₂.toArray new₂.toArray with
      | none => apart
      | some (x, y) =>
        if _ : 0 < x + y ∧ x ≤ old₂.length ∧ y ≤ new₂.length ∧
            x + y < old₂.length + new₂.length then
          script oldFrom newFrom (old₂.take x) (new₂.take y) ++
            script (oldFrom + x) (newFrom + y) (old₂.drop x) (new₂.drop y)
        else apart
  runOf .equal oldAt newAt (old.take start) ++ between ++
    runOf .equal (oldFrom + old₂.length) (newFrom + new₂.length) (old₁.drop old₂.length)
termination_by old.length + new.length
decreasing_by
  all_goals
    rename_i hcut
    obtain ⟨hpos, hx, hy, hlt⟩ := hcut
    have hold : old₂.length ≤ old.length := length_part_le old _ _
    have hnew : new₂.length ≤ new.length := length_part_le new _ _
  · rw [List.length_take_of_le hx, List.length_take_of_le hy]
    exact Nat.lt_of_lt_of_le hlt (Nat.add_le_add hold hnew)
  · change (old₂.drop x).length + (new₂.drop y).length < old.length + new.length
    rw [List.length_drop, List.length_drop]
    clear_value old₂ new₂
    omega

end VpdHeaders.Diff
