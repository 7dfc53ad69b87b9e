import VpdHeaders.Diff.Run

/-! # Moving runs up and down so that those of one kind come together -/
namespace VpdHeaders.Diff

/-- A run inside a script, with the runs before it, nearest first, and those after it. -/
structure Focus where
  before : List Run
  run : Run
  after : List Run

/-- All lines of some runs, counting one more for every run. -/
def weight (runs : List Run) : Nat :=
  runs.foldr (fun r n => r.lines.length + 1 + n) 0

namespace Focus

/-- Lines that the run gives up at its end go to the equal run after it, or to a new one. -/
def giveAfter (oldAt newAt : Nat) (lines : List String) : List Run → List Run
  | [] => [⟨.equal, oldAt, newAt, lines⟩]
  | next :: rest =>
    if next.kind = .equal then
      { next with
        oldAt := next.oldAt - lines.length
        newAt := next.newAt - lines.length
        lines := lines ++ next.lines } :: rest
    else ⟨.equal, oldAt, newAt, lines⟩ :: next :: rest

/-- Lines that the run gives up in front go to the equal run before it, or to a new one. -/
def giveBefore (oldAt newAt : Nat) (lines : List String) : List Run → List Run
  | [] => [⟨.equal, oldAt, newAt, lines⟩]
  | prev :: rest =>
    if prev.kind = .equal then { prev with lines := prev.lines ++ lines } :: rest
    else ⟨.equal, oldAt, newAt, lines⟩ :: prev :: rest

/-- Moves a run up as far as it goes: over lines of the equal run before it that end like the run,
past a run of the other kind, and into one of its own kind. -/
def up : List Run → Run → List Run → Focus
  | [], run, after => ⟨[], run, after⟩
  | prev :: before, run, after =>
    if prev.kind = .equal then
      let n := sharedEnd prev.lines run.newLines
      let keep := prev.lines.length - n
      let stay := run.lines.length - n
      let lines := prev.lines.drop keep
      let after' := giveAfter (prev.oldAt + keep) (run.newAt + stay) lines after
      let moved : Run :=
        { run with
          oldAt := run.oldAt - n
          newAt := run.newAt - n
          lines := lines ++ run.lines.take stay }
      if _ : n = 0 then ⟨prev :: before, run, after⟩
      else if _ : keep = 0 then up before moved after'
      else up ({ prev with lines := prev.lines.take keep } :: before) moved after'
    else if prev.kind = run.kind then
      up before { prev with lines := prev.lines ++ run.lines } after
    else up before run (prev :: after)
termination_by before => weight before
decreasing_by
  all_goals simp only [weight, List.foldr_cons, List.length_take]
  · omega
  · have : keep = prev.lines.length - n := rfl
    omega
  · omega
  · omega

/-- Moves a run down as far as it goes. -/
def down (before : List Run) (run : Run) : List Run → Focus
  | [] => ⟨before, run, []⟩
  | next :: after =>
    if next.kind = .equal then
      let n := sharedStart next.lines run.newLines
      let lines := next.lines.take n
      let before' := giveBefore next.oldAt run.newAt lines before
      let moved : Run :=
        { run with
          oldAt := run.oldAt + n
          newAt := run.newAt + n
          lines := run.lines.drop n ++ lines }
      if _ : n = 0 then ⟨before, run, next :: after⟩
      else if _ : next.lines.length ≤ n then down before' moved after
      else
        down before' moved ({ next with
          oldAt := next.oldAt + n
          newAt := next.newAt + n
          lines := next.lines.drop n } :: after)
    else if next.kind = run.kind then
      down before { run with lines := run.lines ++ next.lines } after
    else down (next :: before) run after
termination_by after => weight after
decreasing_by
  all_goals
    simp only [weight, List.foldr_cons, List.length_drop]
    omega

end Focus

/-- Moves every run of one kind up and then down. A run ends up no higher than it was, so every
round passes a line at least and the rounds are fewer than the lines. -/
def settle (kind : Kind) : Nat → List Run → List Run → List Run
  | 0, before, after => before.reverse ++ after
  | _, before, [] => before.reverse
  | fuel + 1, before, r :: rest =>
    if r.kind = kind then
      let f := Focus.up before r rest
      let f := Focus.down f.before f.run f.after
      settle kind fuel (f.run :: f.before) f.after
    else settle kind fuel (r :: before) rest

/-- Deletions settle first, then insertions. -/
def compact (runs : List Run) : List Run :=
  let deleted := settle .delete (weight runs + 1) [] runs
  settle .insert (weight deleted + 1) [] deleted

end VpdHeaders.Diff
