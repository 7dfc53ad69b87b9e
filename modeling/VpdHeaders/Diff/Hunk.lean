import VpdHeaders.Diff.Compaction
import VpdHeaders.Diff.Script

/-! # Hunks: changes with the lines around them -/
namespace VpdHeaders.Diff

/-- Lines that stay, or a change: what goes and what comes in its place. -/
structure Block where
  changed : Bool
  oldAt : Nat
  newAt : Nat
  removed : List String
  added : List String
  deriving DecidableEq, Repr

abbrev Hunk := List Block

/-- The deletions and insertions met since the last line that stays. -/
structure Pending where
  deleted : Option Run
  inserted : Option Run

namespace Pending

def nothing : Pending := ⟨none, none⟩

def extend (first : Option Run) (r : Run) : Option Run :=
  match first with
  | some f => some { f with lines := f.lines ++ r.lines }
  | none => some r

/-- A change starts where its deletion starts in the old text and its insertion in the new one. -/
def block (p : Pending) : List Block :=
  match p.deleted, p.inserted with
  | some d, some i => [⟨true, d.oldAt, i.newAt, d.lines, i.lines⟩]
  | some d, none => [⟨true, d.oldAt, d.newAt, d.lines, []⟩]
  | none, some i => [⟨true, i.oldAt, i.newAt, [], i.lines⟩]
  | none, none => []

end Pending

/-- Puts neighbouring runs together: equal ones to one block, all others to one change. -/
def blocksFrom (stay : Option Block) (p : Pending) : List Run → List Block
  | [] => stay.toList ++ p.block
  | r :: rest =>
    match r.kind with
    | .equal =>
      let next : Block := match stay with
        | some b => { b with removed := b.removed ++ r.lines, added := b.added ++ r.lines }
        | none => ⟨false, r.oldAt, r.newAt, r.lines, r.lines⟩
      p.block ++ blocksFrom (some next) .nothing rest
    | .delete =>
      stay.toList ++ blocksFrom none { p with deleted := Pending.extend p.deleted r } rest
    | .insert =>
      stay.toList ++ blocksFrom none { p with inserted := Pending.extend p.inserted r } rest

def blocks (runs : List Run) : List Block := blocksFrom none .nothing runs

def context : Nat := 3

namespace Block

def ending (n : Nat) (b : Block) : Block :=
  let drop := b.removed.length - n
  { b with
    oldAt := b.oldAt + drop
    newAt := b.newAt + drop
    removed := b.removed.drop drop
    added := b.added.drop drop }

def beginning (n : Nat) (b : Block) : Block :=
  { b with removed := b.removed.take n, added := b.added.take n }

end Block

def trimFirst : List Block → List Block
  | b :: rest => (if b.changed then b else b.ending context) :: rest
  | [] => []

def trimLast : List Block → List Block
  | [] => []
  | [b] => [if b.changed then b else b.beginning context]
  | b :: c :: rest => b :: trimLast (c :: rest)

/-- Cuts the blocks at those that stay and have more lines than two contexts. -/
def group (pending : List Block) : List Block → List Hunk
  | [] => if pending.any Block.changed then [pending] else []
  | b :: rest =>
    if !b.changed && 2 * context < b.removed.length then
      (pending ++ [b.beginning context]) :: group [b.ending context] rest
    else group (pending ++ [b]) rest

def hunks (old new : List String) : List Hunk :=
  group [] (trimLast (trimFirst (blocks (compact (script 0 0 old new)))))

end VpdHeaders.Diff
