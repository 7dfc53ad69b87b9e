/-! # A point on a shortest edit path, found from both ends -/
namespace VpdHeaders.Diff.Snake

/-- How far the search has come on each diagonal. -/
structure Frontier where
  offset : Nat
  reach : Array Nat

namespace Frontier

def start (rounds : Nat) : Frontier := ⟨rounds + 1, Array.replicate (2 * rounds + 3) 0⟩

def get (f : Frontier) (k : Int) : Nat := f.reach.getD (k + f.offset).toNat 0

def set (f : Frontier) (k : Int) (x : Nat) : Frontier :=
  { f with reach := f.reach.setIfInBounds (k + f.offset).toNat x }

/-- The best start on diagonal `k` in round `d`: one step on from a neighbour, along the old text
from below, or along the new text from above where that has come further. -/
def step (f : Frontier) (d k : Int) : Nat :=
  if k = -d || (k != d && f.get (k - 1) < f.get (k + 1)) then f.get (k + 1)
  else f.get (k - 1) + 1

end Frontier

/-- The two texts as one of the searches sees them: from the start, or backwards from the end. -/
structure Sides where
  old : Array String
  new : Array String

namespace Sides

def reversed (s : Sides) : Sides := ⟨s.old.reverse, s.new.reverse⟩

/-- How many lines agree from `x` and `y` on, at most `fuel`. -/
def agree (s : Sides) : (fuel x y : Nat) → Nat
  | 0, _, _ => 0
  | fuel + 1, x, y =>
    match s.old[x]?, s.new[y]? with
    | some a, some b => if a = b then s.agree fuel (x + 1) (y + 1) + 1 else 0
    | _, _ => 0

/-- By how much the old text is longer. -/
def delta (s : Sides) : Int := (s.old.size : Int) - s.new.size

end Sides

def diagonals (d : Nat) : List Int :=
  (List.range (d + 1)).map fun i : Nat => (d : Int) - 2 * (i : Int)

/-- A point where both searches meet, or how far this one has come. -/
abbrev Progress := Except (Nat × Nat) Frontier

/-- One round from the start. The searches can meet here if the lengths differ by an odd number. -/
def forward (s : Sides) (d : Nat) (back : Frontier) : List Int → Frontier → Progress
  | [], f => .ok f
  | k :: ks, f =>
    let x := f.step d k
    let y := ((x : Int) - k).toNat
    let far := x + s.agree s.old.size x y
    if s.delta % 2 ≠ 0 && (k - s.delta).natAbs + 1 ≤ d &&
        s.old.size ≤ far + back.get (s.delta - k) then
      .error (x, y)
    else forward s d back ks (f.set k far)

/-- One round from the end, on the reversed texts. The searches can meet here if the lengths differ
by an even number. -/
def backward (s : Sides) (d : Nat) (front : Frontier) : List Int → Frontier → Progress
  | [], f => .ok f
  | k :: ks, f =>
    let x := f.step d k
    let y := ((x : Int) - k).toNat
    let n := s.agree s.old.size x y
    if s.delta % 2 = 0 && (k - s.delta).natAbs ≤ d &&
        s.old.size ≤ x + n + front.get (s.delta - k) then
      .error (s.old.size - (x + n), s.new.size - (y + n))
    else backward s d front ks (f.set k (x + n))

/-- Rounds `d`, `d + 1`, …, as many as `left`, until the searches meet. -/
def search (s back : Sides) : (left d : Nat) → Frontier → Frontier → Option (Nat × Nat)
  | 0, _, _, _ => none
  | left + 1, d, fromStart, fromEnd =>
    match forward s d fromEnd (diagonals d) fromStart with
    | .error point => some point
    | .ok fromStart =>
      match backward back d fromStart (diagonals d) fromEnd with
      | .error point => some point
      | .ok fromEnd => search s back left (d + 1) fromStart fromEnd

/-- Where a shortest edit path from `old` to `new` can be cut in two. -/
def middle (old new : Array String) : Option (Nat × Nat) :=
  let rounds := (old.size + new.size + 1) / 2 + 1
  let s : Sides := ⟨old, new⟩
  search s s.reversed rounds 0 (.start rounds) (.start rounds)

end VpdHeaders.Diff.Snake
