/-! # Runs of lines: what two texts share, and what only one of them has -/
namespace VpdHeaders.Diff

/-- Cuts a text after every line feed, carriage return, or both together. The ends of lines stay
with their lines. -/
def splitLines : List Char → List (List Char)
  | [] => []
  | '\r' :: '\n' :: rest => ['\r', '\n'] :: splitLines rest
  | c :: rest =>
    if c = '\n' ∨ c = '\r' then [c] :: splitLines rest
    else match splitLines rest with
      | [] => [[c]]
      | line :: lines => (c :: line) :: lines

def linesOf (text : String) : List String := (splitLines text.toList).map String.ofList

/-- Whether a line has an end of its own, as all but the last line of a text do. -/
def isEnded (line : String) : Bool :=
  match line.toList.getLast? with
  | some c => c == '\n' || c == '\r'
  | none => false

inductive Kind | equal | delete | insert
  deriving DecidableEq, Repr

/-- Lines that stand in both texts, in the old one, or in the new one; and where they start. For a
run of one text, the place in the other is that where the run was found first, moved as the run
moved. -/
structure Run where
  kind : Kind
  oldAt : Nat
  newAt : Nat
  lines : List String
  deriving DecidableEq, Repr

namespace Run

def oldLines (r : Run) : List String := if r.kind = .insert then [] else r.lines

def newLines (r : Run) : List String := if r.kind = .delete then [] else r.lines

end Run

def sharedStart : List String → List String → Nat
  | a :: as, b :: bs => if a = b then sharedStart as bs + 1 else 0
  | _, _ => 0

def sharedEnd (as bs : List String) : Nat := sharedStart as.reverse bs.reverse

end VpdHeaders.Diff
