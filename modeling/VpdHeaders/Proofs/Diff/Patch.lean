import VpdHeaders.Diff.Unified
import VpdHeaders.Proofs.Cpp.Arithmetic
import VpdHeaders.Proofs.Text.Lines

/-! # Patches: what a unified difference says, and what it does to a text

The reader goes by the marks of the lines alone. It is the application of a patch that holds the
headers to their word. -/
namespace VpdHeaders.Diff

inductive Mark | keep | remove | add
  deriving DecidableEq

structure PatchLine where
  mark : Mark
  line : String
  deriving DecidableEq

/-- Neighbouring lines of a text: how many lines stand before them, and how many they are. -/
@[ext]
structure Range where
  first : Nat
  count : Nat
  deriving DecidableEq

@[ext]
structure PatchHunk where
  old : Range
  new : Range
  lines : List PatchLine
  deriving DecidableEq

structure Patch where
  oldTitle : String
  newTitle : String
  hunks : List PatchHunk
  deriving DecidableEq

section Reading

namespace Range

/-- The lines of a text are numbered from one. An empty range has the number of the line that it
stands behind. -/
def ofNumber? : (number count : Nat) → Option Range
  | number, 0 => some ⟨number, 0⟩
  | 0, _ + 1 => none
  | first + 1, count + 1 => some ⟨first, count + 1⟩

/-- A count of one can be left out. -/
def read? (cs : List Char) : Option Range :=
  match (Text.fields ',' cs).map String.ofList with
  | [number] => do ofNumber? (← Cpp.numeral? number) 1
  | [number, count] => do ofNumber? (← Cpp.numeral? number) (← Cpp.numeral? count)
  | _ => none

end Range

inductive Entry
  | header (old new : Range)
  | line (l : PatchLine)
  | unended
  | other

def unendedNote : String := "\\ No newline at end of file\n"

namespace Entry

def headerOf (cs : List Char) : Entry :=
  match Text.fields ' ' cs with
  | [['@', '@'], '-' :: old, '+' :: new, ['@', '@', '\n']] =>
    match Range.read? old, Range.read? new with
    | some old, some new => .header old new
    | _, _ => .other
  | _ => .other

def ofLine (line : String) : Entry :=
  match line.toList with
  | ' ' :: cs => .line ⟨.keep, String.ofList cs⟩
  | '-' :: cs => .line ⟨.remove, String.ofList cs⟩
  | '+' :: cs => .line ⟨.add, String.ofList cs⟩
  | '@' :: cs => headerOf ('@' :: cs)
  | _ => if line = unendedNote then .unended else .other

end Entry

def PatchLine.chop (l : PatchLine) : PatchLine :=
  { l with line := String.ofList l.line.toList.dropLast }

/-- The lines in front of the first header, and the hunks. -/
def readHunks? : List Entry → Option (List PatchLine × List PatchHunk)
  | [] => some ([], [])
  | .header old new :: rest => do
    let (lines, hunks) ← readHunks? rest
    some ([], ⟨old, new, lines⟩ :: hunks)
  | .line l :: .unended :: rest => do
    let (lines, hunks) ← readHunks? rest
    some (l.chop :: lines, hunks)
  | .line l :: rest => do
    let (lines, hunks) ← readHunks? rest
    some (l :: lines, hunks)
  | .unended :: _ => none
  | .other :: _ => none

def title? (start line : String) : Option String :=
  if Text.begins start line && Text.ends "\n" line then
    some (String.ofList (line.toList.drop start.length).dropLast)
  else none

/-- Two titles, and hunks that each have a header. -/
def Patch.read? (text : String) : Option Patch :=
  match linesOf text with
  | old :: new :: rest => do
    let oldTitle ← title? "--- " old
    let newTitle ← title? "+++ " new
    match ← readHunks? (rest.map Entry.ofLine) with
    | ([], hunks) => some ⟨oldTitle, newTitle, hunks⟩
    | (_ :: _, _) => none
  | _ => none

end Reading

section Application

namespace PatchHunk

def oldLines (h : PatchHunk) : List String := (h.lines.filter (·.mark ≠ .add)).map PatchLine.line

def newLines (h : PatchHunk) : List String := (h.lines.filter (·.mark ≠ .remove)).map PatchLine.line

end PatchHunk

def Range.Holds (r : Range) (text lines : List String) : Prop :=
  r.first ≤ text.length ∧ r.count = lines.length ∧ (text.drop r.first).take r.count = lines
  deriving Decidable

/-- Applies hunks to the lines of the old text from line `i` on, for those of the new text from line
`j` on. Every hunk has to stand where its header says, in both texts. -/
def applyHunks (i j : Nat) : List PatchHunk → List String → Option (List String)
  | [], lines => some lines
  | h :: rest, lines =>
    let gap := h.old.first - i
    if h.old.first = i + gap ∧ h.new.first = j + gap ∧ (⟨gap, h.old.count⟩ : Range).Holds lines h.oldLines ∧
        h.new.count = h.newLines.length then do
      let after ← applyHunks (i + gap + h.old.count) (j + gap + h.new.count) rest
        (lines.drop (gap + h.old.count))
      some (lines.take gap ++ h.newLines ++ after)
    else none

def Mark.reversed : Mark → Mark
  | keep => keep
  | remove => add
  | add => remove

def PatchHunk.reversed (h : PatchHunk) : PatchHunk :=
  ⟨h.new, h.old, h.lines.map fun l => ⟨l.mark.reversed, l.line⟩⟩

namespace Patch

def applied? (p : Patch) (text : String) : Option String :=
  (applyHunks 0 0 p.hunks (linesOf text)).map String.join

def reversed (p : Patch) : Patch := ⟨p.newTitle, p.oldTitle, p.hunks.map PatchHunk.reversed⟩

/-- The patch stands in both texts where it says and turns each into the other. -/
structure Turns (p : Patch) (old new : String) : Prop where
  inOld : ∀ h ∈ p.hunks, h.old.Holds (linesOf old) h.oldLines
  inNew : ∀ h ∈ p.hunks, h.new.Holds (linesOf new) h.newLines
  forth : p.applied? old = some new
  back : p.reversed.applied? new = some old

end Patch

end Application

end VpdHeaders.Diff
