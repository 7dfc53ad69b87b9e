import VpdHeaders.Diff.Hunk

/-! # The unified form of a difference, plain or in colour -/
namespace VpdHeaders.Diff

inductive Style | bold | cyan | red | green
  deriving DecidableEq, Repr

def Style.code : Style → String
  | .bold => "\x1b[1m"
  | .cyan => "\x1b[36m"
  | .red => "\x1b[31m"
  | .green => "\x1b[32m"

def reset : String := "\x1b[0m"

/-- A part of the output with the style that it has in colour. -/
structure Piece where
  style : Option Style
  text : String
  deriving DecidableEq, Repr

def Piece.render (color : Bool) (p : Piece) : String :=
  match color, p.style with
  | true, some s => s.code ++ p.text ++ reset
  | _, _ => p.text

/-- Where a hunk lies in one text: its first line and the number of lines, which is left out if it
is one; an empty range lies behind its line. -/
def rangeText (first last : Nat) : String :=
  let n := last - first
  if n = 1 then toString (first + 1)
  else toString (if n = 0 then first else first + 1) ++ "," ++ toString n

def headerText (first last : Block) : String :=
  "@@ -" ++ rangeText first.oldAt (last.oldAt + last.removed.length) ++ " +" ++
    rangeText first.newAt (last.newAt + last.added.length) ++ " @@"

/-- A line with its mark. A line without an end gets one, and a note that says so. -/
def markedLine (mark line : String) : String :=
  mark ++ line ++ if isEnded line then "" else "\n\\ No newline at end of file\n"

def Block.pieces (b : Block) : List Piece :=
  if b.changed then
    b.removed.map (fun l => ⟨some .red, markedLine "-" l⟩) ++
      b.added.map fun l => ⟨some .green, markedLine "+" l⟩
  else b.removed.map fun l => ⟨none, markedLine " " l⟩

def Hunk.pieces (h : Hunk) : List Piece :=
  match h.head?, h.getLast? with
  | some first, some last =>
    ⟨some .cyan, headerText first last⟩ :: ⟨none, "\n"⟩ :: h.flatMap Block.pieces
  | _, _ => []

def titlePieces (label : String) : List Piece :=
  [⟨some .bold, "--- " ++ label ++ " (on disk)"⟩, ⟨none, "\n"⟩,
   ⟨some .bold, "+++ " ++ label ++ " (generated)"⟩, ⟨none, "\n"⟩]

/-- How `new` differs from `old`; nothing for equal texts. -/
def unified? (label old new : String) (color : Bool) : Option String :=
  if old = new then none
  else
    let pieces := titlePieces label ++ (hunks (linesOf old) (linesOf new)).flatMap Hunk.pieces
    some (String.join (pieces.map (Piece.render color)))

end VpdHeaders.Diff
