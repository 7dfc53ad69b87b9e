import VpdHeaders.Yaml.Spot

/-! # Folding: what the white space between the words of a scalar stands for -/
namespace VpdHeaders.Yaml

/-- White space between two words: the gaps on the first line, the first line break, and the breaks
after it. Texts are kept backwards. -/
structure Fold where
  gaps : List Char
  broken : Bool
  firstBreak : Option Char
  breaks : List Char

namespace Fold

def empty : Fold := ⟨[], false, none, []⟩

def escapedBreak : Fold := ⟨[], true, none, []⟩

/-- Gaps count only before the first break. -/
def addGap (f : Fold) (c : Char) : Fold := if f.broken then f else { f with gaps := c :: f.gaps }

def addBreak (f : Fold) (c : Char) : Fold :=
  if f.broken then { f with breaks := c :: f.breaks } else ⟨[], true, some c, []⟩

/-- One line feed alone becomes a space, and vanishes if others follow it; every other break is
kept. The text before and the result are backwards. -/
def close (f : Fold) (before : List Char) : List Char :=
  if !f.broken then f.gaps ++ before
  else match f.firstBreak with
    | some '\n' => if f.breaks.isEmpty then ' ' :: before else f.breaks ++ before
    | some c => f.breaks ++ c :: before
    | none => f.breaks ++ before

end VpdHeaders.Yaml.Fold
