import VpdHeaders.Yaml.Spot

/-! # Block scalars: literal and folded text below an indicator -/
namespace VpdHeaders.Yaml.BlockScalar

/-- What happens to the line breaks at the end. -/
inductive Chomping | strip | clip | keep
  deriving DecidableEq, Repr

def chomping? : Char → Option Chomping
  | '+' => some .keep
  | '-' => some .strip
  | _ => none

/-- The indentation digit in front; zero is refused, and no digit is `none`. -/
def indentation (text : List Spot) : Option (Option Nat × List Spot) :=
  let c := peek text 0
  if !c.isDigit then some (none, text)
  else if c == '0' then none
  else some (some (c.toNat - '0'.toNat), text.drop 1)

/-- The two optional indicators, in either order. -/
def indicators (text : List Spot) : Option (Chomping × Option Nat × List Spot) :=
  match chomping? (peek text 0) with
  | some chomping => (indentation (text.drop 1)).map fun r => (chomping, r)
  | none => do
    let (indent, rest) ← indentation text
    match indent, chomping? (peek rest 0) with
    | some _, some chomping => return (chomping, indent, rest.drop 1)
    | _, _ => return (.clip, indent, rest)

/-- Skips indentation up to column `indent` (all of it where that is not known yet) and empty
lines; keeps the breaks, backwards, and the widest column reached. A tab as indentation is
refused. -/
def skipEmpty (indent : Option Nat) (widest : Nat) (breaks : List Char) :
    List Spot → Option (Nat × List Char × List Spot)
  | [] => some (widest, breaks, [])
  | s :: rest =>
    let inIndent := match indent with
      | none => true
      | some n => s.column < n
    let reached := max widest s.column
    if inIndent && s.char == ' ' then skipEmpty indent widest breaks rest
    else if inIndent && s.char == '\t' then none
    else if isBreak s.char then skipEmpty indent reached (s.char :: breaks) rest
    else some (reached, breaks, s :: rest)

/-- The content so far, all backwards: the text, the break at the end of its last line, the breaks
of empty lines after it; and whether that last line started with a gap. -/
structure State where
  text : List Char
  lineBreak : List Char
  breaks : List Char
  startedWithGap : Bool

/-- Goes over to a line that starts with `first`. In folded text a single line feed between two
lines without leading gaps is a space, or nothing if empty lines follow it. -/
def State.join (folded : Bool) (st : State) (first : Char) : List Char :=
  let gap := isGap first
  if folded && st.lineBreak == ['\n'] && !st.startedWithGap && !gap then
    if st.breaks.isEmpty then ' ' :: st.text else st.breaks ++ st.text
  else st.breaks ++ (st.lineBreak ++ st.text)

def contents (folded : Bool) (indent : Nat) : Nat → State → List Spot → Option (State × List Spot)
  | 0, _, _ => none
  | fuel + 1, st, text =>
    match text with
    | [] => some (st, [])
    | s :: _ =>
      if s.column ≠ indent || s.char == endMark then some (st, text)
      else
        let (line, rest) := span (fun c => !isBreakOrEnd c) text
        let c := peek rest 0
        let (lineBreak, rest) := if isBreak c then ([c], rest.drop 1) else ([], rest)
        match skipEmpty (some indent) 0 [] rest with
        | none => none
        | some (_, breaks, rest) =>
          contents folded indent fuel
            ⟨line.reverse ++ st.join folded s.char, lineBreak, breaks, isGap s.char⟩ rest

/-- Reads a block scalar after its `|` or `>`, below a parent that is indented by `parent`, or
by -1 at the top. -/
def scan (folded : Bool) (parent : Int) (text : List Spot) : Option (String × List Spot) := do
  let (chomping, increment, rest) ← indicators text
  let rest ← lineEnd rest
  let known := increment.map fun n => (if 0 ≤ parent then parent + n else n).toNat
  let (widest, breaks, rest) ← skipEmpty known 0 [] rest
  let indent := known.getD (max (max widest (parent + 1).toNat) 1)
  let (st, rest) ← contents folded indent (rest.length + 1) ⟨[], [], breaks, false⟩ rest
  let clipped := if chomping == .strip then st.text else st.lineBreak ++ st.text
  let whole := if chomping == .keep then st.breaks ++ clipped else clipped
  return (String.ofList whole.reverse, rest)

end VpdHeaders.Yaml.BlockScalar
