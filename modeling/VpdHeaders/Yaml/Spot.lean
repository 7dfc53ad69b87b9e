/-! # The characters of a document and where they stand -/
namespace VpdHeaders.Yaml

/-- A character with its place. Line breaks are already uniform: a carriage return, a line feed,
both together and U+0085 are one `\n`; U+2028 and U+2029 stay as they are. -/
structure Spot where
  char : Char
  index : Nat
  line : Nat
  column : Nat
  deriving Repr

/-- Stands after the last character; it cannot occur in a document. -/
def endMark : Char := '\x00'

def isPrintable (c : Char) : Bool :=
  let n := c.toNat
  n == 0x09 || n == 0x0A || n == 0x0D || (0x20 ≤ n && n ≤ 0x7E) || n == 0x85 ||
    (0xA0 ≤ n && n ≤ 0xD7FF) || (0xE000 ≤ n && n ≤ 0xFFFD) || 0x10000 ≤ n

def isBreak (c : Char) : Bool := c == '\n' || c == '\u2028' || c == '\u2029'

def isGap (c : Char) : Bool := c == ' ' || c == '\t'

def isBreakOrEnd (c : Char) : Bool := isBreak c || c == endMark

def isSeparator (c : Char) : Bool := isGap c || isBreakOrEnd c

def isWord (c : Char) : Bool := c.isAlphanum || c == '_' || c == '-'

def spotsFrom (index line column : Nat) : List Char → List Spot
  | [] => [⟨endMark, index, line, column⟩]
  | '\r' :: '\n' :: rest => ⟨'\n', index, line, column⟩ :: spotsFrom (index + 2) (line + 1) 0 rest
  | c :: rest =>
    let shown := if c == '\r' || c == '\u0085' then '\n' else c
    if isBreak shown then ⟨shown, index, line, column⟩ :: spotsFrom (index + 1) (line + 1) 0 rest
    else ⟨shown, index, line, column⟩ :: spotsFrom (index + 1) line (column + 1) rest

def spots (text : List Char) : List Spot := spotsFrom 0 0 0 text

def peek (text : List Spot) (n : Nat) : Char :=
  match text.drop n with
  | [] => endMark
  | s :: _ => s.char

def span (p : Char → Bool) (text : List Spot) : List Char × List Spot :=
  ((text.takeWhile fun s => p s.char).map Spot.char, text.dropWhile fun s => p s.char)

/-- The rest of a line that holds nothing more: gaps, perhaps a comment, and the line break. -/
def lineEnd (text : List Spot) : Option (List Spot) :=
  let (_, rest) := span isGap text
  let rest := if peek rest 0 == '#' then (span (fun c => !isBreakOrEnd c) rest).2 else rest
  if isBreak (peek rest 0) then some (rest.drop 1)
  else if peek rest 0 == endMark then some rest
  else none

/-- `---` or `...` in front, as a word of its own. -/
def startsMarker (mark : Char) (text : List Spot) : Bool :=
  peek text 0 == mark && peek text 1 == mark && peek text 2 == mark && isSeparator (peek text 3)

def atDocumentMarker (text : List Spot) : Bool :=
  match text with
  | [] => false
  | s :: _ => s.column == 0 && (startsMarker '-' text || startsMarker '.' text)

end VpdHeaders.Yaml
