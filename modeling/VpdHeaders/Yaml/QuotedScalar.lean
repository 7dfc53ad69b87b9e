import VpdHeaders.Yaml.Fold

/-! # Scalars in quotation marks -/
namespace VpdHeaders.Yaml

def hexValue? (c : Char) : Option Nat :=
  if '0' ≤ c && c ≤ '9' then some (c.toNat - '0'.toNat)
  else if 'a' ≤ c && c ≤ 'f' then some (c.toNat - 'a'.toNat + 10)
  else if 'A' ≤ c && c ≤ 'F' then some (c.toNat - 'A'.toNat + 10)
  else none

def escaped? : Char → Option Char
  | '0' => some '\x00'
  | 'a' => some '\x07'
  | 'b' => some '\x08'
  | 't' => some '\t'
  | '\t' => some '\t'
  | 'n' => some '\n'
  | 'v' => some '\x0B'
  | 'f' => some '\x0C'
  | 'r' => some '\r'
  | 'e' => some '\x1B'
  | ' ' => some ' '
  | '"' => some '"'
  | '/' => some '/'
  | '\\' => some '\\'
  | 'N' => some '\u0085'
  | '_' => some '\u00A0'
  | 'L' => some '\u2028'
  | 'P' => some '\u2029'
  | _ => none

/-- The escapes that are followed by the hexadecimal number of a character, and its length. -/
def codeLength? : Char → Option Nat
  | 'x' => some 2
  | 'u' => some 4
  | 'U' => some 8
  | _ => none

def charOfCode? (n : Nat) : Option Char :=
  if n < 0xD800 || (0xDFFF < n && n ≤ 0x10FFFF) then some (Char.ofNat n) else none

namespace QuotedScalar

inductive Mode
  | word
  | space (fold : Fold)
  | doubled
  | escape
  | code (left value : Nat)

inductive Step
  | fail
  | stop (text : List Char)
  | next (text : List Char) (mode : Mode)

/-- A character of a word, in single or double quotation marks. -/
def wordStep (single : Bool) (text : List Char) (c following : Char) : Step :=
  if c == endMark then .fail
  else if single && c == '\'' then if following == '\'' then .next text .doubled else .stop text
  else if !single && c == '"' then .stop text
  else if !single && c == '\\' then .next text .escape
  else if isBreak c then .next text (.space (Fold.empty.addBreak c))
  else if isGap c then .next text (.space (Fold.empty.addGap c))
  else .next (c :: text) .word

def escapeStep (text : List Char) (c : Char) : Step :=
  if isBreak c then .next text (.space Fold.escapedBreak)
  else match codeLength? c, escaped? c with
    | some left, _ => .next text (.code left 0)
    | none, some e => .next (e :: text) .word
    | none, none => .fail

def codeStep (text : List Char) (left value : Nat) (c : Char) : Step :=
  match hexValue? c with
  | none => .fail
  | some d =>
    let value := value * 16 + d
    if left ≤ 1 then
      match charOfCode? value with
      | none => .fail
      | some e => .next (e :: text) .word
    else .next text (.code (left - 1) value)

/-- One character at the head of `here`. White space between words is folded when it ends; a
document marker there ends the document inside the quotation and is refused. -/
def step (single : Bool) (text : List Char) (mode : Mode) (c : Char) (here : List Spot) : Step :=
  match mode with
  | .word => wordStep single text c (peek here 1)
  | .doubled => .next ('\'' :: text) .word
  | .escape => escapeStep text c
  | .code left value => codeStep text left value c
  | .space fold =>
    if isBreak c then .next text (.space (fold.addBreak c))
    else if isGap c then .next text (.space (fold.addGap c))
    else if atDocumentMarker here then .fail
    else wordStep single (fold.close text) c (peek here 1)

def scan (single : Bool) (text : List Char) (mode : Mode) :
    List Spot → Option (List Char × List Spot)
  | [] => none
  | s :: rest =>
    match step single text mode s.char (s :: rest) with
    | .fail => none
    | .stop text => some (text, rest)
    | .next text mode => scan single text mode rest

end QuotedScalar

/-- Reads a quoted scalar after its opening mark, up to and with the closing one. -/
def quotedScalar (single : Bool) (text : List Spot) : Option (String × List Spot) :=
  (QuotedScalar.scan single [] .word text).map fun r => (String.ofList r.1.reverse, r.2)

end VpdHeaders.Yaml
