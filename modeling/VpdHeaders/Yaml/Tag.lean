import VpdHeaders.Yaml.QuotedScalar
import VpdHeaders.Yaml.Token

/-! # Tags, names and directives -/
namespace VpdHeaders.Yaml

namespace Tag

def octet (c : Char) : UInt8 := UInt8.ofNat c.toNat

/-- The characters of a tag; inside `<…>` and in directives also comma and brackets. -/
def isTagChar (wide : Bool) (c : Char) : Bool :=
  isWord c || (";/?:@&=+$.%!~*'()".toList.contains c) || (wide && ",[]".toList.contains c)

/-- How many octets a character takes whose first octet is `o`. -/
def width? (o : Nat) : Option Nat :=
  if o < 0x80 then some 1
  else if 0xC0 ≤ o && o < 0xE0 then some 2
  else if 0xE0 ≤ o && o < 0xF0 then some 3
  else if 0xF0 ≤ o && o < 0xF8 then some 4
  else none

/-- Where the reading of a tag stands: between characters, inside `%` and two hexadecimal digits,
or between the octets of one escaped character, of which `left` are to come. -/
inductive Mode
  | plain
  | percent (left : Option Nat)
  | low (left : Option Nat) (high : Nat)
  | more (left : Nat)

/-- The octets of a tag, backwards. Escapes must spell out whole characters. -/
def scan (wide : Bool) (octets : TagText) (mode : Mode) :
    List Spot → Option (TagText × List Spot)
  | [] => none
  | s :: rest =>
    match mode with
    | .plain =>
      if s.char == '%' then scan wide octets (.percent none) rest
      else if isTagChar wide s.char then scan wide (octet s.char :: octets) .plain rest
      else some (octets, s :: rest)
    | .more left => if s.char == '%' then scan wide octets (.percent (some left)) rest else none
    | .percent left =>
      match hexValue? s.char with
      | none => none
      | some high => scan wide octets (.low left high) rest
    | .low left high =>
      match hexValue? s.char with
      | none => none
      | some low =>
        let o := high * 16 + low
        let pending := match left with
          | none => (width? o).map (· - 1)
          | some left => if 0x80 ≤ o && o < 0xC0 then some (left - 1) else none
        match pending with
        | none => none
        | some 0 => scan wide (UInt8.ofNat o :: octets) .plain rest
        | some (left + 1) => scan wide (UInt8.ofNat o :: octets) (.more (left + 1)) rest

def octets (wide : Bool) (text : List Spot) : Option (TagText × List Spot) :=
  (scan wide [] .plain text).map fun r => (r.1.reverse, r.2)

def upToNul (t : TagText) : TagText := t.takeWhile (· != 0)

/-- A handle such as `!`, `!!` or `!name!`; or `!name` without the second mark, which is no handle
yet. -/
def handle (text : List Spot) : Option (String × List Spot) :=
  if peek text 0 != '!' then none
  else
    let (name, rest) := span isWord (text.drop 1)
    if peek rest 0 == '!' then some (String.ofList ('!' :: name ++ ['!']), rest.drop 1)
    else some (String.ofList ('!' :: name), rest)

def isWholeHandle (h : String) : Bool := 2 ≤ h.length && h.toList.getLast? == some '!'

/-- A tag after which a word ends, or a comma inside flow collections. -/
def token (inFlow : Bool) (text : List Spot) : Option (Token × List Spot) := do
  let (found, rest) ←
    if peek text 1 == '<' then
      let (suffix, rest) ← octets true (text.drop 2)
      if suffix.isEmpty || peek rest 0 != '>' then none
      pure (Token.tag "" (upToNul suffix), rest.drop 1)
    else
      let (h, rest) ← handle text
      let (suffix, rest) ← octets false rest
      if isWholeHandle h then
        if suffix.isEmpty then none
        pure (Token.tag h (upToNul suffix), rest)
      else
        let whole := upToNul ((h.toList.drop 1).map octet ++ suffix)
        pure (if whole.isEmpty then Token.tag "" [octet '!'] else Token.tag "!" whole, rest)
  if isSeparator (peek rest 0) || (inFlow && peek rest 0 == ',') then return (found, rest)
  none

end Tag

/-- The name of an anchor or alias, after which a word or a key ends. -/
def name (text : List Spot) : Option (String × List Spot) :=
  let (word, rest) := span isWord text
  let after := peek rest 0
  if !word.isEmpty && (isSeparator after || "?:,]\x7d%@\x60".toList.contains after) then
    some (String.ofList word, rest)
  else none

namespace Directive

def number (text : List Spot) : Option (Nat × List Spot) :=
  let (digits, rest) := span Char.isDigit text
  if digits.isEmpty || 9 < digits.length then none
  else some (digits.foldl (fun n c => 10 * n + (c.toNat - '0'.toNat)) 0, rest)

def version (text : List Spot) : Option (Token × List Spot) := do
  let (major, rest) ← number (span isGap text).2
  if peek rest 0 != '.' then none
  let (minor, rest) ← number (rest.drop 1)
  return (.version major minor, rest)

def tagHandle (text : List Spot) : Option (Token × List Spot) := do
  let (h, rest) ← Tag.handle (span isGap text).2
  if !(Tag.isWholeHandle h || h == "!") || !isGap (peek rest 0) then none
  let (expansion, rest) ← Tag.octets true (span isGap rest).2
  if expansion.isEmpty || !isSeparator (peek rest 0) then none
  return (.tagHandle h (Tag.upToNul expansion), rest)

/-- A directive after its `%`; only `YAML` and `TAG` are known. -/
def token (text : List Spot) : Option (Token × List Spot) := do
  let (word, rest) := span isWord text
  if !isSeparator (peek rest 0) then none
  let (found, rest) ←
    if word == "YAML".toList then version rest
    else if word == "TAG".toList then tagHandle rest
    else none
  return (found, ← lineEnd rest)

end Directive

end VpdHeaders.Yaml
