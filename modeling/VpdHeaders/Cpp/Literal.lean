/-! # C++ string literals -/
namespace VpdHeaders.Cpp

def isControl (c : Char) : Bool := c.toNat < 0x20 || c.toNat == 0x7F

def octalDigit (n : Nat) : Char := Char.ofNat (0x30 + n % 8)

/-- How a character is written inside a literal. Controls without a short form take all three
octal digits, so that no digit after them can be read as part of the escape. -/
def escapeChar (c : Char) : List Char :=
  if c = '\\' then ['\\', '\\']
  else if c = '"' then ['\\', '"']
  else if c = '\n' then ['\\', 'n']
  else if c = '\r' then ['\\', 'r']
  else if c = '\t' then ['\\', 't']
  else if isControl c then
    ['\\', octalDigit (c.toNat / 64), octalDigit (c.toNat / 8), octalDigit c.toNat]
  else [c]

def escape (s : String) : String := String.ofList (s.toList.flatMap escapeChar)

def literal (s : String) : String := "\"" ++ escape s ++ "\""

end VpdHeaders.Cpp
