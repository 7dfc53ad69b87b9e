import VpdHeaders.Decimal.Binary64

/-! # Reading numbers -/
namespace VpdHeaders.Decimal

def digitValue? (c : Char) : Option Nat :=
  if '0' ≤ c && c ≤ '9' then some (c.toNat - '0'.toNat)
  else if 'a' ≤ c && c ≤ 'f' then some (c.toNat - 'a'.toNat + 10)
  else if 'A' ≤ c && c ≤ 'F' then some (c.toNat - 'A'.toNat + 10)
  else none

/-- The number with these digits, first the highest; there must be one digit at least. -/
def natural? (base : Nat) (cs : List Char) : Option Nat :=
  if cs.isEmpty then none
  else cs.foldlM (fun n c =>
    match digitValue? c with
    | some d => if d < base then some (base * n + d) else none
    | none => none) 0

/-- A sign in front, `true` for a minus, and what follows. -/
def sign : List Char → Bool × List Char
  | '-' :: rest => (true, rest)
  | '+' :: rest => (false, rest)
  | cs => (false, cs)

/-- An exponent after its `e`, for a number that has no other text behind it; nothing at all is
the exponent zero. -/
def exponent? : List Char → Option Int
  | [] => some 0
  | c :: rest =>
    if c == 'e' || c == 'E' then
      let (negative, digits) := sign rest
      (natural? 10 digits).map fun n => if negative then -(n : Int) else n
    else none

end VpdHeaders.Decimal

namespace VpdHeaders.Binary64

/-- Reads a number with an optional sign, digits with or without a point among or beside them, and
an optional exponent. -/
def ofText? (cs : List Char) : Option Binary64 :=
  let (negative, cs) := Decimal.sign cs
  let whole := cs.takeWhile Char.isDigit
  let rest := cs.dropWhile Char.isDigit
  let (part, rest) := match rest with
    | '.' :: tail => (tail.takeWhile Char.isDigit, tail.dropWhile Char.isDigit)
    | _ => ([], rest)
  match Decimal.natural? 10 (whole ++ part), Decimal.exponent? rest with
  | some n, some e => some (ofDecimal negative n (e - part.length))
  | _, _ => none

def isFinite : Binary64 → Bool
  | .finite .. => true
  | _ => false

end VpdHeaders.Binary64
