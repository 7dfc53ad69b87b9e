import VpdHeaders.Decimal.Reading
import VpdHeaders.Tree

/-! # What plain scalars mean -/
namespace VpdHeaders.Yaml.Resolve

def null? (s : String) : Option Tree :=
  if ["null", "Null", "NULL", "~"].contains s then some .null else none

def boolean? (s : String) : Option Tree :=
  if ["true", "True", "TRUE"].contains s then some (.boolean true)
  else if ["false", "False", "FALSE"].contains s then some (.boolean false)
  else none

/-- Several digits with a zero in front, after a sign or not: no number. -/
def isZeroPadded (cs : List Char) : Bool :=
  match (Decimal.sign cs).2 with
  | '0' :: d :: rest => (d :: rest).all Char.isDigit
  | _ => false

/-- The base that a text in front of digits stands for, and the digits. -/
def based? : List Char → Option (Nat × List Char)
  | '0' :: 'x' :: rest => some (16, rest)
  | '0' :: 'o' :: rest => some (8, rest)
  | '0' :: 'b' :: rest => some (2, rest)
  | _ => none

def natural? (cs : List Char) : Option Nat :=
  let digits := match cs with
    | '+' :: rest => rest
    | _ => cs
  match (based? digits).bind fun (base, rest) => Decimal.natural? base rest with
  | some n => some n
  | none => if isZeroPadded cs then none else Decimal.natural? 10 digits

/-- An integer with a minus, as the number after it. -/
def negated? : List Char → Option Nat
  | '-' :: digits =>
    match (based? digits).bind fun (base, rest) => Decimal.natural? base rest with
    | some n => some n
    | none => if isZeroPadded digits then none else Decimal.natural? 10 digits
  | _ => none

/-- Integers: 64 bits, unsigned or signed, are a value, up to 128 bits an error, and what is longer
is no integer. -/
inductive Size | value (n : Int) | tooLarge | none

def wideSize : Nat := UInt64.size * UInt64.size

def integer (cs : List Char) : Size :=
  match natural? cs, negated? cs with
  | some n, _ =>
    if n < UInt64.size then .value n else if n < wideSize then .tooLarge else .none
  | _, some n =>
    if n ≤ UInt64.size / 2 then .value (-(n : Int))
    else if n ≤ wideSize / 2 then .tooLarge
    else .none
  | _, _ => .none

/-- A floating-point number; one that is written with digits must be finite. -/
def float? (s : String) : Option Binary64 :=
  if [".inf", ".Inf", ".INF", "+.inf", "+.Inf", "+.INF"].contains s then some (.infinity false)
  else if ["-.inf", "-.Inf", "-.INF"].contains s then some (.infinity true)
  else if [".nan", ".NaN", ".NAN"].contains s then some .nan
  else match s.toList with
    | '+' :: c :: rest =>
      if c == '+' || c == '-' then none else (Binary64.ofText? (c :: rest)).filter Binary64.isFinite
    | cs => (Binary64.ofText? cs).filter Binary64.isFinite

/-- The value of a plain scalar without a tag; an integer of more than 64 bits has none. -/
def plain (s : String) : Option Tree :=
  let cs := s.toList
  if s.isEmpty then some .null
  else match null? s, boolean? s with
    | some t, _ | none, some t => some t
    | none, none =>
      match integer cs with
      | .value n => some (.integer n)
      | .tooLarge => none
      | .none =>
        match if isZeroPadded cs then none else float? s with
        | some x => some (.float x)
        | none => some (.string s)

end VpdHeaders.Yaml.Resolve
