import VpdHeaders.Decimal.Reading
import VpdHeaders.Toml.Text

/-! # Numbers and dates of a settings document: what they look like, and what follows them -/
namespace VpdHeaders.Toml

/-- Digits in front, single underscores between two of them left out. -/
def digitRun (isDigit : Char → Bool) : List Char → List Char × List Char
  | [] => ([], [])
  | c :: '_' :: d :: rest =>
    if isDigit c && isDigit d then
      let run := digitRun isDigit (d :: rest)
      (c :: run.1, run.2)
    else if isDigit c then ([c], '_' :: d :: rest)
    else ([], c :: '_' :: d :: rest)
  | c :: rest =>
    if isDigit c then
      let run := digitRun isDigit rest
      (c :: run.1, run.2)
    else ([], c :: rest)

def digits? (n : Nat) (cs : List Char) : Option (Nat × List Char) :=
  let ds := cs.take n
  if ds.length = n && ds.all Char.isDigit then
    (Decimal.natural? 10 ds).map fun v => (v, cs.drop n)
  else none

def digitsIn? (n low high : Nat) (cs : List Char) : Option (Nat × List Char) :=
  (digits? n cs).filter fun r => low ≤ r.1 && r.1 ≤ high

namespace Date

def isLeap (year : Nat) : Bool := year % 4 == 0 && (year % 100 != 0 || year % 400 == 0)

def daysIn (year month : Nat) : Nat :=
  if month == 2 then if isLeap year then 29 else 28
  else if [4, 6, 9, 11].contains month then 30 else 31

def day? (cs : List Char) : Option (List Char) := do
  let (year, cs) ← digits? 4 cs
  let (month, cs) ← digitsIn? 2 1 12 (← after? '-' cs)
  let (_, cs) ← digitsIn? 2 1 (daysIn year month) (← after? '-' cs)
  return cs

/-- Hours, minutes and seconds, with a fraction if there is one. A leap second is allowed. -/
def time? (cs : List Char) : Option (List Char) := do
  let (_, cs) ← digitsIn? 2 0 23 cs
  let (_, cs) ← digitsIn? 2 0 59 (← after? ':' cs)
  let (_, cs) ← digitsIn? 2 0 60 (← after? ':' cs)
  match cs with
  | '.' :: d :: rest => return if d.isDigit then rest.dropWhile Char.isDigit else cs
  | _ => return cs

def offset? (cs : List Char) : Option (List Char) :=
  match cs with
  | c :: rest =>
    if c == 'Z' || c == 'z' then some rest
    else if c == '+' || c == '-' then do
      let (_, rest) ← digitsIn? 2 0 23 rest
      let (_, rest) ← digitsIn? 2 0 59 (← after? ':' rest)
      return rest
    else some cs
  | [] => some []

def moment? (cs : List Char) : Option (List Char) :=
  match day? cs with
  | none => time? cs
  | some rest =>
    match rest with
    | c :: tail =>
      if ['T', 't', ' '].contains c then
        match time? tail with
        | some rest => offset? rest
        | none => some rest
      else some rest
    | [] => some []

end Date

/-- A decimal integer without underscores, and what follows; only a single zero may lead. -/
def decimalRun : List Char → Option (List Char × List Char)
  | '0' :: rest => some (['0'], rest)
  | cs =>
    let (run, rest) := digitRun Char.isDigit cs
    if run.isEmpty then none else some (run, rest)

def exponentRun? : List Char → Option (List Char × List Char)
  | c :: rest =>
    if c == 'e' || c == 'E' then
      let sign := rest.takeWhile fun c => c == '+' || c == '-'
      let (run, rest) := digitRun Char.isDigit (rest.drop sign.length)
      if 1 < sign.length || run.isEmpty then none else some (c :: sign ++ run, rest)
    else none
  | [] => none

/-- A number with a fraction or an exponent; one too large for a float is refused. -/
def float? (cs : List Char) : Option (List Char) := do
  let sign := cs.take 1 |>.filter fun c => c == '+' || c == '-'
  let unsigned := cs.drop sign.length
  match unsigned with
  | 'i' :: 'n' :: 'f' :: rest => return rest
  | 'n' :: 'a' :: 'n' :: rest => return rest
  | _ =>
    let (whole, rest) ← decimalRun unsigned
    let (part, rest) := match rest with
      | '.' :: tail =>
        let run := digitRun Char.isDigit tail
        if run.1.isEmpty then ([], rest) else ('.' :: run.1, run.2)
      | _ => ([], rest)
    let (power, rest) := (exponentRun? rest).getD ([], rest)
    if part.isEmpty && power.isEmpty then none
    match Binary64.ofText? (sign ++ whole ++ part ++ power) with
    | some (.infinity false) | none => none
    | some _ => return rest

/-- An integer of 64 bits, decimal with a sign or in another base without. -/
def integer? (cs : List Char) : Option (List Char) := do
  let based (base : Nat) (isDigit : Char → Bool) (cs : List Char) : Option (List Char) := do
    let (run, rest) := digitRun isDigit cs
    let n ← Decimal.natural? base run
    if n < UInt64.size / 2 then return rest
    none
  match cs with
  | '0' :: 'x' :: rest => based 16 (fun c => (Decimal.digitValue? c).isSome) rest
  | '0' :: 'o' :: rest => based 8 (fun c => '0' ≤ c && c ≤ '7') rest
  | '0' :: 'b' :: rest => based 2 (fun c => c == '0' || c == '1') rest
  | _ =>
    let (negative, unsigned) := Decimal.sign cs
    let (run, rest) ← decimalRun unsigned
    let n ← Decimal.natural? 10 run
    if n < UInt64.size / 2 || (negative && n == UInt64.size / 2) then return rest
    none

def afterNumber? (cs : List Char) : Option (List Char) :=
  (Date.moment? cs).or ((float? cs).or (integer? cs))

end VpdHeaders.Toml
