import VpdHeaders.Decimal.Binary64

/-! # The shortest decimal that reads back as the same double -/
namespace VpdHeaders.Decimal

/-- Decimal digits `d₁…dₙ` and a point position `k`, for the number `0.d₁…dₙ * 10^k`. -/
structure Digits where
  digits : List Char
  point : Int
  deriving DecidableEq, Repr

/-- The positive reals that round to `significand * 2^exponent`, in units of a quarter of the last
place: the value itself, the ends, and whether the ends belong to it. -/
structure Interval where
  value : Nat
  low : Nat
  high : Nat
  closed : Bool

/-- Below a power of two the neighbour is half as far away as above it; the ends round to the even
side. -/
def interval (significand : Nat) (exponent : Int) : Interval :=
  let narrow := significand == Nat.pow 2 52 && Binary64.minExponent < exponent
  ⟨4 * significand, 4 * significand - (if narrow then 1 else 2), 4 * significand + 2,
    significand % 2 == 0⟩

def Interval.holds (i : Interval) (unit grid candidate : Nat) : Bool :=
  let c := candidate * grid
  if i.closed then i.low * unit ≤ c && c ≤ i.high * unit
  else i.low * unit < c && c < i.high * unit

/-- The least `k` with `num / den < 10^k`. -/
def magnitude (num den : Nat) : Int :=
  let guess := ((num.log2 : Int) - (den.log2 : Int)) * 30103 / 100000
  let below (k : Int) : Bool :=
    if 0 ≤ k then num < den * Nat.pow 10 k.toNat else num * Nat.pow 10 (-k).toNat < den
  ([guess - 1, guess, guess + 1, guess + 2].find? below).getD (guess + 3)

/-- The multiple of `10^step` in the interval that lies nearest to the value, given as a count of
steps; of two equally near the even one. -/
def onGrid? (i : Interval) (exponent step : Int) : Option Nat :=
  let pow (b : Nat) (n : Int) : Nat := Nat.pow b n.toNat
  let unit := pow 2 (exponent - 2) * pow 10 (-step)
  let grid := pow 10 step * pow 2 (2 - exponent)
  let down := i.value * unit / grid
  let below := i.value * unit - down * grid
  let above := (down + 1) * grid - i.value * unit
  match i.holds unit grid down && down != 0, i.holds unit grid (down + 1) with
  | false, false => none
  | true, false => some down
  | false, true => some (down + 1)
  | true, true =>
    if below < above || (below == above && down % 2 == 0) then some down else some (down + 1)

/-- The fewest digits that read back; with that many, the nearest. -/
def shortest (significand : Nat) (exponent : Int) : Digits :=
  let q := Binary64.scaled significand 1 (-exponent)
  let k := magnitude q.1 q.2
  let i := interval significand exponent
  let found := (List.range 18).findSome? fun n =>
    (onGrid? i exponent (k - (n + 1 : Nat))).map fun c => (c, n + 1)
  let hit := found.getD (0, 1)
  let written := Nat.toDigits 10 hit.1
  let kept := (written.reverse.dropWhile (· == '0')).reverse
  ⟨kept, k + (written.length : Int) - (hit.2 : Int)⟩

/-- Positional up to sixteen digits before the point and four zeros after it, scientific beyond;
a whole number keeps `.0`. -/
def Digits.text (d : Digits) : String :=
  let n : Int := d.digits.length
  let zeros (count : Int) : List Char := List.replicate count.toNat '0'
  let k := d.point
  String.ofList <|
    if n ≤ k && k ≤ 16 then d.digits ++ zeros (k - n) ++ ['.', '0']
    else if 0 < k && k ≤ 16 then d.digits.take k.toNat ++ '.' :: d.digits.drop k.toNat
    else if -5 < k && k ≤ 0 then '0' :: '.' :: (zeros (-k) ++ d.digits)
    else
      let lead := d.digits.take 1
      let rest := d.digits.drop 1
      lead ++ (if rest.isEmpty then [] else '.' :: rest) ++ 'e' :: (toString (k - 1)).toList

end VpdHeaders.Decimal

namespace VpdHeaders.Binary64

def sign (negative : Bool) : String := if negative then "-" else ""

def text : Binary64 → String
  | .nan => ".nan"
  | .infinity negative => sign negative ++ ".inf"
  | .finite negative 0 _ => sign negative ++ "0.0"
  | .finite negative m e => sign negative ++ (Decimal.shortest m e).text

end VpdHeaders.Binary64
