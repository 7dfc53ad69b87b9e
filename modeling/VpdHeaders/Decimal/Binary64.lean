/-! # Binary floating point with 53 significant bits, and rounding a decimal to it -/
namespace VpdHeaders

/-- A double: `finite negative m e` is `m * 2^e`, with `m < 2^53` and `-1074 ≤ e ≤ 971`, where `m`
has all 53 bits unless `e` is the least exponent. -/
inductive Binary64 where
  | nan
  | infinity (negative : Bool)
  | finite (negative : Bool) (significand : Nat) (exponent : Int)
  deriving DecidableEq, Repr

namespace Binary64

def minExponent : Int := -1074
def maxExponent : Int := 971

/-- The equality of numbers, under which zeros are one number, extended by `nan = nan`. -/
def same : Binary64 → Binary64 → Bool
  | .finite _ 0 _, .finite _ 0 _ => true
  | x, y => x == y

/-- Numerator and denominator of `num / den / 2^e`. -/
def scaled (num den : Nat) (e : Int) : Nat × Nat :=
  if 0 ≤ e then (num, den * Nat.pow 2 e.toNat) else (num * Nat.pow 2 (-e).toNat, den)

/-- The exponent at which the integer part of `num / den / 2^e` has 53 bits, or the least one. -/
def unitExponent (num den : Nat) : Int :=
  let guess : Int := (num.log2 : Int) - (den.log2 : Int) - 53
  let q := scaled num den guess
  max (if q.1 / q.2 < Nat.pow 2 53 then guess else guess + 1) minExponent

/-- The integer nearest to `num / den`; of two equally near the even one. -/
def roundHalfEven (num den : Nat) : Nat :=
  let q := num / den
  let r := num % den
  if den < 2 * r || (2 * r == den && q % 2 == 1) then q + 1 else q

/-- The double nearest to `num / den`, ties to even. -/
def ofRatio (negative : Bool) (num den : Nat) : Binary64 :=
  if num = 0 then .finite negative 0 minExponent
  else
    let e := unitExponent num den
    let q := scaled num den e
    let m := roundHalfEven q.1 q.2
    let carried := m == Nat.pow 2 53
    let e' := if carried then e + 1 else e
    if maxExponent < e' then .infinity negative
    else .finite negative (if carried then Nat.pow 2 52 else m) e'

/-- The double nearest to `digits * 10^exponent`. Values beyond every double are settled by their
magnitude alone, so that no huge power is computed. -/
def ofDecimal (negative : Bool) (digits : Nat) (exponent : Int) : Binary64 :=
  let magnitude : Int := exponent + ((Nat.toDigits 10 digits).length : Int)
  if digits = 0 || magnitude < -330 then .finite negative 0 minExponent
  else if 320 < magnitude then .infinity negative
  else if 0 ≤ exponent then ofRatio negative (digits * Nat.pow 10 exponent.toNat) 1
  else ofRatio negative digits (Nat.pow 10 (-exponent).toNat)

end VpdHeaders.Binary64
