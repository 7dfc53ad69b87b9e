import VpdHeaders.Proofs.Cpp.Brackets
import VpdHeaders.Proofs.Identifier.Usable

/-! # Integer expressions

Literals, minus signs and parentheses, with the types and the limits that C++ gives to each value. -/
namespace VpdHeaders.Cpp

variable {n : Nat}

section Numerals

/-- The value of a decimal literal. With a zero in front of other digits it would not be decimal. -/
def numeral? (text : String) : Option Nat :=
  let digits := text.toList
  if digits ≠ [] ∧ digits.all Char.isDigit = true ∧ (digits.head? = some '0' → digits.length = 1) then
    some (Nat.ofDigitChars 10 digits 0)
  else none

private theorem head?_toDigits_ne_zero (h : 0 < n) : (Nat.toDigits 10 n).head? ≠ some '0' := by
  induction n using Nat.strongRecOn with
  | ind n ih =>
    rw [Nat.toDigits_eq_if (by decide)]
    split
    · have hdigit : ∀ k < 10, 0 < k → Nat.digitChar k ≠ '0' := by decide
      simpa using hdigit n ‹n < 10› h
    · rw [List.head?_append_of_ne_nil _ Nat.toDigits_ne_nil]
      exact ih (n / 10) (by omega) (by omega)

theorem isDigit_of_mem_repr {c : Char} (h : c ∈ n.repr.toList) : c.isDigit = true := by
  rw [Nat.toList_repr] at h
  exact Nat.isDigit_of_mem_toDigits (by decide) (by decide) h

theorem toList_repr_ne_nil (n : Nat) : n.repr.toList ≠ [] := by
  rw [Nat.toList_repr]
  exact Nat.toDigits_ne_nil

theorem numeral?_repr (n : Nat) : numeral? n.repr = some n := by
  have hzero : n.repr.toList.head? = some '0' → n.repr.toList.length = 1 := by
    intro h
    cases n with
    | zero => rfl
    | succ n =>
      rw [Nat.toList_repr] at h
      exact absurd h (head?_toDigits_ne_zero n.succ_pos)
  have hdigits : n.repr.toList.all Char.isDigit = true :=
    List.all_eq_true.mpr fun c hc => isDigit_of_mem_repr hc
  rw [numeral?, if_pos ⟨toList_repr_ne_nil n, hdigits, hzero⟩, Nat.toList_repr,
    Nat.ofDigitChars_toDigits (by decide) (by decide)]

def Token.isNumber : Token → Bool
  | .word text => text.toList.head?.any Char.isDigit
  | _ => false

/-- A number is a decimal literal that `long` can hold. -/
def Token.IsInRange (t : Token) : Prop :=
  t.isNumber = true → ∃ text n, t = .word text ∧ numeral? text = some n ∧ n ≤ 0x7FFFFFFFFFFFFFFF

@[simp] theorem Token.isInRange_symbol (c : Char) : (symbol c).IsInRange := nofun

@[simp] theorem Token.isInRange_literal (s : String) : (literal s).IsInRange := nofun

theorem Token.isInRange_repr (h : n ≤ 0x7FFFFFFFFFFFFFFF) : (word n.repr).IsInRange :=
  fun _ => ⟨n.repr, n, rfl, numeral?_repr n, h⟩

private theorem isDigit_of_isStart {c : Char} (h : Identifier.isStart c = true) :
    c.isDigit = false := by
  have hletter := Identifier.le_toNat_of_isStart h
  by_contra hdigit
  simp only [Bool.not_eq_false, Char.isDigit, Bool.and_eq_true, decide_eq_true_eq] at hdigit
  have hle : c.toNat ≤ 57 := hdigit.2
  omega

theorem Token.isInRange_of_isValid {text : String} (h : Identifier.isValid text = true) :
    (word text).IsInRange := by
  intro hnumber
  rw [Identifier.isValid] at h
  split at h
  · cases h
  · next c cs htext =>
    have hdigit := isDigit_of_isStart (Bool.and_eq_true_iff.mp h).1
    simp [isNumber, htext, hdigit] at hnumber

end Numerals

/-- The values of `int` lie below this bound, or those of `long` if they are wide. -/
def bound (wide : Bool) : Int := if wide then 0x8000000000000000 else 0x80000000

structure Number where
  wide : Bool
  value : Int
  inRange : -bound wide ≤ value ∧ value < bound wide

namespace Number

def ofInt? (wide : Bool) (value : Int) : Option Number :=
  if h : -bound wide ≤ value ∧ value < bound wide then some ⟨wide, value, h⟩ else none

/-- A literal has the first type that can hold it. -/
def ofNumeral? (text : String) : Option Number :=
  (numeral? text).bind fun n => (ofInt? false n).or (ofInt? true n)

def neg? (a : Number) : Option Number := ofInt? a.wide (-a.value)

/-- The result has the wider one of the two types. -/
def sub? (a b : Number) : Option Number := ofInt? (a.wide || b.wide) (a.value - b.value)

theorem ofNumeral?_repr (h : n ≤ 0x7FFFFFFFFFFFFFFF) : ∃ a, ofNumeral? n.repr = some a ∧ a.value = n := by
  rw [ofNumeral?, numeral?_repr, Option.bind_some]
  by_cases hnarrow : -bound false ≤ (n : Int) ∧ (n : Int) < bound false
  · exact ⟨⟨false, n, hnarrow⟩, by rw [ofInt?, dif_pos hnarrow]; rfl, rfl⟩
  · have hwide : -bound true ≤ (n : Int) ∧ (n : Int) < bound true := by
      simp only [bound, if_true]
      omega
    exact ⟨⟨true, n, hwide⟩, by rw [ofInt?, dif_neg hnarrow, ofInt?, dif_pos hwide]; rfl, rfl⟩

theorem neg?_of_nonneg {a : Number} (h : 0 ≤ a.value) :
    ∃ b, a.neg? = some b ∧ b.value = -a.value := by
  have hrange := a.inRange
  have hneg : -bound a.wide ≤ -a.value ∧ -a.value < bound a.wide := by omega
  exact ⟨⟨a.wide, -a.value, hneg⟩, dif_pos hneg, rfl⟩

end Number

/-- What an expression is about to go on with: an operand, behind minus signs of its own and perhaps
a difference that it belongs to, or an operator. -/
inductive Expected
  | operand (left : Option Number) (minuses : Nat)
  | operator (value : Number)

/-- An operand with the minus signs in front of it, taken from what stands to the left. -/
def operand? (left : Option Number) (minuses : Nat) (a : Number) : Option Number := do
  let value ← Nat.repeat (·.bind Number.neg?) minuses (some a)
  match left with
  | some left => left.sub? value
  | none => return value

mutual

def Node.number? : Node → Option Number
  | .leaf (.word text) => Number.ofNumeral? text
  | .group .paren inside => evaluate? (.operand none 0) inside
  | _ => none
termination_by structural n => n

/-- The value of the rest of an expression. -/
def evaluate? : Expected → List Node → Option Number
  | .operator value, [] => some value
  | .operator value, .leaf (.symbol '-') :: ns => evaluate? (.operand (some value) 0) ns
  | .operand left minuses, .leaf (.symbol '-') :: ns => evaluate? (.operand left (minuses + 1)) ns
  | .operand left minuses, n :: ns => do
    let value ← operand? left minuses (← n.number?)
    evaluate? (.operator value) ns
  | _, _ => none
termination_by structural _ ns => ns

end

def integer? (ns : List Node) : Option Int := (evaluate? (.operand none 0) ns).map Number.value

theorem integer?_repr (h : n ≤ 0x7FFFFFFFFFFFFFFF) : integer? [.leaf (.word n.repr)] = some (n : Int) := by
  obtain ⟨a, ha, hv⟩ := Number.ofNumeral?_repr h
  simp [integer?, evaluate?, Node.number?, operand?, Nat.repeat, ha, hv]

theorem integer?_neg_repr (h : n ≤ 0x7FFFFFFFFFFFFFFF) :
    integer? [.leaf (.symbol '-'), .leaf (.word n.repr)] = some (-(n : Int)) := by
  obtain ⟨a, ha, hv⟩ := Number.ofNumeral?_repr h
  obtain ⟨b, hb, hvb⟩ := Number.neg?_of_nonneg (a := a) (by omega)
  simp [integer?, evaluate?, Node.number?, operand?, Nat.repeat, ha, hb, hvb, hv]

/-- The literal 2^63 would be out of range, and so its opposite is written as a difference. -/
theorem integer?_least : integer? [.group .paren [.leaf (.symbol '-'),
    .leaf (.word "9223372036854775807"), .leaf (.symbol '-'), .leaf (.word "1")]] =
      some Int64.minValue.toInt := by
  decide +kernel

example : integer? [.leaf (.symbol '-'), .leaf (.word "9223372036854775808")] = none := by
  decide +kernel

end VpdHeaders.Cpp
