import Mathlib.Tactic.Common
import VpdHeaders.Inventory.Reading

/-! # The values that have a literal

Booleans and strings count only without tags, integers and nulls beneath any number of them. -/
namespace VpdHeaders

namespace Tree

def untagged : Tree → Tree
  | .tagged _ content => content.untagged
  | t => t

theorem isNull_iff {t : Tree} : t.isNull = true ↔ t.untagged = .null := by
  fun_induction Tree.isNull t with
  | case1 => simp [untagged]
  | case2 tag content ih => exact ih
  | case3 t hnull htagged =>
    cases t with
    | null => exact absurd rfl hnull
    | tagged tag content => exact absurd rfl (htagged tag content)
    | _ => simp [untagged]

theorem int64?_eq_some_iff {t : Tree} {n : Int64} :
    t.int64? = some n ↔ t.untagged = .integer n.toInt := by
  fun_induction Tree.int64? t with
  | case1 m h =>
    have hm : (Int64.ofInt m).toInt = m :=
      Int64.toInt_ofInt_of_le h.1 (Int.lt_add_one_of_le h.2)
    constructor
    · rintro ⟨rfl⟩
      rw [hm]
      rfl
    · intro hn
      obtain rfl : m = n.toInt := Tree.integer.inj hn
      rw [Int64.ofInt_toInt]
  | case2 m h =>
    have hm : m ≠ n.toInt := by
      rintro rfl
      exact h ⟨n.le_toInt, Int.le_of_lt_add_one n.toInt_lt⟩
    simpa [untagged] using hm
  | case3 tag content ih => exact ih
  | case4 t hinteger htagged =>
    cases t with
    | integer m => exact absurd rfl (hinteger m)
    | tagged tag content => exact absurd rfl (htagged tag content)
    | _ => simp [untagged]

end Tree

namespace Inventory

inductive Denotes : Tree → Literal → Prop
  | boolean (b : Bool) : Denotes (.boolean b) (.boolean b)
  | string (s : String) : Denotes (.string s) (.string s)
  | integer {t : Tree} {n : Int64} (h : t.untagged = .integer n.toInt) : Denotes t (.integer n)

theorem literal?_eq_some_iff {t : Tree} {l : Literal} : literal? t = some l ↔ Denotes t l := by
  constructor
  · intro h
    have hinteger (h : t.int64?.map .integer = some l) : Denotes t l := by
      obtain ⟨n, hn, rfl⟩ := Option.map_eq_some_iff.mp h
      exact .integer (Tree.int64?_eq_some_iff.mp hn)
    cases t with
    | boolean b =>
      obtain rfl := Option.some.inj h
      exact .boolean b
    | string s =>
      obtain rfl := Option.some.inj h
      exact .string s
    | _ => exact hinteger h
  · intro h
    cases h with
    | boolean b => rfl
    | string s => rfl
    | integer h =>
      have hread := congrArg (Option.map Literal.integer) (Tree.int64?_eq_some_iff.mpr h)
      cases t with
      | boolean b => simp [Tree.untagged] at h
      | string s => simp [Tree.untagged] at h
      | _ => exact hread

theorem Denotes.isNull_eq_false {t : Tree} {l : Literal} (h : Denotes t l) : t.isNull = false := by
  cases h with
  | boolean b => rfl
  | string s => rfl
  | integer h => simp [← Bool.not_eq_true, Tree.isNull_iff, h]

/-- A boolean, a string, or an integer of 64 bits beneath any number of tags. -/
inductive IsScalar : Tree → Prop
  | boolean (b : Bool) : IsScalar (.boolean b)
  | string (s : String) : IsScalar (.string s)
  | integer {t : Tree} {n : Int} (h : t.untagged = .integer n) (hlow : -0x8000000000000000 ≤ n)
      (hhigh : n ≤ 0x7FFFFFFFFFFFFFFF) : IsScalar t

theorem isScalar_iff {t : Tree} : IsScalar t ↔ ∃ l, Denotes t l := by
  constructor
  · intro h
    cases h with
    | boolean b => exact ⟨_, .boolean b⟩
    | string s => exact ⟨_, .string s⟩
    | @integer _ n h hlow hhigh =>
      have hn : (Int64.ofInt n).toInt = n := Int64.toInt_ofInt_of_le hlow (by omega)
      exact ⟨_, .integer (h.trans (congrArg Tree.integer hn.symm))⟩
  · rintro ⟨l, h⟩
    cases h with
    | boolean b => exact .boolean b
    | string s => exact .string s
    | @integer _ n h => exact .integer h n.le_toInt (by have := n.toInt_lt; omega)

instance : DecidablePred IsScalar := fun t =>
  decidable_of_iff ((literal? t).isSome = true) <| by
    simp only [Option.isSome_iff_exists, literal?_eq_some_iff, isScalar_iff]

theorem literal?_eq_none_iff {t : Tree} : literal? t = none ↔ ¬IsScalar t := by
  rw [isScalar_iff, not_exists, Option.eq_none_iff_forall_ne_some]
  exact forall_congr' fun l => not_congr literal?_eq_some_iff

/-- No tag makes a literal of a float or of an integer out of range. -/
theorem not_isScalar {t : Tree}
    (h : (∃ x, t.untagged = .float x) ∨ ∃ n, t.untagged = .integer n ∧ 0x8000000000000000 ≤ n) :
    ¬IsScalar t := by
  intro hs
  cases hs with
  | boolean b => simp [Tree.untagged] at h
  | string s => simp [Tree.untagged] at h
  | integer hn _ hhigh =>
    rcases h with ⟨x, hx⟩ | ⟨m, hm, hle⟩
    · simp [hn] at hx
    · obtain rfl := Tree.integer.inj (hn.symm.trans hm)
      omega

end Inventory

end VpdHeaders
