import Mathlib.Data.List.Infix
import VpdHeaders.Identifier
import VpdHeaders.Text.Blank

/-! # The names that generated code can use -/
namespace VpdHeaders.Identifier

/-- A name that is an identifier of ASCII characters, and that neither the language nor its
implementation takes for itself. -/
structure IsUsable (name : String) : Prop where
  start : ∃ c ∈ name.toList.head?, isStart c = true
  parts : ∀ c ∈ name.toList, isPart c = true
  keyword : name ∉ keywords
  doubled : ¬['_', '_'] <:+: name.toList
  capital : ∀ c cs, name.toList = '_' :: c :: cs → ¬('A' ≤ c ∧ c ≤ 'Z')

variable {name : String} {c : Char}

private theorem hasDoubleUnderscore_iff {cs : List Char} :
    hasDoubleUnderscore cs = true ↔ ['_', '_'] <:+: cs := by
  fun_induction hasDoubleUnderscore cs with
  | case1 c d cs ih =>
    have hsplit : ['_', '_'] <:+: c :: d :: cs ↔
        ['_', '_'] <+: c :: d :: cs ∨ ['_', '_'] <:+: d :: cs := List.infix_cons_iff
    have hpair : ['_', '_'] <+: c :: d :: cs ↔ c = '_' ∧ d = '_' := by
      simp [List.cons_prefix_cons, @eq_comm Char '_']
    rw [Bool.or_eq_true, ih, hsplit, hpair, Bool.and_eq_true, beq_iff_eq, beq_iff_eq]
  | case2 cs hcs =>
    match cs, hcs with
    | [], _ => simp
    | [c], _ => simp [List.infix_cons_iff, List.cons_prefix_cons]
    | c :: d :: cs, hcs => exact absurd rfl (hcs c d cs)

private theorem startsUnderscoreCapital_eq_false_iff {cs : List Char} :
    startsUnderscoreCapital cs = false ↔ ∀ d ds, cs = '_' :: d :: ds → ¬('A' ≤ d ∧ d ≤ 'Z') := by
  match cs with
  | [] => simp [startsUnderscoreCapital]
  | [c] => simp [startsUnderscoreCapital]
  | c :: d :: cs => simp [startsUnderscoreCapital]

theorem isPart_of_isStart (h : isStart c = true) : isPart c = true := by simp [isPart, h]

/-- The first character starts an identifier, and all of them can stand in one. -/
theorem isValid_iff : isValid name = true ↔
    (∃ c ∈ name.toList.head?, isStart c = true) ∧ ∀ c ∈ name.toList, isPart c = true := by
  rw [isValid]
  cases name.toList with
  | nil => simp
  | cons c cs =>
    simp only [Bool.and_eq_true, List.all_eq_true, List.head?_cons, Option.mem_def,
      Option.some.injEq, exists_eq_left', List.forall_mem_cons]
    constructor
    · rintro ⟨h, hcs⟩
      exact ⟨h, isPart_of_isStart h, hcs⟩
    · rintro ⟨h, -, hcs⟩
      exact ⟨h, hcs⟩

private theorem reservation?_eq_none_iff : reservation? name = none ↔
    name ∉ keywords ∧ hasDoubleUnderscore name.toList = false ∧
      startsUnderscoreCapital name.toList = false := by
  rw [reservation?]
  split
  · next hk => simp [List.contains_iff_mem.mp hk]
  · next hk =>
    have hname : name ∉ keywords := fun h => hk (List.contains_iff_mem.mpr h)
    simp only [hname, not_false_eq_true, true_and]
    cases hasDoubleUnderscore name.toList <;> cases startsUnderscoreCapital name.toList <;> simp

theorem isUsable_iff : IsUsable name ↔ isValid name = true ∧ reservation? name = none := by
  rw [isValid_iff, reservation?_eq_none_iff, startsUnderscoreCapital_eq_false_iff, Bool.eq_false_iff,
    ne_eq, hasDoubleUnderscore_iff]
  constructor
  · intro h
    exact ⟨⟨h.start, h.parts⟩, h.keyword, h.doubled, h.capital⟩
  · rintro ⟨⟨hstart, hparts⟩, hkeyword, hdoubled, hcapital⟩
    exact ⟨hstart, hparts, hkeyword, hdoubled, hcapital⟩

/-- What starts an identifier lies behind the digits. -/
theorem le_toNat_of_isStart (h : isStart c = true) : 65 ≤ c.toNat := by
  simp only [isStart, isLetter, Bool.or_eq_true, Bool.and_eq_true, decide_eq_true_eq,
    beq_iff_eq] at h
  rcases h with (⟨hsmall, -⟩ | ⟨hcapital, -⟩) | rfl
  · have hle : 97 ≤ c.toNat := hsmall
    omega
  · exact hcapital
  · decide

private theorem isBlank_of_isPart (h : isPart c = true) : Text.isBlank c = false := by
  simp only [isPart, isStart, isLetter, isDigit, Bool.or_eq_true, Bool.and_eq_true,
    decide_eq_true_eq, beq_iff_eq, Char.le_def, UInt32.le_iff_toNat_le] at h
  have hrange : 48 ≤ c.toNat ∧ c.toNat ≤ 122 := by
    rcases h with ((h | h) | rfl) | h
    · change 97 ≤ c.toNat ∧ c.toNat ≤ 122 at h
      omega
    · change 65 ≤ c.toNat ∧ c.toNat ≤ 90 at h
      omega
    · decide
    · change 48 ≤ c.toNat ∧ c.toNat ≤ 57 at h
      omega
  simp only [Text.isBlank, Bool.or_eq_false_iff, Bool.and_eq_false_iff, decide_eq_false_iff_not,
    beq_eq_false_iff_ne]
  omega

namespace IsUsable

theorem isBlank_eq_false (h : IsUsable name) : ∀ c ∈ name.toList, Text.isBlank c = false :=
  fun c hc => isBlank_of_isPart (h.parts c hc)

theorem not_mem (h : IsUsable name) (hc : isPart c = false) : c ∉ name.toList := fun hmem => by
  simp [h.parts c hmem] at hc

theorem not_isBlankText (h : IsUsable name) : Text.isBlankText name = false := by
  obtain ⟨c, hc, -⟩ := h.start
  have hmem : c ∈ name.toList := List.mem_of_mem_head? hc
  rw [Text.isBlankText, List.all_eq_false]
  exact ⟨c, hmem, by simp [h.isBlank_eq_false c hmem]⟩

end IsUsable

end VpdHeaders.Identifier
