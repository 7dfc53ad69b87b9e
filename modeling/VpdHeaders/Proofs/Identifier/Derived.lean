import Mathlib.Data.List.DropRight
import Mathlib.Data.List.Forall2
import VpdHeaders.Proofs.Identifier.Usable
import VpdHeaders.Proofs.Text.Fields

/-! # Names that are made valid, and the variable names of interfaces

Sanitizing always gives an identifier, and it changes a text only where it has to. The variable name
of an interface comes from what stands before its first dot and behind its last one. -/
namespace VpdHeaders.Identifier

section Sanitized

variable {raw : String} {c : Char}

private theorem isPart_replaced (c : Char) : isPart (if isPart c then c else '_') = true := by
  cases h : isPart c with
  | true => simp [h]
  | false => simp; decide

private theorem isStart_of_not_isDigit (h : isPart c = true) (hd : isDigit c = false) :
    isStart c = true := by simpa [isPart, hd] using h

private theorem not_isDigit_of_isStart (h : isStart c = true) : isDigit c = false := by
  have hletter := le_toNat_of_isStart h
  by_contra hdigit
  simp only [Bool.not_eq_false, isDigit, Bool.and_eq_true, decide_eq_true_eq] at hdigit
  have hle : c.toNat ≤ 57 := hdigit.2
  omega

theorem isValid_sanitize (raw : String) : isValid (sanitize raw) = true := by
  have hall : ∀ d ∈ raw.toList.map fun c => if isPart c then c else '_', isPart d = true := by
    intro d hd
    obtain ⟨c, -, rfl⟩ := List.mem_map.mp hd
    exact isPart_replaced c
  rw [isValid, sanitize, String.toList_ofList]
  cases hcs : raw.toList.map fun c => if isPart c then c else '_' with
  | nil => decide
  | cons c cs =>
    rw [hcs] at hall
    have hc := hall c List.mem_cons_self
    have hrest : cs.all isPart = true :=
      List.all_eq_true.mpr fun d hd => hall d (List.mem_cons_of_mem c hd)
    cases hd : isDigit c with
    | true =>
      have hunder : isStart '_' = true := by decide
      simp [guardStart, hd, hunder, hc, hrest]
    | false => simp [guardStart, hd, isStart_of_not_isDigit hc hd, hrest]

theorem sanitize_eq_self_iff : sanitize raw = raw ↔ isValid raw = true := by
  constructor
  · intro h
    rw [← h]
    exact isValid_sanitize raw
  · intro h
    obtain ⟨⟨c, hc, hstart⟩, hparts⟩ := isValid_iff.mp h
    obtain ⟨cs, hcs⟩ := List.head?_eq_some_iff.mp hc
    have hbody : (raw.toList.map fun c => if isPart c then c else '_') = raw.toList :=
      (List.map_congr_left fun d hd => if_pos (hparts d hd)).trans (List.map_id' raw.toList)
    rw [sanitize, hbody, hcs, guardStart, if_neg (by simp [not_isDigit_of_isStart hstart]), ← hcs,
      String.ofList_toList]

/-- A character stays, or becomes an underscore where it cannot stand in an identifier. -/
inductive Replaces : Char → Char → Prop
  | part {c : Char} (h : isPart c = true) : Replaces c c
  | other {c : Char} (h : isPart c = false) : Replaces c '_'

/-- A text with no first character, or with a digit as the first. -/
def LacksStart (raw : String) : Prop := raw = "" ∨ ∃ c ∈ raw.toList.head?, isDigit c = true

/-- The characters are replaced one for one, and an underscore is put in front of them just where
there is no start for an identifier. -/
def IsSanitized (raw name : String) : Prop :=
  ∃ body, List.Forall₂ Replaces raw.toList body ∧
    (LacksStart raw ∧ name.toList = '_' :: body ∨ ¬LacksStart raw ∧ name.toList = body)

private theorem forall₂_replaces (cs : List Char) :
    List.Forall₂ Replaces cs (cs.map fun c => if isPart c then c else '_') := by
  rw [List.forall₂_map_right_iff, List.forall₂_same]
  intro c _
  cases h : isPart c with
  | true => simpa using Replaces.part h
  | false => simpa using Replaces.other h

private theorem isDigit_replaced (c : Char) :
    isDigit (if isPart c then c else '_') = isDigit c := by
  cases h : isPart c with
  | true => rfl
  | false =>
    rw [isPart, Bool.or_eq_false_iff] at h
    rw [h.2]
    exact (by decide : isDigit '_' = false)

theorem isSanitized_sanitize (raw : String) : IsSanitized raw (sanitize raw) := by
  refine ⟨_, forall₂_replaces raw.toList, ?_⟩
  rw [sanitize, String.toList_ofList, LacksStart, ← String.toList_eq_nil_iff]
  cases raw.toList with
  | nil => exact .inl ⟨.inl rfl, rfl⟩
  | cons c cs =>
    rw [List.map_cons, guardStart, isDigit_replaced]
    cases hd : isDigit c with
    | true => exact .inl ⟨.inr ⟨c, rfl, hd⟩, by simp⟩
    | false => exact .inr ⟨by simp [hd], by simp⟩

end Sanitized

section Derived

/-- What stands before the first dot of a name, which is all of it if there is none. -/
def beforeDot (name : String) : String := String.ofList (name.toList.takeWhile (· != '.'))

/-- What stands behind the last dot of a name, which is all of it if there is none. -/
def afterDot (name : String) : String := String.ofList (name.toList.rtakeWhile (· != '.'))

private theorem headD_fieldsOf (name : String) :
    (Text.fieldsOf '.' name).headD "" = beforeDot name := by
  have h (cs : List Char) : (Text.fields '.' cs).head? = some (cs.takeWhile (· != '.')) := by
    induction cs with
    | nil => rfl
    | cons c cs ih =>
      obtain ⟨x, xs, hx⟩ := List.exists_cons_of_ne_nil (Text.fields_ne_nil '.' cs)
      rw [hx, List.head?_cons, Option.some.injEq] at ih
      by_cases hc : c = '.' <;> simp [Text.fields, hc, hx, ih]
  rw [Text.fieldsOf, List.headD_eq_head?_getD, List.head?_map, h]
  rfl

private theorem dot_cases (cs : List Char) :
    '.' ∉ cs ∨ ∃ before after, cs = before ++ '.' :: after ∧ '.' ∉ after := by
  by_cases h : '.' ∈ cs
  · obtain ⟨after, before, hcs, hafter⟩ := List.eq_append_cons_of_mem (List.mem_reverse.mpr h)
    refine .inr ⟨before.reverse, after.reverse, ?_, by simpa using hafter⟩
    simpa using congrArg List.reverse hcs
  · exact .inl h

private theorem rtakeWhile_append_dot (before : List Char) {after : List Char} (h : '.' ∉ after) :
    (before ++ '.' :: after).rtakeWhile (· != '.') = after := by
  have hafter : ∀ c ∈ after.reverse, (c != '.') = true := by
    intro c hc
    rw [bne_iff_ne]
    rintro rfl
    exact h (List.mem_reverse.mp hc)
  rw [List.rtakeWhile, List.reverse_append, List.reverse_cons, List.append_assoc,
    List.takeWhile_append_of_pos hafter]
  simp

private theorem getLastD_fieldsOf (name : String) :
    (Text.fieldsOf '.' name).getLastD "" = afterDot name := by
  have h (cs : List Char) : (Text.fields '.' cs).getLast? = some (cs.rtakeWhile (· != '.')) := by
    rcases dot_cases cs with hcs | ⟨before, after, rfl, hafter⟩
    · have hall : cs.rtakeWhile (· != '.') = cs := by
        rw [List.rtakeWhile_eq_self_iff]
        intro c hc
        rw [bne_iff_ne]
        rintro rfl
        exact hcs hc
      rw [Text.fields_of_not_mem hcs, hall, List.getLast?_singleton]
    · rw [Text.fields_append, Text.fields_of_not_mem hafter, List.getLast?_concat,
        rtakeWhile_append_dot before hafter]
  rw [Text.fieldsOf, List.getLastD_eq_getLast?, List.getLast?_map, h]
  rfl

/-- What stands between the first dot and the last one has no part in the variable name. -/
theorem ofInterface_eq (interface : String) :
    ofInterface interface = sanitize (beforeDot interface ++ afterDot interface) := by
  rw [ofInterface, headD_fieldsOf, getLastD_fieldsOf]

/-- Sanitizing gives an identifier, leaves every identifier as it is, and changes any other text only
by what is said of sanitized texts. The variable name of an interface is an identifier, too: it is the
text before the first dot with the text behind the last one, if these make an identifier together, and
it is the same for all interfaces that agree in both texts. -/
theorem derivation_is_conservative (raw interface other : String) :
    (isValid (sanitize raw) = true ∧ (sanitize raw = raw ↔ isValid raw = true) ∧
      sanitize (sanitize raw) = sanitize raw ∧ IsSanitized raw (sanitize raw)) ∧
    isValid (ofInterface interface) = true ∧
    (isValid (beforeDot interface ++ afterDot interface) = true →
      ofInterface interface = beforeDot interface ++ afterDot interface) ∧
    (beforeDot interface = beforeDot other → afterDot interface = afterDot other →
      ofInterface interface = ofInterface other) := by
  refine ⟨⟨isValid_sanitize raw, sanitize_eq_self_iff, ?_, isSanitized_sanitize raw⟩, ?_, ?_, ?_⟩
  · exact sanitize_eq_self_iff.mpr (isValid_sanitize raw)
  · rw [ofInterface_eq]
    exact isValid_sanitize _
  · intro h
    rw [ofInterface_eq]
    exact sanitize_eq_self_iff.mpr h
  · intro hbefore hafter
    rw [ofInterface_eq, ofInterface_eq, hbefore, hafter]

/-- Two interfaces with one variable name. -/
theorem distant_interfaces_share_identifier :
    ofInterface "xyz.openbmc_project.Asset" = "xyzAsset" ∧
      ofInterface "xyz.openbmc_project.Asset" = ofInterface "xyz..Asset" := by
  have h := (derivation_is_conservative "" "xyz.openbmc_project.Asset" "xyz..Asset").2.2
  exact ⟨h.1 (by decide), h.2 (by decide) (by decide)⟩

/-- A text that has no start, and one whose dots stand at its ends. -/
example : sanitize "1-é" = "_1__" ∧ ofInterface ".Item." = "_" := by decide

end Derived

end VpdHeaders.Identifier
