import VpdHeaders.Proofs.Identifier.Usable
import VpdHeaders.Proofs.Pointwise
import VpdHeaders.Proofs.Scope
import VpdHeaders.Proofs.Text.Blank
import VpdHeaders.Proofs.Text.Joined

/-! # The two forms of a scope: a text with pairs of colons, and a list of segments -/
namespace VpdHeaders.Scope

/-- How a scope is written as a text: blank where it is empty, else the segments with pairs of colons
between them, and blanks around each. -/
inductive IsSpelled : String → List String → Prop
  | blank {spec : String} (h : Text.isBlankText spec = true) : IsSpelled spec []
  | segments {padded scope : List String} (hne : scope ≠ [])
      (h : List.Forall₂ Text.IsPadded padded scope) : IsSpelled (Text.joined "::" padded) scope

variable {spec : String} {scope padded : List String}

theorem segmentFault?_eq_none_iff_isUsable {segment : String} :
    segmentFault? segment = none ↔ Identifier.IsUsable segment := by
  rw [segmentFault?_eq_none_iff, Identifier.isUsable_iff]

theorem parse_of_not_blank (h : Text.isBlankText spec = false) :
    parse spec = check (((Text.colonFields spec.toList).map String.ofList).map Text.trim) := by
  rw [parse, h, List.map_map]
  simp [Text.trim, Function.comp_def]

private theorem isSpelled_of_parse (h : parse spec = .ok scope) : IsSpelled spec scope := by
  cases hblank : Text.isBlankText spec with
  | true =>
    rw [parse, if_pos hblank] at h
    obtain rfl := Except.ok.inj h
    exact .blank hblank
  | false =>
    rw [parse_of_not_blank hblank] at h
    obtain ⟨rfl, -⟩ := check_eq_ok_iff.mp h
    have hpadded (parts : List String) : List.Forall₂ Text.IsPadded parts (parts.map Text.trim) := by
      rw [List.forall₂_map_right_iff, List.forall₂_same]
      exact fun s _ => Text.isPadded_trim s
    have hspelled := IsSpelled.segments (by simpa using Text.colonFields_ne_nil spec.toList)
      (hpadded ((Text.colonFields spec.toList).map String.ofList))
    rwa [Text.joined_colonFields] at hspelled

private theorem isBlankText_joined (hne : scope ≠ [])
    (husable : ∀ segment ∈ scope, Identifier.IsUsable segment)
    (h : List.Forall₂ Text.IsPadded padded scope) :
    Text.isBlankText (Text.joined "::" padded) = false := by
  cases h with
  | nil => exact absurd rfl hne
  | @cons a segment rest _ hfirst _ =>
    have hsegment := (husable segment List.mem_cons_self).not_isBlankText
    obtain ⟨front, back, -, -, rfl⟩ := hfirst
    cases rest <;> simp [Text.joined, Text.isBlankText_append, hsegment]

private theorem map_trim_eq (husable : ∀ segment ∈ scope, Identifier.IsUsable segment)
    (h : List.Forall₂ Text.IsPadded padded scope) : padded.map Text.trim = scope := by
  induction h with
  | nil => rfl
  | @cons a segment _ _ hfirst _ ih =>
    have hsegment := husable segment List.mem_cons_self
    rw [List.map_cons, (Text.trim_eq_iff hsegment.isBlank_eq_false).mpr hfirst,
      ih fun s hs => husable s (List.mem_cons_of_mem segment hs)]

private theorem parse_of_isSpelled (husable : ∀ segment ∈ scope, Identifier.IsUsable segment)
    (h : IsSpelled spec scope) : parse spec = .ok scope := by
  cases h with
  | blank hblank => rw [parse, if_pos hblank]
  | @segments padded _ hne hpadded =>
    have hparts : padded ≠ [] := by
      rintro rfl
      exact hne (List.forall₂_nil_left_iff.mp hpadded)
    have hcolon : ∀ p ∈ padded, ':' ∉ p.toList := by
      intro p hp
      obtain ⟨segment, hsegment, hpad⟩ := Pointwise.exists_right hpadded hp
      exact hpad.not_mem (by decide) ((husable segment hsegment).not_mem (by decide))
    rw [parse_of_not_blank (isBlankText_joined hne husable hpadded),
      Text.colonFields_joined hparts hcolon, map_trim_eq husable hpadded, check_eq_ok_iff]
    exact ⟨rfl, fun segment hs => segmentFault?_eq_none_iff_isUsable.mpr (husable segment hs)⟩

theorem parse_eq_ok_iff : parse spec = .ok scope ↔
    (∀ segment ∈ scope, Identifier.IsUsable segment) ∧ IsSpelled spec scope := by
  constructor
  · intro h
    refine ⟨fun segment hs => ?_, isSpelled_of_parse h⟩
    exact segmentFault?_eq_none_iff_isUsable.mp (usable_of_parse h segment hs)
  · rintro ⟨husable, h⟩
    exact parse_of_isSpelled husable h

/-- The segments with nothing but pairs of colons between them. -/
theorem isSpelled_joined (scope : List String) : IsSpelled (Text.joined "::" scope) scope := by
  cases scope with
  | nil => exact .blank rfl
  | cons segment scope =>
    exact .segments (by simp) (List.forall₂_same.mpr fun s _ => Text.IsPadded.refl s)

private theorem check_eq_self_iff :
    check scope = .ok scope ↔ ∀ segment ∈ scope, Identifier.IsUsable segment := by
  simp only [check_eq_ok_iff, true_and, segmentFault?_eq_none_iff_isUsable]

/-- Segments are accepted just when they can be read from the text that they are joined to. A text is
read as a scope just when all its segments are usable and it spells the scope; the list of these
segments is accepted as well, and read again from the text that it is joined to. -/
theorem both_forms_agree (spec : String) (scope : List String) :
    ((∃ accepted, check scope = .ok accepted) ↔ parse (Text.joined "::" scope) = .ok scope) ∧
      (parse spec = .ok scope ↔
        (∀ segment ∈ scope, Identifier.IsUsable segment) ∧ IsSpelled spec scope) ∧
      (parse spec = .ok scope →
        check scope = .ok scope ∧ parse (Text.joined "::" scope) = .ok scope) := by
  have hjoined : parse (Text.joined "::" scope) = .ok scope ↔
      ∀ segment ∈ scope, Identifier.IsUsable segment := by
    rw [parse_eq_ok_iff, and_iff_left (isSpelled_joined scope)]
  refine ⟨?_, parse_eq_ok_iff, ?_⟩
  · constructor
    · rintro ⟨accepted, h⟩
      obtain ⟨rfl, -⟩ := check_eq_ok_iff.mp h
      exact hjoined.mpr (check_eq_self_iff.mp h)
    · intro h
      exact ⟨scope, check_eq_self_iff.mpr (hjoined.mp h)⟩
  · intro h
    have husable := (parse_eq_ok_iff.mp h).1
    exact ⟨check_eq_self_iff.mpr husable, hjoined.mpr husable⟩

/-- A scope that is written with blanks. -/
theorem padded_scope_is_accepted :
    parse "\topenpower ::\u00a0_vpd2 " = .ok ["openpower", "_vpd2"] ∧
      check ["openpower", "_vpd2"] = .ok ["openpower", "_vpd2"] ∧
      parse "openpower::_vpd2" = .ok ["openpower", "_vpd2"] := by
  have hparse : parse "\topenpower ::\u00a0_vpd2 " = .ok ["openpower", "_vpd2"] := by rfl
  exact ⟨hparse, (both_forms_agree _ _).2.2 hparse⟩

/-- A segment that holds the separator is refused in the one form, and falls apart in the other. -/
example : (check ["a::b"]).toOption = none ∧ parse (Text.joined "::" ["a::b"]) = .ok ["a", "b"] :=
  ⟨by rfl, by rfl⟩

end VpdHeaders.Scope
