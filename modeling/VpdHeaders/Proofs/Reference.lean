import VpdHeaders.Proofs.Identifier.Usable
import VpdHeaders.Proofs.Text.Blank
import VpdHeaders.Proofs.Text.Joined
import VpdHeaders.Reference

/-! # The texts that references are read from, and their normal form -/
namespace VpdHeaders.Reference

variable {raw : String} {r : Reference}

/-- The grammar of references: two usable names with a comma between them, and blanks around each. -/
structure IsWritten (raw : String) (r : Reference) : Prop where
  record : Identifier.IsUsable r.record
  keyword : Identifier.IsUsable r.keyword
  text : ∃ w₁ w₂ w₃ w₄ : String, (∀ w ∈ [w₁, w₂, w₃, w₄], Text.isBlankText w = true) ∧
    raw = w₁ ++ r.record ++ w₂ ++ "," ++ w₃ ++ r.keyword ++ w₄

theorem tokenFault?_eq_none_iff {role : Role} {token : String} :
    tokenFault? role token = none ↔
      Identifier.isValid token = true ∧ Identifier.reservation? token = none := by
  cases he : token.isEmpty with
  | true =>
    obtain rfl := String.isEmpty_iff.mp he
    simp [tokenFault?, Identifier.isValid]
  | false => cases hv : Identifier.isValid token <;> simp [tokenFault?, he, hv]

private theorem parse_eq_ok_iff : parse raw = .ok r ↔
    (Text.fieldsOf ',' raw).map Text.trim = [r.record, r.keyword] ∧
      tokenFault? .record r.record = none ∧ tokenFault? .keyword r.keyword = none := by
  rw [parse]
  split
  · next record keyword htokens =>
    rw [htokens]
    constructor
    · intro h
      cases hrecord : tokenFault? .record record with
      | some fault => simp [hrecord] at h
      | none =>
        cases hkeyword : tokenFault? .keyword keyword with
        | some fault => simp [hrecord, hkeyword] at h
        | none =>
          simp only [hrecord, hkeyword] at h
          obtain rfl := Except.ok.inj h
          exact ⟨rfl, hrecord, hkeyword⟩
    · rintro ⟨htext, hrecord, hkeyword⟩
      simp only [List.cons.injEq, and_true] at htext
      obtain ⟨rfl, rfl⟩ := htext
      simp [hrecord, hkeyword]
  · next htokens =>
    constructor
    · intro h
      cases h
    · rintro ⟨htext, -⟩
      exact absurd htext (htokens _ _)

/-- Nothing is wrong with the tokens of a reference. -/
theorem tokenFault?_of_parse (h : parse raw = .ok r) :
    tokenFault? .record r.record = none ∧ tokenFault? .keyword r.keyword = none :=
  (parse_eq_ok_iff.mp h).2

private theorem fieldsOf_eq_pair_iff {a b : String} : Text.fieldsOf ',' raw = [a, b] ↔
    raw = a ++ "," ++ b ∧ ',' ∉ a.toList ∧ ',' ∉ b.toList := by
  have hcomma : String.singleton ',' = "," := by decide
  rw [Text.fieldsOf_eq_iff, hcomma]
  simp [Text.joined]

private theorem map_trim_eq_pair_iff {record keyword : String} (hr : Identifier.IsUsable record)
    (hk : Identifier.IsUsable keyword) :
    (Text.fieldsOf ',' raw).map Text.trim = [record, keyword] ↔
      ∃ a b, Text.IsPadded a record ∧ Text.IsPadded b keyword ∧ raw = a ++ "," ++ b := by
  -- neither token has a comma, so the text is cut at its only one
  constructor
  · intro h
    obtain ⟨a, rest, hfields, ha, hrest⟩ := List.map_eq_cons_iff.mp h
    obtain ⟨b, more, rfl, hb, hmore⟩ := List.map_eq_cons_iff.mp hrest
    obtain rfl := List.map_eq_nil_iff.mp hmore
    refine ⟨a, b, ?_, ?_, (fieldsOf_eq_pair_iff.mp hfields).1⟩
    · exact (Text.trim_eq_iff hr.isBlank_eq_false).mp ha
    · exact (Text.trim_eq_iff hk.isBlank_eq_false).mp hb
  · rintro ⟨a, b, ha, hb, hraw⟩
    have hcomma {padded token : String} (h : Text.IsPadded padded token)
        (ht : Identifier.IsUsable token) : ',' ∉ padded.toList :=
      h.not_mem (by decide) (ht.not_mem (by decide))
    rw [fieldsOf_eq_pair_iff.mpr ⟨hraw, hcomma ha hr, hcomma hb hk⟩, List.map_cons, List.map_cons,
      (Text.trim_eq_iff hr.isBlank_eq_false).mpr ha, (Text.trim_eq_iff hk.isBlank_eq_false).mpr hb]
    rfl

theorem parse_eq_ok_iff_isWritten : parse raw = .ok r ↔ IsWritten raw r := by
  rw [parse_eq_ok_iff, tokenFault?_eq_none_iff, tokenFault?_eq_none_iff, ← Identifier.isUsable_iff,
    ← Identifier.isUsable_iff]
  constructor
  · rintro ⟨htokens, hr, hk⟩
    obtain ⟨a, b, ⟨w₁, w₂, h₁, h₂, rfl⟩, ⟨w₃, w₄, h₃, h₄, rfl⟩, hraw⟩ :=
      (map_trim_eq_pair_iff hr hk).mp htokens
    refine ⟨hr, hk, w₁, w₂, w₃, w₄, by simp [h₁, h₂, h₃, h₄], ?_⟩
    simpa [String.append_assoc] using hraw
  · rintro ⟨hr, hk, w₁, w₂, w₃, w₄, hblank, hraw⟩
    refine ⟨(map_trim_eq_pair_iff hr hk).mpr ⟨w₁ ++ r.record ++ w₂, w₃ ++ r.keyword ++ w₄, ?_, ?_, ?_⟩,
      hr, hk⟩
    · exact ⟨w₁, w₂, hblank w₁ (by simp), hblank w₂ (by simp), rfl⟩
    · exact ⟨w₃, w₄, hblank w₃ (by simp), hblank w₄ (by simp), rfl⟩
    · simpa [String.append_assoc] using hraw

/-- The normal form is written without any blanks. -/
theorem isWritten_text (hr : Identifier.IsUsable r.record) (hk : Identifier.IsUsable r.keyword) :
    IsWritten r.text r :=
  ⟨hr, hk, "", "", "", "", by simp [Text.isBlankText], by simp [text]⟩

/-- A text is read as a reference just when the grammar writes that reference so, and no text writes
two references. What has been read has the normal form of two tokens with a comma between them, and
is read from it again. -/
theorem parses_exactly_the_grammar (raw : String) :
    (∀ r, parse raw = .ok r ↔ IsWritten raw r) ∧
      (∀ r r', IsWritten raw r → IsWritten raw r' → r = r') ∧
      ∀ r, parse raw = .ok r → r.text = r.record ++ "," ++ r.keyword ∧ parse r.text = .ok r := by
  refine ⟨fun r => parse_eq_ok_iff_isWritten, ?_, ?_⟩
  · intro r r' h h'
    have hparse := parse_eq_ok_iff_isWritten.mpr h
    rw [parse_eq_ok_iff_isWritten.mpr h'] at hparse
    exact (Except.ok.inj hparse).symm
  · intro r h
    have hwritten := parse_eq_ok_iff_isWritten.mp h
    exact ⟨rfl, parse_eq_ok_iff_isWritten.mpr (isWritten_text hwritten.record hwritten.keyword)⟩

/-- Blanks of several kinds around both tokens. -/
theorem padded_reference_is_read :
    parse "\u00a0VINI\t,\n_pn2\u3000" = .ok ⟨"VINI", "_pn2"⟩ ∧
      IsWritten "\u00a0VINI\t,\n_pn2\u3000" ⟨"VINI", "_pn2"⟩ ∧
      parse "VINI,_pn2" = .ok ⟨"VINI", "_pn2"⟩ := by
  have hparse : parse "\u00a0VINI\t,\n_pn2\u3000" = .ok ⟨"VINI", "_pn2"⟩ := by rfl
  obtain ⟨hgrammar, -, hnormal⟩ := parses_exactly_the_grammar "\u00a0VINI\t,\n_pn2\u3000"
  exact ⟨hparse, (hgrammar _).mp hparse, (hnormal _ hparse).2⟩

example : parse "VINI,PN\u200b" = .error (.notIdentifier .keyword "PN\u200b") := by rfl

end VpdHeaders.Reference
