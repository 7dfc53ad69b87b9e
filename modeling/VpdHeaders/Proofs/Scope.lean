import VpdHeaders.Config.File

/-! # The scopes that are accepted -/
namespace VpdHeaders.Scope

variable {scope : List String}

theorem segmentFault?_eq_none_iff {segment : String} :
    segmentFault? segment = none ↔
      Identifier.isValid segment = true ∧ Identifier.reservation? segment = none := by
  cases h : Identifier.isValid segment <;> simp [segmentFault?, h]

theorem check_eq_ok_iff {segments : List String} :
    check segments = .ok scope ↔
      segments = scope ∧ ∀ segment ∈ scope, segmentFault? segment = none := by
  rw [check]
  cases h : segments.findSome? segmentFault? with
  | some fault =>
    obtain ⟨segment, hs, hf⟩ := List.exists_of_findSome?_eq_some h
    have hfaulty : ¬∀ segment ∈ segments, segmentFault? segment = none := by
      intro hall
      simp [hall segment hs] at hf
    constructor
    · intro hc
      simp at hc
    · rintro ⟨rfl, hall⟩
      exact absurd hall hfaulty
  | none =>
    rw [List.findSome?_eq_none_iff] at h
    constructor
    · intro hc
      obtain rfl := Except.ok.inj hc
      exact ⟨rfl, h⟩
    · rintro ⟨rfl, -⟩
      rfl

theorem usable_of_parse {spec : String} (h : parse spec = .ok scope) :
    ∀ segment ∈ scope, segmentFault? segment = none := by
  rw [parse] at h
  split at h
  · obtain rfl := Except.ok.inj h
    simp
  · exact (check_eq_ok_iff.mp h).2

/-- The segments of an accepted scope can stand in the source as they are. -/
theorem isValid_of_parse {spec : String} (h : parse spec = .ok scope) :
    ∀ segment ∈ scope, Identifier.isValid segment = true := fun segment hs =>
  (segmentFault?_eq_none_iff.mp (usable_of_parse h segment hs)).1

private theorem scope_of_ofSettings {s : Config.Settings} {c : Config}
    (h : Config.ofSettings s = .ok c) :
    c.scope = Config.standard.scope ∨ ∃ segments, check segments = .ok c.scope := by
  cases hs : s.scope with
  | none =>
    rw [Config.ofSettings, hs] at h
    obtain rfl := Except.ok.inj h
    exact .inl rfl
  | some segments =>
    simp only [Config.ofSettings, hs] at h
    cases hc : check segments with
    | error fault => rw [hc] at h; exact nomatch h
    | ok scope =>
      rw [hc] at h
      obtain rfl := Except.ok.inj h
      exact .inr ⟨segments, hc⟩

theorem usable_of_ofText {text : String} {c : Config} (h : Config.ofText text = .ok c) :
    ∀ segment ∈ c.scope, segmentFault? segment = none := by
  rw [Config.ofText] at h
  split at h
  · simp at h
  · next settings _ =>
    cases hs : Config.ofSettings settings with
    | error fault => rw [hs] at h; exact nomatch h
    | ok config =>
      rw [hs] at h
      obtain rfl : config = c := Except.ok.inj h
      rcases scope_of_ofSettings hs with hscope | ⟨segments, hc⟩
      · rw [hscope]
        decide
      · exact (check_eq_ok_iff.mp hc).2

inductive Accepted (scope : List String) : Prop
  | spec {spec : String} (h : parse spec = .ok scope)
  | settings {text : String} {c : Config} (h : Config.ofText text = .ok c) (hc : c.scope = scope)

theorem Accepted.isValid (h : Accepted scope) :
    ∀ segment ∈ scope, Identifier.isValid segment = true := by
  cases h with
  | spec h => exact isValid_of_parse h
  | settings h hc =>
    subst hc
    exact fun segment hs => (segmentFault?_eq_none_iff.mp (usable_of_ofText h segment hs)).1

end VpdHeaders.Scope
