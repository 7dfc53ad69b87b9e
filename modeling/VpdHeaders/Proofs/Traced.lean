import Mathlib.Data.List.Basic
import VpdHeaders.Traced

/-! # Laws of traced computations: what a sequence returns, and its log without the warnings -/
namespace VpdHeaders.Traced

variable {α β : Type}

@[simp] theorem result_pure (a : α) : (pure a : Traced α).result = .ok a := rfl

@[simp] theorem result_fail (e : Error) : (fail e : Traced α).result = .error e := rfl

@[simp] theorem result_lift (r : Except Error α) : (lift r).result = r := rfl

@[simp] theorem result_log (e : Event) : (log e).result = .ok () := rfl

theorem bind_of_ok {m : Traced α} {a : α} (h : m.result = .ok a) (next : α → Traced β) :
    m >>= next = ⟨m.events ++ (next a).events, (next a).result⟩ := by
  change m.andThen next = _
  simp [andThen, h]

theorem bind_of_error {m : Traced α} {e : Error} (h : m.result = .error e)
    (next : α → Traced β) : m >>= next = ⟨m.events, .error e⟩ := by
  change m.andThen next = _
  simp [andThen, h]

@[simp] theorem pure_bind (a : α) (next : α → Traced β) : pure a >>= next = next a :=
  bind_of_ok rfl next

@[simp] theorem fail_bind (e : Error) (next : α → Traced β) : fail e >>= next = fail e :=
  bind_of_error rfl next

@[simp] theorem bind_pure (m : Traced α) : (m >>= fun a => pure a) = m := by
  obtain ⟨events, result⟩ := m
  cases result with
  | error e => exact bind_of_error rfl _
  | ok a => exact (bind_of_ok rfl _).trans (by simp [pure, ok])

@[simp] theorem bind_assoc {γ : Type} (m : Traced α) (f : α → Traced β) (g : β → Traced γ) :
    m >>= f >>= g = m >>= fun a => f a >>= g := by
  cases h : m.result with
  | error e =>
    rw [bind_of_error h, bind_of_error h]
    exact bind_of_error rfl g
  | ok a =>
    rw [bind_of_ok h, bind_of_ok h]
    cases hf : (f a).result with
    | error e =>
      rw [bind_of_error hf]
      exact bind_of_error rfl g
    | ok b =>
      rw [bind_of_ok hf]
      exact (bind_of_ok rfl g).trans (by simp)

theorem lift_map_bind {γ : Type} (r : Except Error α) (f : α → β) (next : β → Traced γ) :
    lift (r.map f) >>= next = lift r >>= fun a => next (f a) := by
  cases r <;> rfl

theorem events_lift_bind {r : Except Error α} {next : α → Traced β}
    (h : ∀ a, (next a).events = []) : (lift r >>= next).events = [] := by
  cases r with
  | error e => rfl
  | ok a => exact (congrArg events (bind_of_ok rfl next)).trans (h a)

theorem result_bind_eq_ok {m : Traced α} {next : α → Traced β} {b : β} :
    (m >>= next).result = .ok b ↔ ∃ a, m.result = .ok a ∧ (next a).result = .ok b := by
  cases h : m.result with
  | error e => simp [bind_of_error h]
  | ok a => simp [bind_of_ok h]

/-- A sequence fails with its first part, or with its second part after a first that succeeds. -/
theorem result_bind_eq_error {m : Traced α} {next : α → Traced β} {e : Error} :
    (m >>= next).result = .error e ↔
      m.result = .error e ∨ ∃ a, m.result = .ok a ∧ (next a).result = .error e := by
  cases h : m.result with
  | error e' => simp [bind_of_error h]
  | ok a => simp [bind_of_ok h]

/-- Going on with something that always succeeds. -/
theorem result_bind_of_ok {m : Traced α} {next : α → Traced β} {f : α → β}
    (h : ∀ a, (next a).result = .ok (f a)) : (m >>= next).result = m.result.map f := by
  cases hm : m.result with
  | error e => rw [bind_of_error hm, Except.map]
  | ok a => rw [bind_of_ok hm, h, Except.map]

def withoutWarnings (m : Traced α) : Traced α :=
  ⟨m.events.filter fun e => decide (e.level ≠ .warn), m.result⟩

theorem level_ne_warn {m : Traced α} (h : m.withoutWarnings = m) :
    ∀ e ∈ m.events, e.level ≠ .warn := by
  intro e he
  rw [← h] at he
  exact of_decide_eq_true (List.mem_filter.mp he).2

@[simp] theorem withoutWarnings_pure (a : α) :
    (pure a : Traced α).withoutWarnings = pure a := rfl

@[simp] theorem withoutWarnings_lift (r : Except Error α) :
    (lift r).withoutWarnings = lift r := rfl

theorem withoutWarnings_bind (m : Traced α) (next : α → Traced β) :
    (m >>= next).withoutWarnings = m.withoutWarnings >>= fun a => (next a).withoutWarnings := by
  cases h : m.result with
  | error e =>
    have h' : m.withoutWarnings.result = .error e := h
    rw [bind_of_error h, bind_of_error h']
    rfl
  | ok a =>
    have h' : m.withoutWarnings.result = .ok a := h
    rw [bind_of_ok h, bind_of_ok h']
    simp [withoutWarnings]

end VpdHeaders.Traced
