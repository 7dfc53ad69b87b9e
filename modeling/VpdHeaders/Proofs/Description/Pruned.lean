import VpdHeaders.Proofs.Description.Kept

/-! # Taking entries out of a description beforehand, against dropping them while it is read -/
namespace VpdHeaders

namespace Tree

/-- Whether pruning leaves an entry in its place. Only entries with a string for a key are taken out. -/
def stays (dropped : String → Tree → Bool) : Tree × Tree → Bool
  | (.string name, value) => !dropped name value
  | _ => true

/-- A mapping without the entries that are to be dropped, and with what `inner` makes of the values
that are left. Whatever is no mapping stays as it is. -/
def prune (dropped : String → Tree → Bool) (inner : Tree → Tree) : Tree → Tree
  | .mapping entries =>
    .mapping ((entries.filter (stays dropped)).map fun e => (e.1, inner e.2))
  | t => t

end Tree

namespace Traced

variable {α β : Type}

/-- Two computations are the same, provided that the second succeeds. -/
def Agrees (m m' : Traced α) : Prop := ∀ a, m'.result = .ok a → m = m'

theorem Agrees.refl (m : Traced α) : m.Agrees m := fun _ _ => rfl

theorem Agrees.bind {m m' : Traced α} {f f' : α → Traced β} (h : m.Agrees m')
    (hf : ∀ a, (f a).Agrees (f' a)) : (m >>= f).Agrees (m' >>= f') := by
  intro b hb
  obtain ⟨a, ha, hb⟩ := result_bind_eq_ok.mp hb
  rw [h a ha, bind_of_ok ha, bind_of_ok ha, hf a b hb]

end Traced

namespace Description

variable {α β : Type} {dropped : String → Tree → Bool} {inner : Tree → Tree}

def pruneEntries (dropped : String → Tree → Bool) (inner : Tree → Tree)
    (l : List (String × Tree)) : List (String × Tree) :=
  (l.filter fun e => !dropped e.1 e.2).map fun e => (e.1, inner e.2)

private theorem named_prune (location : Location) (es : List (Tree × Tree)) :
    named location ((es.filter (Tree.stays dropped)).map fun e => (e.1, inner e.2)) =
      (named location es).map (pruneEntries dropped inner) := by
  induction es with
  | nil => rfl
  | cons e rest ih =>
    obtain ⟨key, value⟩ := e
    cases key with
    | string name =>
      cases hd : dropped name value <;> cases hr : named location rest <;>
        simp [named, Tree.stays, pruneEntries, Except.map, hd, hr, ih]
    | _ => rfl

/-- Dropping entries while reading them is, the warnings apart, reading what pruning leaves. -/
theorem collect_prune (dropped : String → Tree → Bool) (inner : Tree → Tree)
    (lenient strict : List α → String → Tree → Traced (Option α))
    (drop : ∀ earlier name value, dropped name value = true →
      (lenient earlier name value).withoutWarnings = pure none)
    (keep : ∀ earlier name value, dropped name value = false →
      (lenient earlier name value).withoutWarnings = strict earlier name (inner value))
    (earlier : List α) (l : List (String × Tree)) :
    (collect lenient earlier l).withoutWarnings =
      collect strict earlier (pruneEntries dropped inner l) := by
  induction l generalizing earlier with
  | nil => rfl
  | cons e rest ih =>
    obtain ⟨name, value⟩ := e
    rw [collect, Traced.withoutWarnings_bind]
    cases hd : dropped name value with
    | true =>
      have hl : pruneEntries dropped inner ((name, value) :: rest) =
          pruneEntries dropped inner rest := by simp [pruneEntries, hd]
      rw [drop earlier name value hd, hl, Traced.pure_bind, Traced.withoutWarnings_bind, ih]
      simp
    | false =>
      have hl : pruneEntries dropped inner ((name, value) :: rest) =
          (name, inner value) :: pruneEntries dropped inner rest := by simp [pruneEntries, hd]
      rw [keep earlier name value hd, hl, collect]
      congr 1
      funext first
      rw [Traced.withoutWarnings_bind, ih]
      rfl

/-- If dropped entries make no difference but for warnings, a place is read leniently as the pruned
place is read strictly: the same faults are met, and else what is left is found. -/
theorem namedEntries_prune {lenient strict : List (String × Tree) → Traced α}
    (h : ∀ l, (lenient l).withoutWarnings = strict (pruneEntries dropped inner l))
    (location : Location) (expected : Expectation) (t : Tree) :
    (namedEntries location expected t >>= lenient).withoutWarnings =
      namedEntries location expected (t.prune dropped inner) >>= strict := by
  cases t with
  | mapping es =>
    have ht : namedEntries location expected (.mapping es) = Traced.lift (named location es) := rfl
    have hp : namedEntries location expected ((Tree.mapping es).prune dropped inner) =
        Traced.lift ((named location es).map (pruneEntries dropped inner)) :=
      congrArg Traced.lift (named_prune location es)
    rw [ht, hp, Traced.withoutWarnings_bind, Traced.withoutWarnings_lift]
    cases named location es with
    | error e => rfl
    | ok l => exact h l
  | null => exact h []
  | _ => rfl

theorem collect_agrees {lenient strict : List α → String → Tree → Traced (Option α)}
    (h : ∀ earlier name value, (lenient earlier name value).Agrees (strict earlier name value))
    (earlier : List α) (l : List (String × Tree)) :
    (collect lenient earlier l).Agrees (collect strict earlier l) := by
  induction l generalizing earlier with
  | nil => exact .refl _
  | cons e rest ih =>
    obtain ⟨name, value⟩ := e
    exact (h earlier name value).bind fun first => (ih _).bind fun others => .refl _

theorem collect_withoutWarnings {read : List α → String → Tree → Traced (Option α)}
    (h : ∀ earlier name value, (read earlier name value).withoutWarnings = read earlier name value)
    (earlier : List α) (l : List (String × Tree)) :
    (collect read earlier l).withoutWarnings = collect read earlier l := by
  induction l generalizing earlier with
  | nil => rfl
  | cons e rest ih =>
    obtain ⟨name, value⟩ := e
    simp only [collect, Traced.withoutWarnings_bind, h, ih, Traced.withoutWarnings_pure]

section Named

variable {kind : EntryKind} {location : Location} {name : String} {body body' : Traced (Option α)}

theorem named_of_not_blank (h : Text.isBlankText name = false) (policy : EmptyPolicy) :
    (keepsName policy kind location name >>= fun k => if (!k) = true then pure none else body) =
      body := by
  rw [keepsName_of_not_blank h, Traced.pure_bind]
  rfl

theorem named_of_blank (h : Text.isBlankText name = true) :
    (keepsName .skip kind location name >>= fun k =>
      if (!k) = true then pure none else body).withoutWarnings = pure none := by
  rw [keepsName_skip_of_blank h]
  rfl

/-- Where an entry with a name is read the same way, so is any that the strict policy accepts. -/
theorem named_agrees (h : body.Agrees body') :
    (keepsName .skip kind location name >>= fun k =>
      if (!k) = true then pure none else body).Agrees
    (keepsName .reject kind location name >>= fun k =>
      if (!k) = true then pure none else body') := by
  cases hb : Text.isBlankText name with
  | false => rwa [named_of_not_blank hb, named_of_not_blank hb]
  | true =>
    rw [keepsName_reject_of_blank hb]
    intro a ha
    cases ha

theorem named_withoutWarnings (h : body.withoutWarnings = body) :
    (keepsName .reject kind location name >>= fun k =>
      if (!k) = true then pure none else body).withoutWarnings =
    keepsName .reject kind location name >>= fun k => if (!k) = true then pure none else body := by
  cases hb : Text.isBlankText name with
  | false => rwa [named_of_not_blank hb]
  | true =>
    rw [keepsName_reject_of_blank hb]
    rfl

end Named

end Description

end VpdHeaders
