import VpdHeaders.Proofs.Description.Kept

/-! # All that is wrong with a description, in the order of a visit that never stops

A reader stops at the first fault that it meets. A visit goes on: it lists the faults of a mapping
itself and then those of its entries, one entry after the other. -/
namespace VpdHeaders

namespace Traced

variable {α β : Type}

def fault? (m : Traced α) : Option Error :=
  match m.result with
  | .error e => some e
  | .ok _ => none

theorem fault?_eq_some_iff {m : Traced α} {e : Error} : m.fault? = some e ↔ m.result = .error e := by
  cases h : m.result <;> simp [fault?, h]

theorem fault?_eq_none_iff {m : Traced α} : m.fault? = none ↔ ∃ a, m.result = .ok a := by
  cases h : m.result <;> simp [fault?, h]

/-- A computation stops at the first of these faults, and succeeds if there are none. -/
def Reports (m : Traced α) (faults : List Error) : Prop := m.fault? = faults.head?

theorem Reports.error_iff {m : Traced α} {faults : List Error} (h : m.Reports faults) (e : Error) :
    m.result = .error e ↔ faults.head? = some e := by
  rw [← fault?_eq_some_iff, h]

theorem Reports.ok_iff {m : Traced α} {faults : List Error} (h : m.Reports faults) :
    (∃ a, m.result = .ok a) ↔ faults = [] := by
  rw [← fault?_eq_none_iff, h, List.head?_eq_none_iff]

theorem reports_of_ok {m : Traced α} {a : α} (h : m.result = .ok a) : m.Reports [] := by
  rw [Reports, List.head?_nil, fault?_eq_none_iff]
  exact ⟨a, h⟩

theorem reports_of_error {m : Traced α} {e : Error} (h : m.result = .error e) : m.Reports [e] := by
  rw [Reports, List.head?_cons, fault?_eq_some_iff]
  exact h

/-- Where the first part of a sequence finds nothing, the faults of the second part come next. -/
theorem Reports.bind {m : Traced α} {next : α → Traced β} {faults later : List Error}
    (h : m.Reports faults) (hnext : ∀ a, m.result = .ok a → (next a).Reports later) :
    (m >>= next).Reports (faults ++ later) := by
  cases hm : m.result with
  | error e =>
    have hfirst := (h.error_iff e).mp hm
    rw [Reports, List.head?_append, hfirst, bind_of_error hm]
    rfl
  | ok a =>
    rw [h.ok_iff.mp ⟨a, hm⟩, List.nil_append, bind_of_ok hm]
    exact hnext a hm

theorem Reports.bind_ok {m : Traced α} {next : α → Traced β} {faults : List Error}
    (h : m.Reports faults) (hnext : ∀ a, ∃ b, (next a).result = .ok b) :
    (m >>= next).Reports faults := by
  rw [← List.append_nil faults]
  refine h.bind fun a _ => ?_
  obtain ⟨b, hb⟩ := hnext a
  exact reports_of_ok hb

end Traced

namespace Tree

def isString : Tree → Bool
  | .string _ => true
  | _ => false

end Tree

namespace Description

/-- A value that is neither a mapping nor an untagged null, where a mapping is expected. -/
def shapeFaults (location : Location) (expected : Expectation) : Tree → List Error
  | .mapping _ => []
  | .null => []
  | found => [.shape location expected found]

/-- The first key of a mapping that is no string, with the place of the mapping. -/
def keyFaults (location : Location) (t : Tree) : List Error :=
  ((t.mappingEntries.map Prod.fst).find? fun key => !key.isString).toList.map
    (.shape location .stringKey)

def tableFaults (location : Location) (expected : Expectation) (t : Tree) : List Error :=
  shapeFaults location expected t ++ keyFaults location t

def nameFaults (kind : EntryKind) (location : Location) (name : String) : List Error :=
  if Text.isBlankText name then [.emptyName location kind] else []

/-- The faults of entries in their order. Those of an entry may depend on the entries before it. -/
def entryFaults (faults : List (String × Tree) → String × Tree → List Error)
    (before : List (String × Tree)) : List (String × Tree) → List Error
  | [] => []
  | e :: rest => faults before e ++ entryFaults faults (before ++ [e]) rest

theorem entryFaults_const (faults : String × Tree → List Error) (before l : List (String × Tree)) :
    entryFaults (fun _ => faults) before l = l.flatMap faults := by
  induction l generalizing before with
  | nil => rfl
  | cons e rest ih => rw [entryFaults, ih, List.flatMap_cons]

private theorem named_reports (location : Location) (es : List (Tree × Tree)) :
    (Traced.lift (named location es)).Reports (keyFaults location (.mapping es)) := by
  induction es with
  | nil => exact Traced.reports_of_ok rfl
  | cons e rest ih =>
    obtain ⟨key, value⟩ := e
    cases key with
    | string name =>
      have hfaults : keyFaults location (.mapping ((.string name, value) :: rest)) =
          keyFaults location (.mapping rest) := rfl
      rw [hfaults, Traced.Reports, ← ih]
      cases hr : named location rest <;> simp [named, hr, Except.map, Traced.fault?]
    | _ => exact Traced.reports_of_error rfl

private theorem namedEntries_reports (location : Location) (expected : Expectation) (t : Tree) :
    (namedEntries location expected t).Reports (tableFaults location expected t) := by
  cases t with
  | mapping es => exact named_reports location es
  | null => exact Traced.reports_of_ok rfl
  | _ => exact Traced.reports_of_error rfl

variable {α : Type}

/-- The faults of a mapping itself come before those of its entries. -/
theorem reports_namedEntries_bind {location : Location} {expected : Expectation} {t : Tree}
    {next : List (String × Tree) → Traced α} {later : List Error}
    (h : (next t.stringEntries).Reports later) :
    (namedEntries location expected t >>= next).Reports
      (tableFaults location expected t ++ later) := by
  refine (namedEntries_reports location expected t).bind fun l hl => ?_
  obtain ⟨-, rfl⟩ := namedEntries_eq_ok_iff.mp hl
  exact h

/-- A blank name comes before all that is wrong with the value under it. -/
theorem reports_named {policy : EmptyPolicy} {kind : EntryKind} {location : Location} {name : String}
    {body : Traced (Option α)} {later : List Error}
    (hd : drops policy (Text.isBlankText name) = false) (h : body.Reports later) :
    (keepsName policy kind location name >>= fun k => if (!k) = true then pure none else body).Reports
      (nameFaults kind location name ++ later) := by
  cases hb : Text.isBlankText name with
  | false =>
    rw [keepsName_of_not_blank hb, Traced.pure_bind, nameFaults, hb]
    exact h
  | true =>
    cases policy with
    | reject =>
      rw [keepsName_reject_of_blank hb, Traced.fail_bind, nameFaults, hb]
      rfl
    | skip => simp [hb] at hd

/-- A value that counts as one leaves the faults to what is made of it. -/
theorem reports_valued {policy : EmptyPolicy} {empty : Bool} {event : Event}
    {body : Traced (Option α)} {faults : List Error} (hd : drops policy empty = false)
    (h : body.Reports faults) :
    (if (decide (policy = .skip) && empty) = true then Traced.log event >>= fun _ => pure none
      else body).Reports faults := by
  change (if drops policy empty = true then _ else _ : Traced (Option α)).Reports faults
  rwa [hd]

section Collect

variable {read : List α → String → Tree → Traced (Option α)} (dropped : String × Tree → Bool)
  (Gives : String × Tree → α → Prop)
  (faults : List (String × Tree) → String × Tree → List Error)

/-- A list of entries reports the faults of the entries that are not dropped, in their order, if each
entry reports its own faults after entries that have all given something. -/
theorem collect_reports
    (none_iff : ∀ earlier name value,
      (read earlier name value).result = .ok none ↔ dropped (name, value) = true)
    (gives : ∀ earlier name value a, (read earlier name value).result = .ok (some a) →
      Gives (name, value) a)
    (reports : ∀ before earlier name value, List.Forall₂ Gives before earlier →
      dropped (name, value) = false → (read earlier name value).Reports (faults before (name, value)))
    {before : List (String × Tree)} {earlier : List α} (h : List.Forall₂ Gives before earlier)
    (l : List (String × Tree)) :
    (collect read earlier l).Reports
      (entryFaults faults before (l.filter fun e => !dropped e)) := by
  induction l generalizing before earlier with
  | nil => exact Traced.reports_of_ok rfl
  | cons e rest ih =>
    obtain ⟨name, value⟩ := e
    rw [collect]
    -- what is collected from the rest makes no difference to the faults
    have hrest {first : Option α} {before : List (String × Tree)}
        (h : List.Forall₂ Gives before (earlier ++ first.toList)) :
        (collect read (earlier ++ first.toList) rest >>= fun others =>
          pure (first.toList ++ others)).Reports
            (entryFaults faults before (rest.filter fun e => !dropped e)) :=
      (ih h).bind_ok fun _ => ⟨_, rfl⟩
    cases hd : dropped (name, value) with
    | true =>
      have hnone := (none_iff earlier name value).mpr hd
      rw [List.filter_cons_of_neg (by simp [hd])]
      refine (Traced.reports_of_ok hnone).bind fun first hfirst => ?_
      obtain rfl := Except.ok.inj (hnone.symm.trans hfirst)
      exact hrest (by simpa using h)
    | false =>
      rw [List.filter_cons_of_pos (by simp [hd]), entryFaults]
      refine (reports before earlier name value h hd).bind fun first hfirst => ?_
      cases first with
      | none => simp [(none_iff earlier name value).mp hfirst] at hd
      | some a => exact hrest (List.rel_append h (.cons (gives earlier name value a hfirst) .nil))

/-- The same where no entry depends on those before it. -/
theorem collect_const_reports {read : String → Tree → Traced (Option α)}
    {faults : String × Tree → List Error}
    (none_iff : ∀ name value,
      (read name value).result = .ok none ↔ dropped (name, value) = true)
    (reports : ∀ name value, dropped (name, value) = false →
      (read name value).Reports (faults (name, value)))
    (l : List (String × Tree)) :
    (collect (fun _ => read) [] l).Reports ((l.filter fun e => !dropped e).flatMap faults) := by
  rw [← entryFaults_const faults []]
  exact collect_reports dropped (fun _ _ => True) (fun _ => faults) (fun _ => none_iff)
    (fun _ _ _ _ _ => trivial) (fun _ _ name value _ => reports name value) .nil l

end Collect

end Description

end VpdHeaders
