import Mathlib.Data.List.Forall2
import VpdHeaders.Description
import VpdHeaders.Proofs.Traced

/-! # The entries of a mapping that a policy keeps, and what reading them one by one collects -/
namespace VpdHeaders

namespace Tree

/-- What a mapping holds. Nothing else holds any. -/
def mappingEntries : Tree → List (Tree × Tree)
  | .mapping entries => entries
  | _ => []

def stringEntries (t : Tree) : List (String × Tree) :=
  t.mappingEntries.filterMap fun
    | (.string name, value) => some (name, value)
    | _ => none

/-- A mapping, or an untagged null in the place of an empty one. -/
inductive IsMapping : Tree → Prop
  | null : IsMapping .null
  | mapping (entries : List (Tree × Tree)) : IsMapping (.mapping entries)

def HasStringKeys (t : Tree) : Prop := ∀ e ∈ t.mappingEntries, ∃ name, e.1 = .string name

structure IsTable (t : Tree) : Prop where
  mapping : t.IsMapping
  stringKeys : t.HasStringKeys

end Tree

namespace Description

/-- Whether a policy drops an entry whose name or value counts as empty. -/
def drops (policy : EmptyPolicy) (empty : Bool) : Bool := decide (policy = .skip) && empty

@[simp] theorem drops_reject (empty : Bool) : drops .reject empty = false := rfl

@[simp] theorem drops_skip (empty : Bool) : drops .skip empty = empty := rfl

@[simp] theorem drops_false (policy : EmptyPolicy) : drops policy false = false := Bool.and_false _

theorem drops_or_eq_false_iff {policy : EmptyPolicy} {empty empty' : Bool} :
    drops policy (empty || empty') = false ↔
      drops policy empty = false ∧ drops policy empty' = false := by
  cases policy <;> simp

/-- The entries that are not dropped for a blank name. -/
def kept (policy : EmptyPolicy) (t : Tree) : List (String × Tree) :=
  t.stringEntries.filter fun e => !drops policy (Text.isBlankText e.1)

/-- Whatever is not dropped has a name: either blank names are dropped, or there are none. -/
theorem named_of_mem_filter {policy : EmptyPolicy} {l : List (String × Tree)}
    {empty : String × Tree → Bool} (hempty : ∀ e, Text.isBlankText e.1 = true → empty e = true)
    (h : policy = .reject → ∀ e ∈ l, Text.isBlankText e.1 = false) {e : String × Tree}
    (he : e ∈ l.filter fun e => !drops policy (empty e)) : Text.isBlankText e.1 = false := by
  obtain ⟨hl, hd⟩ := List.mem_filter.mp he
  cases policy with
  | reject => exact h rfl e hl
  | skip =>
    cases hb : Text.isBlankText e.1 with
    | false => rfl
    | true => simp [hempty e hb] at hd

private theorem entries_eq_ok_iff {location : Location} {expected : Expectation} {t : Tree}
    {es : List (Tree × Tree)} :
    entries location expected t = .ok es ↔ t.IsMapping ∧ es = t.mappingEntries := by
  constructor
  · intro h
    cases t <;> simp only [entries, reduceCtorEq, Except.ok.injEq] at h
    · exact ⟨.null, h.symm⟩
    · exact ⟨.mapping _, h.symm⟩
  · rintro ⟨h, rfl⟩
    cases h <;> rfl

private theorem named_eq_ok_iff {location : Location} {es : List (Tree × Tree)}
    {l : List (String × Tree)} :
    named location es = .ok l ↔
      (Tree.mapping es).HasStringKeys ∧ l = (Tree.mapping es).stringEntries := by
  induction es generalizing l with
  | nil => simp [named, Tree.HasStringKeys, Tree.stringEntries, Tree.mappingEntries, eq_comm]
  | cons e rest ih =>
    obtain ⟨key, value⟩ := e
    simp only [Tree.HasStringKeys, Tree.stringEntries, Tree.mappingEntries] at ih ⊢
    cases key with
    | string name =>
      cases hr : named location rest with
      | error e =>
        have hn : ¬ ∀ e ∈ rest, ∃ name, e.1 = Tree.string name := fun hk => by
          simpa [hr] using ih.mpr ⟨hk, rfl⟩
        simpa [named, Except.map, hr] using fun hk => absurd (fun e he => hk e.1 e.2 he) hn
      | ok others =>
        obtain ⟨hk, rfl⟩ := ih.mp hr
        simpa [named, Except.map, hr, eq_comm] using fun _ => hk
    | _ => simp [named]

theorem namedEntries_eq_ok_iff {location : Location} {expected : Expectation} {t : Tree}
    {l : List (String × Tree)} :
    (namedEntries location expected t).result = .ok l ↔ t.IsTable ∧ l = t.stringEntries := by
  have h : (namedEntries location expected t).result = .ok l ↔
      ∃ es, entries location expected t = .ok es ∧ named location es = .ok l := by
    cases he : entries location expected t <;> simp [namedEntries, he, bind, Except.bind]
  simp only [h, entries_eq_ok_iff, named_eq_ok_iff]
  constructor
  · rintro ⟨es, ⟨hm, rfl⟩, hk, rfl⟩
    exact ⟨⟨hm, hk⟩, rfl⟩
  · rintro ⟨⟨hm, hk⟩, rfl⟩
    exact ⟨_, ⟨hm, rfl⟩, hk, rfl⟩

/-- Going on with the entries below a place succeeds on tables only, and with their entries. -/
theorem namedEntries_bind_eq_ok_iff {α : Type} {location : Location} {expected : Expectation}
    {t : Tree} {next : List (String × Tree) → Traced α} {a : α} :
    (namedEntries location expected t >>= next).result = .ok a ↔
      t.IsTable ∧ (next t.stringEntries).result = .ok a := by
  rw [Traced.result_bind_eq_ok]
  constructor
  · rintro ⟨l, hl, ha⟩
    obtain ⟨ht, rfl⟩ := namedEntries_eq_ok_iff.mp hl
    exact ⟨ht, ha⟩
  · rintro ⟨ht, ha⟩
    exact ⟨_, namedEntries_eq_ok_iff.mpr ⟨ht, rfl⟩, ha⟩

theorem keepsName_of_not_blank {name : String} (h : Text.isBlankText name = false)
    (policy : EmptyPolicy) (kind : EntryKind) (location : Location) :
    keepsName policy kind location name = pure true := by
  simp [keepsName, h, pure]

theorem keepsName_reject_of_blank {name : String} (h : Text.isBlankText name = true)
    (kind : EntryKind) (location : Location) :
    keepsName .reject kind location name = Traced.fail (.emptyName location kind) := by
  simp [keepsName, h]

theorem keepsName_skip_of_blank {name : String} (h : Text.isBlankText name = true)
    (kind : EntryKind) (location : Location) :
    keepsName .skip kind location name = ⟨[.skippedName location kind], .ok false⟩ := by
  simp only [keepsName, h]
  rfl

section Named

variable {α : Type} {policy : EmptyPolicy} {kind : EntryKind} {location : Location} {name : String}
  {body : Traced (Option α)}

/-- An entry gives nothing if its name is dropped, or if it has a name but its content gives nothing. -/
theorem named_none_iff :
    (keepsName policy kind location name >>= fun k => if (!k) = true then pure none else body).result
        = .ok none ↔
      drops policy (Text.isBlankText name) = true ∨
        Text.isBlankText name = false ∧ body.result = .ok none := by
  cases h : Text.isBlankText name with
  | false => simp [keepsName_of_not_blank h, drops]
  | true =>
    cases policy with
    | reject => simp [keepsName_reject_of_blank h]
    | skip => simp [keepsName_skip_of_blank h, Traced.result_bind_eq_ok]

theorem named_some_iff {a : α} :
    (keepsName policy kind location name >>= fun k => if (!k) = true then pure none else body).result
        = .ok (some a) ↔
      Text.isBlankText name = false ∧ body.result = .ok (some a) := by
  cases h : Text.isBlankText name with
  | false => simp [keepsName_of_not_blank h]
  | true =>
    cases policy with
    | reject => simp [keepsName_reject_of_blank h]
    | skip => simp [keepsName_skip_of_blank h, Traced.result_bind_eq_ok]

variable {empty : Bool} {event : Event}

/-- A property gives nothing if its value is dropped, or if it has one that gives nothing. -/
theorem valued_none_iff :
    (if (decide (policy = .skip) && empty) = true then Traced.log event >>= fun _ => pure none
      else body).result = .ok none ↔
      drops policy empty = true ∨ drops policy empty = false ∧ body.result = .ok none := by
  change (if drops policy empty = true then _ else _ : Traced (Option α)).result = _ ↔ _
  cases h : drops policy empty with
  | false => simp
  | true => simp [Traced.result_bind_eq_ok]

theorem valued_some_iff {a : α} :
    (if (decide (policy = .skip) && empty) = true then Traced.log event >>= fun _ => pure none
      else body).result = .ok (some a) ↔
      drops policy empty = false ∧ body.result = .ok (some a) := by
  change (if drops policy empty = true then _ else _ : Traced (Option α)).result = _ ↔ _
  cases h : drops policy empty with
  | false => simp
  | true => simp [Traced.result_bind_eq_ok]

end Named

section Collect

variable {α : Type} {read : List α → String → Tree → Traced (Option α)}

private theorem collect_cons_eq_ok_iff {earlier out : List α} {name : String} {value : Tree}
    {rest : List (String × Tree)} :
    (collect read earlier ((name, value) :: rest)).result = .ok out ↔
      ∃ first others, (read earlier name value).result = .ok first ∧
        (collect read (earlier ++ first.toList) rest).result = .ok others ∧
        out = first.toList ++ others := by
  simp only [collect, Traced.result_bind_eq_ok, Traced.result_pure, Except.ok.injEq]
  constructor
  · rintro ⟨first, hf, others, ho, rfl⟩
    exact ⟨first, others, hf, ho, rfl⟩
  · rintro ⟨first, others, hf, ho, rfl⟩
    exact ⟨first, hf, others, ho, rfl⟩

variable (dropped : String × Tree → Bool) (Gives : String × Tree → α → Prop) (Goes : α → α → Prop)

private theorem collect_cons_some_iff {earlier out : List α} {name : String} {value : Tree}
    {rest : List (String × Tree)} (hn : (read earlier name value).result ≠ .ok none) :
    (collect read earlier ((name, value) :: rest)).result = .ok out ↔
      ∃ a others, (read earlier name value).result = .ok (some a) ∧
        (collect read (earlier ++ [a]) rest).result = .ok others ∧ out = a :: others := by
  rw [collect_cons_eq_ok_iff]
  constructor
  · rintro ⟨first, others, hf, ho, rfl⟩
    cases first with
    | none => exact absurd hf hn
    | some a => exact ⟨a, others, hf, ho, rfl⟩
  · rintro ⟨a, others, hf, ho, rfl⟩
    exact ⟨some a, others, hf, ho, rfl⟩

/-- A list of entries is read with success if each entry that is not dropped gives a value, and each
of the values goes with all that come before it. -/
theorem collect_eq_ok_iff
    (none_iff : ∀ earlier name value,
      (read earlier name value).result = .ok none ↔ dropped (name, value) = true)
    (some_iff : ∀ earlier name value a, (read earlier name value).result = .ok (some a) ↔
      dropped (name, value) = false ∧ Gives (name, value) a ∧ ∀ b ∈ earlier, Goes b a)
    {earlier out : List α} {l : List (String × Tree)} :
    (collect read earlier l).result = .ok out ↔
      List.Forall₂ Gives (l.filter fun e => !dropped e) out ∧ out.Pairwise Goes ∧
        ∀ b ∈ earlier, ∀ a ∈ out, Goes b a := by
  induction l generalizing earlier out with
  | nil => cases out <;> simp [collect]
  | cons e rest ih =>
    obtain ⟨name, value⟩ := e
    cases hd : dropped (name, value) with
    | true =>
      rw [collect_cons_eq_ok_iff]
      simp [(none_iff earlier name value).mpr hd, hd, ih]
    | false =>
      have hn : (read earlier name value).result ≠ .ok none := by simp [none_iff, hd]
      rw [collect_cons_some_iff hn, List.filter_cons_of_pos (by simp [hd]),
        List.forall₂_cons_left_iff]
      simp only [some_iff, ih, hd, true_and, List.forall_mem_append, List.forall_mem_singleton]
      constructor
      · rintro ⟨a, others, ⟨hg, he⟩, ⟨hall, hpair, hbefore, ha⟩, rfl⟩
        exact ⟨⟨a, others, hg, hall, rfl⟩, List.pairwise_cons.mpr ⟨ha, hpair⟩,
          fun b hb => List.forall_mem_cons.mpr ⟨he b hb, hbefore b hb⟩⟩
      · rintro ⟨⟨a, others, hg, hall, rfl⟩, hpair, hbefore⟩
        obtain ⟨ha, hpair⟩ := List.pairwise_cons.mp hpair
        exact ⟨a, others, ⟨hg, fun b hb => (List.forall_mem_cons.mp (hbefore b hb)).1⟩,
          ⟨hall, hpair, fun b hb => (List.forall_mem_cons.mp (hbefore b hb)).2, ha⟩, rfl⟩

/-- The same where no entry depends on those before it. -/
theorem collect_const_eq_ok_iff {read : String → Tree → Traced (Option α)}
    (none_iff : ∀ name value,
      (read name value).result = .ok none ↔ dropped (name, value) = true)
    (some_iff : ∀ name value a, (read name value).result = .ok (some a) ↔
      dropped (name, value) = false ∧ Gives (name, value) a)
    {out : List α} {l : List (String × Tree)} :
    (collect (fun _ => read) [] l).result = .ok out ↔
      List.Forall₂ Gives (l.filter fun e => !dropped e) out := by
  rw [collect_eq_ok_iff dropped Gives (fun _ _ => True) (fun _ => none_iff)
    (fun _ name value a => by simpa using some_iff name value a)]
  simp [List.pairwise_of_forall]

end Collect

end VpdHeaders.Description
