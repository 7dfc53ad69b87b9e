import VpdHeaders.Proofs.Description.Kept
import VpdHeaders.Proofs.Pointwise

/-! # What becomes of the entries of a description

The outline of a description lists the entries of all mappings that are looked at, depth first, and
says of each whether it is kept or with which warning it is dropped. -/
namespace VpdHeaders.Description

/-- An entry: the keys that lead to it, and the warning with which it is dropped, if it is. -/
structure Entry where
  location : Location
  warning? : Option Event

/-- What tells the descriptions for one header from those for the other. -/
structure Layout where
  root : EntryKind
  target : Target
  missing : Tree → Bool

namespace Layout

variable (d : Layout) (policy : EmptyPolicy)

def levels : List EntryKind := [d.root, .interface, .property]

/-- The warning with which a policy drops an entry. Values are missed on the last level only. -/
def warning? (kind : EntryKind) (last : Bool) (location : Location) (e : String × Tree) :
    Option Event :=
  if drops policy (Text.isBlankText e.1) then some (.skippedName location kind)
  else if last && drops policy (d.missing e.2) then some (.skippedValue d.target location)
  else none

/-- The entries below a place, depth first. What is inside a dropped entry is not looked at. -/
def outline : List EntryKind → Location → Tree → List Entry
  | [], _, _ => []
  | kind :: below, place, t => t.stringEntries.flatMap fun e =>
    let location := place ++ [e.1]
    let warning := d.warning? policy kind below.isEmpty location e
    ⟨location, warning⟩ :: if warning.isNone then outline below location e.2 else []

def entries (t : Tree) : List Entry := d.outline policy d.levels [] t

def warnings (below : List EntryKind) (place : Location) (t : Tree) : List Event :=
  (d.outline policy below place t).filterMap Entry.warning?

def keptPlaces (below : List EntryKind) (place : Location) (t : Tree) : List Location :=
  ((d.outline policy below place t).filter fun e => e.warning?.isNone).map Entry.location

/-- The warnings for an entry: either its own, or those below it. -/
def entryWarnings (kind : EntryKind) (below : List EntryKind) (location : Location)
    (e : String × Tree) : List Event :=
  let warning := d.warning? policy kind below.isEmpty location e
  warning.toList ++ if warning.isNone then d.warnings policy below location e.2 else []

/-- What is logged: on the first level, either the warning for an entry, or the warnings below it and
then what was built from it. -/
def log (built : String × Tree → Event) (t : Tree) : List Event :=
  t.stringEntries.flatMap fun u =>
    let warning := d.warning? policy d.root false [u.1] u
    warning.toList ++ if warning.isNone then
      d.warnings policy [.interface, .property] [u.1] u.2 ++ [built u] else []

variable {d policy} {kind : EntryKind} {below : List EntryKind} {place : Location} {t : Tree}

theorem isNone_warning? (d : Layout) (policy : EmptyPolicy) (kind : EntryKind) (last : Bool)
    (place : Location) (e : String × Tree) : (d.warning? policy kind last place e).isNone =
      !drops policy (Text.isBlankText e.1 || last && d.missing e.2) := by
  cases last <;> cases policy <;> cases h : Text.isBlankText e.1 <;>
    cases hm : d.missing e.2 <;> simp [warning?, h, hm]

theorem warnings_cons : d.warnings policy (kind :: below) place t =
    t.stringEntries.flatMap fun e => d.entryWarnings policy kind below (place ++ [e.1]) e := by
  simp only [warnings, outline, List.filterMap_flatMap]
  refine List.flatMap_congr fun e _ => ?_
  rw [entryWarnings, warnings]
  cases h : d.warning? policy kind below.isEmpty (place ++ [e.1]) e <;> simp

/-- The places on a level and below, for the entries that are kept there. -/
theorem keptPlaces_cons : d.keptPlaces policy (kind :: below) place t =
    (t.stringEntries.filter fun e =>
      !drops policy (Text.isBlankText e.1 || below.isEmpty && d.missing e.2)).flatMap
        fun e => (place ++ [e.1]) :: d.keptPlaces policy below (place ++ [e.1]) e.2 := by
  simp only [keptPlaces, outline, List.filter_flatMap, List.map_flatMap]
  induction t.stringEntries with
  | nil => rfl
  | cons e rest ih =>
    have hkept := d.isNone_warning? policy kind below.isEmpty (place ++ [e.1]) e
    conv_rhs => rw [List.filter_cons, ← hkept]
    rw [List.flatMap_cons, ih]
    cases d.warning? policy kind below.isEmpty (place ++ [e.1]) e <;> simp

/-- The same for a whole description. -/
theorem keptPlaces_levels : d.keptPlaces policy d.levels [] t =
    (kept policy t).flatMap fun u => [u.1] :: (kept policy u.2).flatMap fun i => [u.1, i.1] ::
      (i.2.stringEntries.filter fun p =>
        !drops policy (Text.isBlankText p.1 || d.missing p.2)).map fun p => [u.1, i.1, p.1] := by
  have hend (place : Location) (v : Tree) : d.keptPlaces policy [] place v = [] := rfl
  simp [levels, keptPlaces_cons, hend, kept, List.map_eq_flatMap]

/-- A model whose parts have the names of the kept entries has their places. -/
theorem flatMap_places {α β γ : Type} {name : α → String} {parts : α → List β} {name' : β → String}
    {parts' : β → List γ} {name'' : γ → String} {items : List α}
    (h : List.Forall₂ (fun u a => name a = u.1 ∧ List.Forall₂ (fun i b => name' b = i.1 ∧
        List.Forall₂ (fun p c => name'' c = p.1) (i.2.stringEntries.filter fun p =>
          !drops policy (Text.isBlankText p.1 || d.missing p.2)) (parts' b))
      (kept policy u.2) (parts a)) (kept policy t) items) :
    (items.flatMap fun a => [name a] :: (parts a).flatMap fun b => [name a, name' b] ::
      (parts' b).map fun c => [name a, name' b, name'' c]) = d.keptPlaces policy d.levels [] t := by
  rw [keptPlaces_levels]
  refine Pointwise.flatMap_eq_flatMap (fun u a hu => ?_) h
  rw [hu.1]
  refine congrArg _ (Pointwise.flatMap_eq_flatMap (fun i b hi => ?_) hu.2)
  rw [hi.1]
  exact congrArg _ (Pointwise.map_eq_map (fun p c hp => by rw [hp]) hi.2)

/-- A warning names the place of its entry, and what the entry should have named or was for. -/
theorem of_warning?_eq_some {last : Bool} {e : String × Tree} {w : Event}
    (h : d.warning? policy kind last place e = some w) :
    (w = .skippedName place kind ∧ drops policy (Text.isBlankText e.1) = true) ∨
      w = .skippedValue d.target place ∧ last = true := by
  rw [warning?] at h
  split at h
  · next hb => exact .inl ⟨(Option.some.inj h).symm, hb⟩
  · split at h
    · next hm => exact .inr ⟨(Option.some.inj h).symm, (Bool.and_eq_true_iff.mp hm).1⟩
    · simp at h

/-- Where an entry stands, seen from the place above its level: behind keys that are not dropped, and
not too deep. A dropped one has a blank name or is on the last level. -/
structure IsPlaced (d : Layout) (policy : EmptyPolicy) (below : List EntryKind) (place : Location)
    (e : Entry) (keys : List String) (name : String) : Prop where
  location : e.location = place ++ keys ++ [name]
  depth : keys.length < below.length
  named : ∀ key ∈ keys, drops policy (Text.isBlankText key) = false
  warned : ∀ w, e.warning? = some w →
    (drops policy (Text.isBlankText name) = true ∧
      ∃ kind, below[keys.length]? = some kind ∧ w = .skippedName e.location kind) ∨
    keys.length + 1 = below.length ∧ w = .skippedValue d.target e.location

theorem exists_isPlaced {e : Entry} (he : e ∈ d.outline policy below place t) :
    ∃ keys name, IsPlaced d policy below place e keys name := by
  induction below generalizing place t with
  | nil => simp [outline] at he
  | cons kind below ih =>
    obtain ⟨x, -, he⟩ := List.mem_flatMap.mp he
    rcases List.mem_cons.mp he with rfl | he
    · refine ⟨[], x.1, by simp, by simp, by simp, fun w hw => ?_⟩
      rcases of_warning?_eq_some hw with ⟨rfl, hb⟩ | ⟨rfl, hl⟩
      · exact .inl ⟨hb, kind, rfl, rfl⟩
      · exact .inr ⟨by simp [List.isEmpty_iff.mp hl], rfl⟩
    · split at he
      · next hnone =>
        obtain ⟨keys, name, h⟩ := ih he
        have hkey : drops policy (Text.isBlankText x.1) = false := by
          rw [isNone_warning?, Bool.not_eq_true', drops_or_eq_false_iff] at hnone
          exact hnone.1
        refine ⟨x.1 :: keys, name, by simp [h.location], by simp [h.depth], ?_, fun w hw => ?_⟩
        · exact List.forall_mem_cons.mpr ⟨hkey, h.named⟩
        · exact (h.warned w hw).imp id fun hd => by simpa using hd
      · simp at he

/-- Nothing is inside a dropped entry. -/
theorem location_eq_of_starts {e e' : Entry} (he : e ∈ d.outline policy below place t)
    (he' : e' ∈ d.outline policy below place t) {w : Event} (hw : e.warning? = some w)
    (hstarts : e.location <+: e'.location) : e'.location = e.location := by
  obtain ⟨keys, name, h⟩ := exists_isPlaced he
  obtain ⟨keys', name', h'⟩ := exists_isPlaced he'
  rw [h.location, h'.location, List.append_assoc, List.append_assoc,
    List.prefix_append_right_inj] at hstarts
  rcases List.prefix_concat_iff.mp hstarts with heq | hinside
  · rw [h.location, h'.location, List.append_assoc, List.append_assoc, heq]
  · -- the entry would be on the way to the other one
    have hlength := hinside.length_le
    have hname := h'.named name (hinside.subset (by simp))
    rw [List.length_append, List.length_singleton] at hlength
    rcases h.warned w hw with ⟨hblank, -⟩ | ⟨hlast, -⟩
    · simp [hname] at hblank
    · have hdepth := h'.depth
      omega

theorem level_warnings : ∀ w ∈ d.warnings policy below place t, w.level = .warn := by
  intro w hw
  obtain ⟨e, he, hw⟩ := List.mem_filterMap.mp hw
  obtain ⟨keys, name, h⟩ := exists_isPlaced he
  rcases h.warned w hw with ⟨-, kind, -, rfl⟩ | ⟨-, rfl⟩ <;> rfl

private theorem filter_log {built : String × Tree → Event} (keeps : Event → Bool)
    (t : Tree) : (d.log policy built t).filter keeps = t.stringEntries.flatMap fun u =>
      let warning := d.warning? policy d.root false [u.1] u
      warning.toList.filter keeps ++ if warning.isNone then
        (d.warnings policy [.interface, .property] [u.1] u.2).filter keeps ++ [built u].filter keeps
        else [] := by
  rw [log, List.filter_flatMap]
  refine List.flatMap_congr fun u _ => ?_
  cases d.warning? policy d.root false [u.1] u <;> simp

/-- The warnings of the log are those for the dropped entries. -/
theorem warnings_of_log {built : String × Tree → Event} (hbuilt : ∀ u, (built u).level = .debug) :
    (d.log policy built t).filter (fun e => decide (e.level = .warn)) =
      d.warnings policy d.levels [] t := by
  have hwarn {below : List EntryKind} {place : Location} {t : Tree} :
      (d.warnings policy below place t).filter (fun e => decide (e.level = .warn)) =
        d.warnings policy below place t :=
    List.filter_eq_self.mpr fun w hw => decide_eq_true (level_warnings w hw)
  rw [filter_log, levels, warnings_cons]
  refine List.flatMap_congr fun u _ => ?_
  simp only [entryWarnings, List.isEmpty_cons, List.nil_append, hwarn]
  cases h : d.warning? policy d.root false [u.1] u with
  | none => simp [hbuilt]
  | some w => rcases of_warning?_eq_some h with ⟨rfl, -⟩ | ⟨rfl, -⟩ <;> simp [Event.level]

/-- Everything else in it says what was built from a kept entry of the first level. -/
theorem builds_of_log {built : String × Tree → Event} (hbuilt : ∀ u, (built u).level = .debug) :
    (d.log policy built t).filter (fun e => decide (e.level = .debug)) =
      (kept policy t).map built := by
  have hwarn {below : List EntryKind} {place : Location} {t : Tree} :
      (d.warnings policy below place t).filter (fun e => decide (e.level = .debug)) = [] :=
    List.filter_eq_nil_iff.mpr fun w hw => by simp [level_warnings w hw]
  rw [filter_log, kept]
  simp only [hwarn]
  induction t.stringEntries with
  | nil => rfl
  | cons u rest ih =>
    have hkept := d.isNone_warning? policy d.root false [u.1] u
    rw [Bool.false_and, Bool.or_false] at hkept
    conv_rhs => rw [List.filter_cons, ← hkept]
    rw [List.flatMap_cons, ih]
    cases h : d.warning? policy d.root false [u.1] u with
    | none => simp [hbuilt]
    | some w => rcases of_warning?_eq_some h with ⟨rfl, -⟩ | ⟨rfl, -⟩ <;> simp [Event.level]

end Layout

section Logs

variable {α : Type} {d : Layout} {policy : EmptyPolicy} {kind : EntryKind} {location : Location}
  {name : String} {value : Tree} {body : Traced (Option α)} {o : Option α}

private theorem events_of_blank (d : Layout) (last : Bool) (value : Tree)
    (hb : Text.isBlankText name = true)
    (h : (keepsName policy kind location name >>= fun k =>
      if (!k) = true then pure none else body).result = .ok o) :
    ∃ w, d.warning? policy kind last location (name, value) = some w ∧
      (keepsName policy kind location name >>= fun k =>
        if (!k) = true then pure none else body).events = [w] := by
  -- the strict policy would have failed
  cases policy with
  | reject => simp [keepsName_reject_of_blank hb] at h
  | skip =>
    refine ⟨.skippedName location kind, by simp [Layout.warning?, hb], ?_⟩
    rw [keepsName_skip_of_blank hb, Traced.bind_of_ok rfl]
    rfl

theorem named_events {below : List Event} (hbody : body.result = .ok o → body.events = below)
    (h : (keepsName policy kind location name >>= fun k =>
      if (!k) = true then pure none else body).result = .ok o) :
    (keepsName policy kind location name >>= fun k => if (!k) = true then pure none else body).events =
      let warning := d.warning? policy kind false location (name, value)
      warning.toList ++ if warning.isNone then below else [] := by
  cases hb : Text.isBlankText name with
  | false =>
    rw [keepsName_of_not_blank hb] at h ⊢
    simpa [Layout.warning?, hb] using hbody h
  | true =>
    obtain ⟨w, hw, hevents⟩ := events_of_blank d false value hb h
    rw [hevents, hw]
    rfl

/-- What is logged for a property, if it is read with success. -/
theorem valued_events (hbody : body.events = [])
    (h : (keepsName policy kind location name >>= fun k => if (!k) = true then pure none else
      if (decide (policy = .skip) && d.missing value) = true then
        Traced.log (.skippedValue d.target location) >>= fun _ => pure none
      else body).result = .ok o) :
    (keepsName policy kind location name >>= fun k => if (!k) = true then pure none else
      if (decide (policy = .skip) && d.missing value) = true then
        Traced.log (.skippedValue d.target location) >>= fun _ => pure none
      else body).events = d.entryWarnings policy kind [] location (name, value) := by
  have hend : d.entryWarnings policy kind [] location (name, value) =
      (d.warning? policy kind true location (name, value)).toList := by
    simp [Layout.entryWarnings, Layout.warnings, Layout.outline]
  rw [hend]
  cases hb : Text.isBlankText name with
  | false =>
    rw [keepsName_of_not_blank hb]
    cases hm : drops policy (d.missing value) with
    | false =>
      have hm' : (decide (policy = .skip) && d.missing value) = false := hm
      simp [Layout.warning?, hb, hm, hm', hbody]
    | true =>
      have hm' : (decide (policy = .skip) && d.missing value) = true := hm
      have hlog : (Traced.log (.skippedValue d.target location) >>= fun _ =>
          pure (none : Option α)).events = [.skippedValue d.target location] := rfl
      simp [Layout.warning?, hb, hm, hm', hlog]
  | true =>
    obtain ⟨w, hw, hevents⟩ := events_of_blank d true value hb h
    rw [hevents, hw]
    rfl

/-- Entries that are read with success log one after the other. -/
theorem collect_events {read : List α → String → Tree → Traced (Option α)}
    (log : String × Tree → List Event)
    (hread : ∀ earlier name value o, (read earlier name value).result = .ok o →
      (read earlier name value).events = log (name, value))
    {earlier out : List α} {l : List (String × Tree)}
    (h : (collect read earlier l).result = .ok out) :
    (collect read earlier l).events = l.flatMap log := by
  induction l generalizing earlier out with
  | nil => rfl
  | cons e rest ih =>
    obtain ⟨name, value⟩ := e
    rw [collect] at h ⊢
    obtain ⟨first, hf, h⟩ := Traced.result_bind_eq_ok.mp h
    obtain ⟨others, ho, -⟩ := Traced.result_bind_eq_ok.mp h
    rw [Traced.bind_of_ok hf, Traced.bind_of_ok ho, List.flatMap_cons, ← hread _ _ _ _ hf, ← ih ho]
    exact congrArg ((read earlier name value).events ++ ·) (List.append_nil _)

/-- Looking up the entries below a place logs nothing. -/
theorem namedEntries_bind_events {β : Type} {expected : Expectation} {t : Tree}
    {next : List (String × Tree) → Traced β} {b : β}
    (h : (namedEntries location expected t >>= next).result = .ok b) :
    (next t.stringEntries).result = .ok b ∧
      (namedEntries location expected t >>= next).events = (next t.stringEntries).events := by
  obtain ⟨l, hl, hb⟩ := Traced.result_bind_eq_ok.mp h
  obtain ⟨-, rfl⟩ := namedEntries_eq_ok_iff.mp hl
  exact ⟨hb, by rw [Traced.bind_of_ok hl]; rfl⟩

end Logs

end VpdHeaders.Description
