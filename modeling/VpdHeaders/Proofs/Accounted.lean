import VpdHeaders.Proofs.Fru.Reader
import VpdHeaders.Proofs.Fru.WellFormed
import VpdHeaders.Proofs.Inventory.Reader
import VpdHeaders.Proofs.Inventory.WellFormed

/-! # Every entry of a description is in the model or in the log -/
namespace VpdHeaders

theorem Tree.map_stringEntries {t : Tree} (h : t.HasStringKeys) :
    t.stringEntries.map (fun e => (Tree.string e.1, e.2)) = t.mappingEntries := by
  rw [HasStringKeys] at h
  rw [stringEntries]
  generalize t.mappingEntries = es at h ⊢
  induction es with
  | nil => rfl
  | cons e rest ih =>
    obtain ⟨⟨name, hname⟩, hrest⟩ := List.forall_mem_cons.mp h
    obtain ⟨key, value⟩ := e
    obtain rfl : key = .string name := hname
    simpa using ih hrest

namespace Event

variable {location : Location}

theorem summary_skippedName (h : location ≠ []) (kind : EntryKind) :
    (skippedName location kind).summary = "WARN Skipping entry with empty name. location=" ++
      Text.joined "/" location ++ " kind=" ++ kind.name := by
  obtain ⟨key, keys, rfl⟩ := List.exists_cons_of_ne_nil h
  simp [summary, level, Level.name, message, fields, Location.text, Location.path, String.join,
    ← String.toList_inj]

theorem summary_skippedValue (h : location ≠ []) (target : Target) :
    (skippedValue target location).summary =
      "WARN Skipping property without a value. location=" ++ Text.joined "/" location := by
  obtain ⟨key, keys, rfl⟩ := List.exists_cons_of_ne_nil h
  simp [summary, level, Level.name, message, fields, Location.text, Location.path, String.join,
    ← String.toList_inj]

end Event

namespace Description

/-- A model, known by the places of its parts and the events that tell what was built, and a log
account for all entries of a description. -/
structure Accounts (d : Layout) (policy : EmptyPolicy) (t : Tree) (places : List Location)
    (builds events : List Event) : Prop where
  /-- the places in the model are those of the entries without a warning -/
  kept : places = ((d.entries policy t).filter fun e => e.warning?.isNone).map Entry.location
  /-- the warnings are those for the other entries, in the order of the document -/
  warned : events.filter (fun e => decide (e.level = .warn)) =
    (d.entries policy t).filterMap Entry.warning?
  /-- so that nothing is left over -/
  whole : (places ++ ((d.entries policy t).filter fun e => e.warning?.isSome).map Entry.location).Perm
    ((d.entries policy t).map Entry.location)
  /-- a warning has the place of its entry, and why the entry is dropped -/
  told : ∀ e ∈ d.entries policy t, ∀ w, e.warning? = some w →
    (∃ kind, d.levels[e.location.length - 1]? = some kind ∧
      w.summary = "WARN Skipping entry with empty name. location=" ++
        Text.joined "/" e.location ++ " kind=" ++ kind.name) ∨
    e.location.length = d.levels.length ∧
      w.summary = "WARN Skipping property without a value. location=" ++ Text.joined "/" e.location
  /-- nothing is inside a dropped entry -/
  outside : ∀ e ∈ d.entries policy t, ∀ w, e.warning? = some w →
    ∀ e' ∈ d.entries policy t, e.location <+: e'.location → e'.location = e.location
  /-- what is no warning tells what was built -/
  built : events.filter (fun e => decide (e.level = .debug)) = builds
  /-- each part is told right behind the warnings below its entry -/
  ordered : ∃ build : String × Tree → Event,
    builds = (Description.kept policy t).map build ∧ events = d.log policy build t

variable {d : Layout} {policy : EmptyPolicy} {t : Tree}

private theorem told_of_mem {e : Entry} (he : e ∈ d.entries policy t) {w : Event}
    (hw : e.warning? = some w) :
    (∃ kind, d.levels[e.location.length - 1]? = some kind ∧
      w.summary = "WARN Skipping entry with empty name. location=" ++
        Text.joined "/" e.location ++ " kind=" ++ kind.name) ∨
    e.location.length = d.levels.length ∧
      w.summary = "WARN Skipping property without a value. location=" ++
        Text.joined "/" e.location := by
  obtain ⟨keys, name, h⟩ := Layout.exists_isPlaced he
  have hne : e.location ≠ [] := by simp [h.location]
  have hlength : e.location.length = keys.length + 1 := by simp [h.location]
  rcases h.warned w hw with ⟨-, kind, hkind, rfl⟩ | ⟨hlast, rfl⟩
  · refine .inl ⟨kind, ?_, Event.summary_skippedName hne kind⟩
    rw [hlength]
    exact hkind
  · exact .inr ⟨hlength.trans hlast, Event.summary_skippedValue hne d.target⟩

theorem accounts_of_log {places : List Location} {build : String × Tree → Event}
    {builds events : List Event} (hplaces : places = d.keptPlaces policy d.levels [] t)
    (hdebug : ∀ u, (build u).level = .debug) (hbuilds : builds = (kept policy t).map build)
    (hevents : events = d.log policy build t) : Accounts d policy t places builds events where
  kept := hplaces
  warned := by
    rw [hevents]
    exact Layout.warnings_of_log hdebug
  whole := by
    have hsome : (fun e : Entry => !e.warning?.isNone) = fun e => e.warning?.isSome := by
      funext e
      cases e.warning? <;> rfl
    have hperm := (d.entries policy t).filter_append_perm fun e => e.warning?.isNone
    rw [hsome] at hperm
    rw [hplaces]
    exact (List.map_append ▸ hperm.map Entry.location)
  told := fun e he w hw => told_of_mem he hw
  outside := fun e he w hw e' he' => Layout.location_eq_of_starts he he' hw
  built := by
    rw [hevents, hbuilds]
    exact Layout.builds_of_log hdebug
  ordered := ⟨build, hbuilds, hevents⟩

end Description

namespace Fru
open Description

variable {policy : EmptyPolicy}

/-- The places of everything that units have, depth first. -/
def places (frus : List Fru) : List Location :=
  frus.flatMap fun f => [f.name] :: f.interfaces.flatMap fun i =>
    [f.name, i.name] :: i.properties.map fun p => [f.name, i.name, p.name]

private def build (policy : EmptyPolicy) (u : String × Tree) : Event :=
  .builtFru u.1 (kept policy u.2).length (unitProperties policy u.2).length

private theorem buildEvent_of_isUnit {u : String × Tree} {f : Fru} (h : IsUnit policy u f) :
    buildEvent f = build policy u := by
  rw [buildEvent, build, h.name, h.interfaces.length_eq, propertyCount_of_isUnit h]

private theorem places_eq {t : Tree} {frus : List Fru}
    (h : List.Forall₂ (IsUnit policy) (kept policy t) frus) :
    places frus = layout.keptPlaces policy layout.levels [] t :=
  Layout.flatMap_places <| h.imp fun _ _ hu => ⟨hu.name, hu.interfaces.imp fun _ _ hi =>
    ⟨hi.name, hi.properties.imp fun _ _ hp => hp.name⟩⟩

theorem accounts_of_listOfTree {t : Tree} {frus : List Fru}
    (h : (listOfTree policy t).result = .ok frus) :
    Accounts layout policy t (places frus) (frus.map buildEvent) (listOfTree policy t).events := by
  obtain ⟨-, -, hunits⟩ := listOfTree_eq_ok_iff.mp h
  have hbuilt (name : String) (value : Tree) (f : Fru)
      (hf : (reader.readItem policy name value).result = .ok (some f)) :
      buildEvent f = build policy (name, value) := by
    rw [← readOne_eq] at hf
    exact buildEvent_of_isUnit (readOne_some_iff.mp hf).2.2
  rw [listOfTree_eq] at h ⊢
  exact accounts_of_log (places_eq hunits) (fun _ => rfl)
    (Pointwise.map_eq_map (fun _ _ hf => buildEvent_of_isUnit hf) hunits)
    (Reader.read_events hbuilt h)

end Fru

namespace Inventory
open Description

variable {policy : EmptyPolicy}

def places (objects : List Object) : List Location :=
  objects.flatMap fun o => [o.path] :: o.interfaces.flatMap fun i =>
    [o.path, i.name] :: i.properties.map fun p => [o.path, i.name, p.name]

private def build (policy : EmptyPolicy) (e : String × Tree) : Event :=
  .builtObject e.1 (kept policy e.2).length

private theorem buildEvent_of_isObject {e : String × Tree} {o : Object} (h : IsObject policy e o) :
    buildEvent o = build policy e := by
  rw [buildEvent, build, h.path, h.interfaces.length_eq]

private theorem places_eq {t : Tree} {objects : List Object}
    (h : List.Forall₂ (IsObject policy) (kept policy t) objects) :
    places objects = layout.keptPlaces policy layout.levels [] t :=
  Layout.flatMap_places <| h.imp fun _ _ ho => ⟨ho.path, ho.interfaces.imp fun _ _ hi =>
    ⟨hi.name, hi.properties.imp fun _ _ hp => hp.name⟩⟩

theorem accounts_of_listOfTree {t : Tree} {objects : List Object}
    (h : (listOfTree policy t).result = .ok objects) :
    Accounts layout policy t (places objects) (objects.map buildEvent)
      (listOfTree policy t).events := by
  obtain ⟨-, -, hobjects⟩ := listOfTree_eq_ok_iff.mp h
  have hbuilt (path : String) (value : Tree) (o : Object)
      (ho : (reader.readItem policy path value).result = .ok (some o)) :
      buildEvent o = build policy (path, value) := by
    rw [← readOne_eq] at ho
    exact buildEvent_of_isObject (readOne_some_iff.mp ho).2.2
  rw [listOfTree_eq] at h ⊢
  exact accounts_of_log (places_eq hobjects) (fun _ => rfl)
    (Pointwise.map_eq_map (fun _ _ ho => buildEvent_of_isObject ho) hobjects)
    (Reader.read_events hbuilt h)

end Inventory

/-- No entry is dropped silently. The strict policy never warns, whether reading succeeds or not.
Where a policy reads a description with success, the model and the log account for all entries of the
mappings that are looked at. -/
theorem every_entry_is_accounted_for (t : Tree) :
    (∀ e ∈ (Fru.listOfTree .reject t).events, e.level ≠ .warn) ∧
    (∀ e ∈ (Inventory.listOfTree .reject t).events, e.level ≠ .warn) ∧
    (∀ policy frus, (Fru.listOfTree policy t).result = .ok frus →
      Description.Accounts Fru.layout policy t (Fru.places frus) (frus.map Fru.buildEvent)
        (Fru.listOfTree policy t).events ∧
      ∀ v, Fru.Visited policy t v →
        v.stringEntries.map (fun e => (Tree.string e.1, e.2)) = v.mappingEntries) ∧
    ∀ policy objects, (Inventory.listOfTree policy t).result = .ok objects →
      Description.Accounts Inventory.layout policy t (Inventory.places objects)
        (objects.map Inventory.buildEvent) (Inventory.listOfTree policy t).events ∧
      ∀ v, Inventory.Visited policy t v →
        v.stringEntries.map (fun e => (Tree.string e.1, e.2)) = v.mappingEntries := by
  refine ⟨?_, ?_, fun policy frus h => ⟨Fru.accounts_of_listOfTree h, fun v hv => ?_⟩,
    fun policy objects h => ⟨Inventory.accounts_of_listOfTree h, fun v hv => ?_⟩⟩
  · rw [Fru.listOfTree_eq]
    exact Traced.level_ne_warn (Fru.reader.read_quiet t)
  · rw [Inventory.listOfTree_eq]
    exact Traced.level_ne_warn (Inventory.reader.read_quiet t)
  · exact Tree.map_stringEntries ((Fru.accepted_iff.mp ⟨frus, h⟩).stringKeys v hv)
  · exact Tree.map_stringEntries ((Inventory.accepted_iff.mp ⟨objects, h⟩).stringKeys v hv)

/-- A description with something to drop on every level. -/
def sparse : Tree :=
  .mapping
    [(.string "BMC", .mapping
       [(.string "a.X", .mapping
          [(.string " ", .string "VINI,CC"), (.string "PN", .string "VINI,PN"), (.string "SN", .null)]),
        (.string "", .mapping [(.string "CC", .null)])]),
     (.string "", .null)]

/-- The log of a lenient run: what is dropped from the first unit, the unit, and the nameless one. -/
theorem sparse_is_accounted_for :
    (Fru.listOfTree .skip sparse).result =
      .ok [⟨"BMC", [⟨"a.X", "aX", [⟨"PN", ⟨"VINI", "PN"⟩⟩]⟩]⟩] ∧
    (Fru.listOfTree .skip sparse).events =
      [.skippedName ["BMC", "a.X", " "] .property, .skippedValue .writeFru ["BMC", "a.X", "SN"],
       .skippedName ["BMC", ""] .interface, .builtFru "BMC" 1 1, .skippedName [""] .fru] ∧
    (Fru.layout.entries .skip sparse).map Description.Entry.location =
      [["BMC"], ["BMC", "a.X"], ["BMC", "a.X", " "], ["BMC", "a.X", "PN"], ["BMC", "a.X", "SN"],
       ["BMC", ""], [""]] ∧
    Description.Accounts Fru.layout .skip sparse [["BMC"], ["BMC", "a.X"], ["BMC", "a.X", "PN"]]
      [.builtFru "BMC" 1 1] (Fru.listOfTree .skip sparse).events := by
  obtain ⟨-, -, hunits, -⟩ := every_entry_is_accounted_for sparse
  exact ⟨rfl, rfl, rfl, (hunits .skip _ rfl).1⟩

end VpdHeaders
