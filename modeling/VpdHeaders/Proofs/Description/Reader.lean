import VpdHeaders.Proofs.Description.Outline
import VpdHeaders.Proofs.Description.Pruned

/-! # Readers of descriptions

Units and inventory objects are read alike, level by level. They differ in what is made of the entries
and in what is checked on the way. What a reader logs does not depend on that, and neither does what it
makes of a pruned description. -/
namespace VpdHeaders

def nameless (name : String) (_ : Tree) : Bool := Text.isBlankText name

namespace Description

/-- What is made of the entries on each level. An item is a unit or an inventory object. -/
structure Reader (Item Interface Property : Type) extends Layout where
  expected : Expectation
  checkName : String → Except Error Unit
  item : String → List Interface → Item
  built : Item → Event
  interface : String → List Property → Interface
  claim : String → List Interface → Interface → Except Error Unit
  property : String → String → String → Tree → Except Error Property
  level_built : ∀ i, (built i).level = .debug
  /-- nothing can be made of a missing value -/
  missing_eq_false : ∀ {item interface name value p},
    property item interface name value = .ok p → missing value = false

namespace Reader

variable {Item Interface Property : Type} (r : Reader Item Interface Property)
  (policy : EmptyPolicy)

def readProperty (item interface name : String) (value : Tree) : Traced (Option Property) := do
  let location := [item, interface, name]
  if !(← keepsName policy .property location name) then return none
  if policy = .skip && r.missing value then
    Traced.log (.skippedValue r.target location)
    return none
  let p ← Traced.lift (r.property item interface name value)
  return some p

def readProperties (item interface : String) : List (String × Tree) → Traced (List Property) :=
  collect (fun _ => r.readProperty policy item interface) []

def readInterface (item : String) (earlier : List Interface) (name : String) (value : Tree) :
    Traced (Option Interface) := do
  let location := [item, name]
  if !(← keepsName policy .interface location name) then return none
  let entries ← namedEntries location .propertyMapping value
  let properties ← r.readProperties policy item name entries
  let i := r.interface name properties
  Traced.lift (r.claim item earlier i)
  return some i

def readInterfaces (item : String) : List (String × Tree) → Traced (List Interface) :=
  collect (r.readInterface policy item) []

def readItem (name : String) (value : Tree) : Traced (Option Item) := do
  if !(← keepsName policy r.root [name] name) then return none
  Traced.lift (r.checkName name)
  let entries ← namedEntries [name] .interfaceMapping value
  let interfaces ← r.readInterfaces policy name entries
  let i := r.item name interfaces
  Traced.log (r.built i)
  return some i

def readItems : List (String × Tree) → Traced (List Item) :=
  collect (fun _ => r.readItem policy) []

def read (t : Tree) : Traced (List Item) := do
  r.readItems policy (← namedEntries [] r.expected t)

section Log

variable {r policy} {item interface name : String} {value t : Tree}

private theorem collect_warnings {α : Type} {read : List α → String → Tree → Traced (Option α)}
    {kind : EntryKind} {below : List EntryKind} {place : Location}
    (hread : ∀ earlier name value o, (read earlier name value).result = .ok o →
      (read earlier name value).events =
        r.entryWarnings policy kind below (place ++ [name]) (name, value))
    {out : List α} (h : (collect read [] t.stringEntries).result = .ok out) :
    (collect read [] t.stringEntries).events = r.warnings policy (kind :: below) place t := by
  rw [Layout.warnings_cons]
  exact collect_events (fun e => r.entryWarnings policy kind below (place ++ [e.1]) e) hread h

private theorem readProperty_events {o : Option Property}
    (h : (r.readProperty policy item interface name value).result = .ok o) :
    (r.readProperty policy item interface name value).events =
      r.entryWarnings policy .property [] [item, interface, name] (name, value) := by
  rw [readProperty] at h ⊢
  exact valued_events (Traced.events_lift_bind fun _ => rfl) h

private theorem readInterface_events {earlier : List Interface} {o : Option Interface}
    (h : (r.readInterface policy item earlier name value).result = .ok o) :
    (r.readInterface policy item earlier name value).events =
      r.entryWarnings policy .interface [.property] [item, name] (name, value) := by
  rw [readInterface] at h ⊢
  refine named_events (fun hbody => ?_) h
  obtain ⟨hbody, hevents⟩ := namedEntries_bind_events hbody
  obtain ⟨ps, hps, -⟩ := Traced.result_bind_eq_ok.mp hbody
  have hproperties : (r.readProperties policy item name value.stringEntries).events =
      r.warnings policy [.property] [item, name] value :=
    collect_warnings (fun _ _ _ _ ho => readProperty_events ho) hps
  rw [hevents, Traced.bind_of_ok hps, hproperties, Traced.events_lift_bind fun _ => rfl,
    List.append_nil]

private theorem readItem_events {built : String × Tree → Event}
    (hbuilt : ∀ i, (r.readItem policy name value).result = .ok (some i) →
      r.built i = built (name, value))
    {o : Option Item} (h : (r.readItem policy name value).result = .ok o) :
    (r.readItem policy name value).events =
      let warning := r.warning? policy r.root false [name] (name, value)
      warning.toList ++ if warning.isNone then
        r.warnings policy [.interface, .property] [name] value ++ [built (name, value)] else [] := by
  have hbuilt' : ∀ i, o = some i → r.built i = built (name, value) := by
    rintro i rfl
    exact hbuilt i h
  rw [readItem] at h ⊢
  refine named_events (fun hbody => ?_) h
  obtain ⟨⟨⟩, hname, hbody⟩ := Traced.result_bind_eq_ok.mp hbody
  obtain ⟨hbody, hevents⟩ := namedEntries_bind_events hbody
  obtain ⟨is, his, hlast⟩ := Traced.result_bind_eq_ok.mp hbody
  obtain ⟨⟨⟩, -, ho⟩ := Traced.result_bind_eq_ok.mp hlast
  have hinterfaces : (r.readInterfaces policy name value.stringEntries).events =
      r.warnings policy [.interface, .property] [name] value :=
    collect_warnings (fun _ _ _ _ ho => readInterface_events ho) his
  rw [Traced.bind_of_ok hname]
  change [] ++ (namedEntries [name] .interfaceMapping value >>= _).events = _
  rw [List.nil_append, hevents, Traced.bind_of_ok his, hinterfaces,
    ← hbuilt' _ (Except.ok.inj ho).symm]
  rfl

/-- What is logged for a description that is read with success. -/
theorem read_events {built : String × Tree → Event}
    (hbuilt : ∀ name value i, (r.readItem policy name value).result = .ok (some i) →
      r.built i = built (name, value))
    {items : List Item} (h : (r.read policy t).result = .ok items) :
    (r.read policy t).events = r.log policy built t := by
  rw [read] at h ⊢
  obtain ⟨h, hevents⟩ := namedEntries_bind_events h
  exact hevents.trans (collect_events _ (fun _ _ _ _ ho => readItem_events (hbuilt _ _) ho) h)

end Log

section Lenient

variable {r policy} {item interface name : String} {value : Tree}

def valueless (r : Reader Item Interface Property) (name : String) (value : Tree) : Bool :=
  Text.isBlankText name || r.missing value

private theorem withoutWarnings_built (i : Item) :
    (Traced.log (r.built i)).withoutWarnings = Traced.log (r.built i) := by
  simp [Traced.withoutWarnings, Traced.log, r.level_built]

private theorem readProperty_drop (h : r.valueless name value = true) :
    (r.readProperty .skip item interface name value).withoutWarnings = pure none := by
  rw [readProperty]
  cases hb : Text.isBlankText name with
  | true => exact named_of_blank hb
  | false =>
    have hm : r.missing value = true := by simpa [valueless, hb] using h
    rw [named_of_not_blank hb, hm]
    rfl

private theorem readProperty_keep (h : r.valueless name value = false) :
    (r.readProperty .skip item interface name value).withoutWarnings =
      r.readProperty .reject item interface name value := by
  obtain ⟨hb, hm⟩ : Text.isBlankText name = false ∧ r.missing value = false := by
    simpa [valueless] using h
  rw [readProperty, readProperty, named_of_not_blank hb, named_of_not_blank hb, hm]
  exact Traced.withoutWarnings_bind _ _

private theorem readProperties_prune (l : List (String × Tree)) :
    (r.readProperties .skip item interface l).withoutWarnings =
      r.readProperties .reject item interface (pruneEntries r.valueless id l) :=
  collect_prune _ _ _ _ (fun _ _ _ => readProperty_drop) (fun _ _ _ => readProperty_keep) [] l

private theorem readInterface_keep {earlier : List Interface} (h : Text.isBlankText name = false) :
    (r.readInterface .skip item earlier name value).withoutWarnings =
      r.readInterface .reject item earlier name (value.prune r.valueless id) := by
  rw [readInterface, readInterface, named_of_not_blank h, named_of_not_blank h]
  apply namedEntries_prune
  intro l
  simp only [Traced.withoutWarnings_bind, readProperties_prune, Traced.withoutWarnings_lift,
    Traced.withoutWarnings_pure]

private theorem readInterfaces_prune (l : List (String × Tree)) :
    (r.readInterfaces .skip item l).withoutWarnings =
      r.readInterfaces .reject item (pruneEntries nameless (·.prune r.valueless id) l) :=
  collect_prune nameless _ (r.readInterface .skip item) (r.readInterface .reject item)
    (fun _ _ _ => named_of_blank) (fun _ _ _ => readInterface_keep) [] l

private theorem readItem_keep (h : Text.isBlankText name = false) :
    (r.readItem .skip name value).withoutWarnings =
      r.readItem .reject name (value.prune nameless (·.prune r.valueless id)) := by
  rw [readItem, readItem, named_of_not_blank h, named_of_not_blank h, Traced.withoutWarnings_bind]
  congr 1
  funext _
  apply namedEntries_prune
  intro l
  simp only [Traced.withoutWarnings_bind, readInterfaces_prune, Traced.withoutWarnings_pure,
    withoutWarnings_built]

/-- Reading leniently is, the warnings apart, reading strictly what pruning leaves. -/
theorem read_pruned (r : Reader Item Interface Property) (t : Tree) :
    (r.read .skip t).withoutWarnings =
      r.read .reject (t.prune nameless (·.prune nameless (·.prune r.valueless id))) := by
  have hitems (l : List (String × Tree)) : (r.readItems .skip l).withoutWarnings = r.readItems .reject
      (pruneEntries nameless (·.prune nameless (·.prune r.valueless id)) l) :=
    collect_prune nameless _ (fun _ => r.readItem .skip) (fun _ => r.readItem .reject)
      (fun _ _ _ => named_of_blank) (fun _ _ _ => readItem_keep) [] l
  exact namedEntries_prune hitems [] r.expected t

private theorem readProperty_agrees (r : Reader Item Interface Property) (item interface name : String)
    (value : Tree) : (r.readProperty .skip item interface name value).Agrees
      (r.readProperty .reject item interface name value) := by
  rw [readProperty, readProperty]
  apply named_agrees
  intro o ho
  obtain ⟨p, hp, -⟩ := Traced.result_bind_eq_ok.mp ho
  rw [r.missing_eq_false hp]
  rfl

private theorem readInterface_agrees (r : Reader Item Interface Property) (item : String)
    (earlier : List Interface) (name : String) (value : Tree) :
    (r.readInterface .skip item earlier name value).Agrees
      (r.readInterface .reject item earlier name value) := by
  rw [readInterface, readInterface]
  apply named_agrees
  exact (Traced.Agrees.refl _).bind fun l =>
    (collect_agrees (fun _ => r.readProperty_agrees item name) [] l).bind fun ps => .refl _

private theorem readItem_agrees (r : Reader Item Interface Property) (name : String) (value : Tree) :
    (r.readItem .skip name value).Agrees (r.readItem .reject name value) := by
  rw [readItem, readItem]
  apply named_agrees
  exact (Traced.Agrees.refl _).bind fun _ => (Traced.Agrees.refl _).bind fun l =>
    (collect_agrees (r.readInterface_agrees name) [] l).bind fun is => .refl _

/-- What the strict policy accepts, the lenient one reads just the same. -/
theorem read_agrees (r : Reader Item Interface Property) (t : Tree) :
    (r.read .skip t).Agrees (r.read .reject t) :=
  (Traced.Agrees.refl _).bind fun l => collect_agrees (fun _ => r.readItem_agrees) [] l

private theorem readProperty_quiet (r : Reader Item Interface Property) (item interface name : String)
    (value : Tree) : (r.readProperty .reject item interface name value).withoutWarnings =
      r.readProperty .reject item interface name value := by
  rw [readProperty]
  apply named_withoutWarnings
  exact Traced.withoutWarnings_bind _ _

private theorem readInterface_quiet (r : Reader Item Interface Property) (item : String)
    (earlier : List Interface) (name : String) (value : Tree) :
    (r.readInterface .reject item earlier name value).withoutWarnings =
      r.readInterface .reject item earlier name value := by
  have hp (l : List (String × Tree)) : (r.readProperties .reject item name l).withoutWarnings =
      r.readProperties .reject item name l :=
    collect_withoutWarnings (fun _ => r.readProperty_quiet item name) [] l
  rw [readInterface]
  apply named_withoutWarnings
  simp only [Traced.withoutWarnings_bind, namedEntries, Traced.withoutWarnings_lift, hp,
    Traced.withoutWarnings_pure]

private theorem readItem_quiet (r : Reader Item Interface Property) (name : String) (value : Tree) :
    (r.readItem .reject name value).withoutWarnings = r.readItem .reject name value := by
  have hi (l : List (String × Tree)) : (r.readInterfaces .reject name l).withoutWarnings =
      r.readInterfaces .reject name l :=
    collect_withoutWarnings (r.readInterface_quiet name) [] l
  rw [readItem]
  apply named_withoutWarnings
  simp only [Traced.withoutWarnings_bind, namedEntries, Traced.withoutWarnings_lift, hi,
    withoutWarnings_built, Traced.withoutWarnings_pure]

/-- The strict policy never warns. -/
theorem read_quiet (r : Reader Item Interface Property) (t : Tree) :
    (r.read .reject t).withoutWarnings = r.read .reject t := by
  have hi (l : List (String × Tree)) : (r.readItems .reject l).withoutWarnings =
      r.readItems .reject l := collect_withoutWarnings (fun _ => r.readItem_quiet) [] l
  simp only [read, Traced.withoutWarnings_bind, namedEntries, Traced.withoutWarnings_lift, hi]

theorem read_skip_of_ok {t : Tree} {items : List Item} (h : (r.read .reject t).result = .ok items) :
    (r.read .skip t).result = .ok items ∧ ∀ e ∈ (r.read .skip t).events, e.level ≠ .warn := by
  rw [r.read_agrees t items h]
  exact ⟨h, Traced.level_ne_warn (r.read_quiet t)⟩

end Lenient

end Reader

end Description

end VpdHeaders
