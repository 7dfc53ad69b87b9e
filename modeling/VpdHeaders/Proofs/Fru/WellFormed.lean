import VpdHeaders.Fru.Reading
import VpdHeaders.Proofs.Description.Kept
import VpdHeaders.Proofs.Pointwise

/-! # Well-formed unit descriptions are the ones that are accepted, with exactly their content -/
namespace VpdHeaders.Fru
open Description

/-- The entries of an interface that are dropped neither for a blank name nor for a missing value. -/
def keptProperties (policy : EmptyPolicy) (t : Tree) : List (String × Tree) :=
  t.stringEntries.filter fun e => !drops policy (Text.isBlankText e.1 || isMissing e.2)

def Writes (value : Tree) (r : Reference) : Prop :=
  ∃ raw, value = .string raw ∧ Reference.parse raw = .ok r

structure IsBinding (e : String × Tree) (b : Binding) : Prop where
  name : b.name = e.1
  reference : Writes e.2 b.reference

/-- An interface with the name of an entry, the identifier derived from it, and just the kept
properties. -/
structure IsInterface (policy : EmptyPolicy) (e : String × Tree) (i : Interface) : Prop where
  name : i.name = e.1
  identifier : i.identifier = Identifier.ofInterface e.1
  properties : List.Forall₂ IsBinding (keptProperties policy e.2) i.properties

structure IsUnit (policy : EmptyPolicy) (e : String × Tree) (f : Fru) : Prop where
  name : f.name = e.1
  interfaces : List.Forall₂ (IsInterface policy) (kept policy e.2) f.interfaces

namespace IsUnit

variable {policy : EmptyPolicy} {u : String × Tree} {f : Fru} (h : IsUnit policy u f) {i : Interface}
include h

theorem exists_identifier (hi : i ∈ f.interfaces) :
    ∃ e ∈ kept policy u.2, i.identifier = Identifier.ofInterface e.1 := by
  obtain ⟨e, he, hi⟩ := Pointwise.exists_left h.interfaces hi
  exact ⟨e, he, hi.identifier⟩

theorem exists_parse (hi : i ∈ f.interfaces) {b : Binding} (hb : b ∈ i.properties) :
    ∃ raw, Reference.parse raw = .ok b.reference := by
  obtain ⟨e, -, hi⟩ := Pointwise.exists_left h.interfaces hi
  obtain ⟨p, -, hb⟩ := Pointwise.exists_left hi.properties hb
  obtain ⟨raw, -, hr⟩ := hb.reference
  exact ⟨raw, hr⟩

end IsUnit

def unitProperties (policy : EmptyPolicy) (t : Tree) : List (String × Tree) :=
  (kept policy t).flatMap fun i => keptProperties policy i.2

theorem propertyCount_of_isUnit {policy : EmptyPolicy} {u : String × Tree} {f : Fru}
    (h : IsUnit policy u f) :
    f.propertyCount = (unitProperties policy u.2).length := by
  have hlength : f.interfaces.map (fun i => i.properties.length) =
      (kept policy u.2).map fun i => (keptProperties policy i.2).length :=
    Pointwise.map_eq_map (fun _ _ hi => hi.properties.length_eq.symm) h.interfaces
  rw [unitProperties, List.length_flatMap, ← hlength, propertyCount, List.sum_eq_foldr,
    List.foldr_map]

/-- The root mapping, and the mappings of the kept units and of their kept interfaces. -/
inductive Visited (policy : EmptyPolicy) (t : Tree) : Tree → Prop
  | root : Visited policy t t
  | unit {u} (hu : u ∈ kept policy t) : Visited policy t u.2
  | interface {u i} (hu : u ∈ kept policy t) (hi : i ∈ kept policy u.2) : Visited policy t i.2

/-- What a description has to be like to be accepted. -/
structure WellFormed (policy : EmptyPolicy) (t : Tree) : Prop where
  mappings : ∀ v, Visited policy t v → v.IsMapping
  stringKeys : ∀ v, Visited policy t v → v.HasStringKeys
  names : policy = .reject → ∀ v, Visited policy t v →
    ∀ e ∈ v.stringEntries, Text.isBlankText e.1 = false
  units : ∀ u ∈ kept policy t,
    Identifier.isValid u.1 = true ∧ Identifier.reservation? u.1 = none
  references : ∀ u ∈ kept policy t, ∀ i ∈ kept policy u.2, ∀ p ∈ keptProperties policy i.2,
    ∃ r, Writes p.2 r
  identifiers : ∀ u ∈ kept policy t,
    (∀ i ∈ kept policy u.2, Identifier.isReserved (Identifier.ofInterface i.1) = false) ∧
      ((kept policy u.2).map fun i => Identifier.ofInterface i.1).Nodup

private theorem readReference_eq_ok_iff {fru interface property : String} {value : Tree}
    {r : Reference} :
    readReference fru interface property value = .ok r ↔ Writes value r := by
  cases value with
  | string raw => cases h : Reference.parse raw <;> simp [readReference, Writes, Except.mapError, h]
  | _ => simp [readReference, Writes]

theorem readProperty_none_iff {policy : EmptyPolicy} {fru interface property : String}
    {value : Tree} :
    (readProperty policy fru interface property value).result = .ok none ↔
      drops policy (Text.isBlankText property || isMissing value) = true := by
  rw [readProperty, named_none_iff, valued_none_iff]
  cases policy <;> cases Text.isBlankText property <;> simp [Traced.result_bind_eq_ok]

private theorem readProperty_some_iff {policy : EmptyPolicy} {fru interface property : String}
    {value : Tree} {b : Binding} :
    (readProperty policy fru interface property value).result = .ok (some b) ↔
      drops policy (Text.isBlankText property || isMissing value) = false ∧
        Text.isBlankText property = false ∧ IsBinding (property, value) b := by
  have hb : (∃ r, Writes value r ∧ Binding.mk property r = b) ↔ IsBinding (property, value) b := by
    constructor
    · rintro ⟨r, hr, rfl⟩
      exact ⟨rfl, hr⟩
    · rintro ⟨hn, hr⟩
      exact ⟨_, hr, by cases b; cases hn; rfl⟩
  rw [readProperty, named_some_iff, valued_some_iff, ← hb]
  cases Text.isBlankText property <;>
    simp [Traced.result_bind_eq_ok, readReference_eq_ok_iff]

private theorem readProperties_eq_ok_iff {policy : EmptyPolicy} {fru interface : String}
    {t : Tree} {bs : List Binding} :
    (readProperties policy fru interface t.stringEntries).result = .ok bs ↔
      (∀ p ∈ keptProperties policy t, Text.isBlankText p.1 = false) ∧
        List.Forall₂ IsBinding (keptProperties policy t) bs := by
  rw [readProperties, collect_const_eq_ok_iff
    (fun e => drops policy (Text.isBlankText e.1 || isMissing e.2))
    (fun e b => Text.isBlankText e.1 = false ∧ IsBinding e b)
    (fun _ _ => readProperty_none_iff) (fun _ _ _ => readProperty_some_iff),
    List.forall₂_and_left]
  rfl

private theorem claim_eq_ok_iff {fru : String} {earlier : List Interface} {i : Interface} :
    claim fru earlier i = .ok () ↔ Identifier.isReserved i.identifier = false ∧
      ∀ j ∈ earlier, j.identifier ≠ i.identifier := by
  cases hr : Identifier.isReserved i.identifier with
  | true => simp [claim, hr]
  | false =>
    cases hf : earlier.find? fun j => j.identifier == i.identifier with
    | none => simpa [claim, hr, hf] using List.find?_eq_none.mp hf
    | some j =>
      have hj : j.identifier = i.identifier := by simpa using List.find?_some hf
      simpa [claim, hr, hf] using ⟨j, List.mem_of_find?_eq_some hf, hj⟩

/-- What the entry of an interface has to be like, whatever interfaces come before it. -/
structure IsGoodInterface (policy : EmptyPolicy) (e : String × Tree) : Prop where
  named : Text.isBlankText e.1 = false
  table : e.2.IsTable
  free : Identifier.isReserved (Identifier.ofInterface e.1) = false
  properties : ∀ p ∈ keptProperties policy e.2, Text.isBlankText p.1 = false

theorem readInterface_none_iff {policy : EmptyPolicy} {fru interface : String}
    {earlier : List Interface} {value : Tree} :
    (readInterface policy fru earlier interface value).result = .ok none ↔
      drops policy (Text.isBlankText interface) = true := by
  rw [readInterface, named_none_iff]
  simp [Traced.result_bind_eq_ok]

theorem readInterface_some_iff {policy : EmptyPolicy} {fru interface : String}
    {earlier : List Interface} {value : Tree} {i : Interface} :
    (readInterface policy fru earlier interface value).result = .ok (some i) ↔
      drops policy (Text.isBlankText interface) = false ∧
        (IsGoodInterface policy (interface, value) ∧ IsInterface policy (interface, value) i) ∧
          ∀ j ∈ earlier, j.identifier ≠ i.identifier := by
  rw [readInterface, named_some_iff, namedEntries_bind_eq_ok_iff, Traced.result_bind_eq_ok]
  constructor
  · rintro ⟨hn, ht, bs, hb, h⟩
    obtain ⟨_, hc, h⟩ := Traced.result_bind_eq_ok.mp h
    rw [Traced.result_lift, claim_eq_ok_iff] at hc
    obtain ⟨hp, hb⟩ := readProperties_eq_ok_iff.mp hb
    obtain rfl := Option.some.inj (Except.ok.inj h)
    exact ⟨by simp [hn], ⟨⟨hn, ht, hc.1, hp⟩, ⟨rfl, rfl, hb⟩⟩, hc.2⟩
  · rintro ⟨-, ⟨⟨hn, ht, hr, hp⟩, ⟨hname, hid, hb⟩⟩, hc⟩
    obtain ⟨name, identifier, bs⟩ := i
    dsimp only at hname hid
    subst hname hid
    refine ⟨hn, ht, bs, readProperties_eq_ok_iff.mpr ⟨hp, hb⟩, ?_⟩
    rw [Traced.result_bind_eq_ok]
    refine ⟨(), ?_, rfl⟩
    rw [Traced.result_lift, claim_eq_ok_iff]
    exact ⟨hr, hc⟩

theorem identifiers_eq {policy : EmptyPolicy} {l : List (String × Tree)} {is : List Interface}
    (h : List.Forall₂ (IsInterface policy) l is) :
    is.map Interface.identifier = l.map fun e => Identifier.ofInterface e.1 :=
  Pointwise.map_eq_map (fun _ _ hi => hi.identifier) h

private theorem readInterfaces_eq_ok_iff {policy : EmptyPolicy} {fru : String} {t : Tree}
    {is : List Interface} :
    (readInterfaces policy fru t.stringEntries).result = .ok is ↔
      (∀ i ∈ kept policy t, IsGoodInterface policy i) ∧
        ((kept policy t).map fun i => Identifier.ofInterface i.1).Nodup ∧
          List.Forall₂ (IsInterface policy) (kept policy t) is := by
  rw [readInterfaces, collect_eq_ok_iff (fun e => drops policy (Text.isBlankText e.1))
    (fun e i => IsGoodInterface policy e ∧ IsInterface policy e i)
    (fun j i => j.identifier ≠ i.identifier) (fun _ _ _ => readInterface_none_iff)
    (fun _ _ _ _ => readInterface_some_iff), List.forall₂_and_left]
  constructor
  · rintro ⟨⟨hg, hi⟩, hd, -⟩
    rw [← List.pairwise_map, identifiers_eq hi] at hd
    exact ⟨hg, hd, hi⟩
  · rintro ⟨hg, hd, hi⟩
    rw [← identifiers_eq hi, List.Nodup, List.pairwise_map] at hd
    exact ⟨⟨hg, hi⟩, hd, by simp⟩

structure IsGoodUnit (policy : EmptyPolicy) (e : String × Tree) : Prop where
  named : Text.isBlankText e.1 = false
  valid : Identifier.isValid e.1 = true
  free : Identifier.reservation? e.1 = none
  table : e.2.IsTable
  interfaces : ∀ i ∈ kept policy e.2, IsGoodInterface policy i
  distinct : ((kept policy e.2).map fun i => Identifier.ofInterface i.1).Nodup

private theorem nameFault?_eq_none_iff {name : String} :
    nameFault? name = none ↔
      Identifier.isValid name = true ∧ Identifier.reservation? name = none := by
  cases h : Identifier.isValid name <;> simp [nameFault?, h]

theorem readOne_none_iff {policy : EmptyPolicy} {name : String} {value : Tree} :
    (readOne policy name value).result = .ok none ↔
      drops policy (Text.isBlankText name) = true := by
  rw [readOne, named_none_iff]
  cases nameFault? name <;> simp [Traced.result_bind_eq_ok]

theorem readOne_some_iff {policy : EmptyPolicy} {name : String} {value : Tree} {f : Fru} :
    (readOne policy name value).result = .ok (some f) ↔
      drops policy (Text.isBlankText name) = false ∧
        IsGoodUnit policy (name, value) ∧ IsUnit policy (name, value) f := by
  rw [readOne, named_some_iff]
  cases hn : nameFault? name with
  | some fault =>
    have hv : ¬IsGoodUnit policy (name, value) := fun h => by
      simp [nameFault?_eq_none_iff.mpr ⟨h.valid, h.free⟩] at hn
    simp [hv]
  | none =>
    obtain ⟨hv, hf⟩ := nameFault?_eq_none_iff.mp hn
    rw [namedEntries_bind_eq_ok_iff, Traced.result_bind_eq_ok]
    constructor
    · rintro ⟨hb, ht, is, hi, h⟩
      obtain ⟨-, -, h⟩ := Traced.result_bind_eq_ok.mp h
      obtain ⟨hg, hd, hi⟩ := readInterfaces_eq_ok_iff.mp hi
      obtain rfl := Option.some.inj (Except.ok.inj h)
      exact ⟨by simp [hb], ⟨hb, hv, hf, ht, hg, hd⟩, rfl, hi⟩
    · rintro ⟨-, ⟨hb, -, -, ht, hg, hd⟩, ⟨hname, hi⟩⟩
      obtain ⟨name, is⟩ := f
      cases hname
      exact ⟨hb, ht, is, readInterfaces_eq_ok_iff.mpr ⟨hg, hd, hi⟩, rfl⟩

theorem listOfTree_eq_ok_iff {policy : EmptyPolicy} {t : Tree} {frus : List Fru} :
    (listOfTree policy t).result = .ok frus ↔
      t.IsTable ∧ (∀ u ∈ kept policy t, IsGoodUnit policy u) ∧
        List.Forall₂ (IsUnit policy) (kept policy t) frus := by
  rw [listOfTree, namedEntries_bind_eq_ok_iff, readAll, collect_const_eq_ok_iff
    (fun e => drops policy (Text.isBlankText e.1))
    (fun e f => IsGoodUnit policy e ∧ IsUnit policy e f)
    (fun _ _ => readOne_none_iff) (fun _ _ _ => readOne_some_iff), List.forall₂_and_left]
  rfl

namespace WellFormed

variable {policy : EmptyPolicy} {t : Tree} (h : WellFormed policy t) {u i : String × Tree}
include h

private theorem isTable {v : Tree} (hv : Visited policy t v) : v.IsTable :=
  ⟨h.mappings v hv, h.stringKeys v hv⟩

private theorem isGoodInterface (hu : u ∈ kept policy t) (hi : i ∈ kept policy u.2) :
    IsGoodInterface policy i where
  named := named_of_mem_filter (fun _ hb => hb) (fun hp => h.names hp _ (.unit hu)) hi
  table := h.isTable (.interface hu hi)
  free := (h.identifiers u hu).1 i hi
  properties _ := named_of_mem_filter (fun _ hb => by rw [hb, Bool.true_or])
    fun hp => h.names hp _ (.interface hu hi)

private theorem isGoodUnit (hu : u ∈ kept policy t) : IsGoodUnit policy u where
  named := named_of_mem_filter (fun _ hb => hb) (fun hp => h.names hp _ .root) hu
  valid := (h.units u hu).1
  free := (h.units u hu).2
  table := h.isTable (.unit hu)
  interfaces _ hi := h.isGoodInterface hu hi
  distinct := (h.identifiers u hu).2

end WellFormed

/-- Well-formed descriptions are tables of good units with references for all kept properties. -/
theorem wellFormed_iff {policy : EmptyPolicy} {t : Tree} :
    WellFormed policy t ↔ t.IsTable ∧ (∀ u ∈ kept policy t, IsGoodUnit policy u) ∧
      ∀ u ∈ kept policy t, ∀ i ∈ kept policy u.2, ∀ p ∈ keptProperties policy i.2,
        ∃ r, Writes p.2 r := by
  constructor
  · intro h
    exact ⟨h.isTable .root, fun _ hu => h.isGoodUnit hu, h.references⟩
  · rintro ⟨ht, hu, hr⟩
    have table {v : Tree} (hv : Visited policy t v) : v.IsTable := by
      cases hv with
      | root => exact ht
      | unit h => exact (hu _ h).table
      | interface h hi => exact ((hu _ h).interfaces _ hi).table
    refine ⟨fun v hv => (table hv).mapping, fun v hv => (table hv).stringKeys, ?_,
      fun u h => ⟨(hu u h).valid, (hu u h).free⟩, hr,
      fun u h => ⟨fun i hi => ((hu u h).interfaces i hi).free, (hu u h).distinct⟩⟩
    -- nothing is dropped under this policy, so every entry has been looked at
    rintro rfl v hv e he
    cases hv with
    | root => exact (hu e (by simpa [kept] using he)).named
    | unit h => exact ((hu _ h).interfaces e (by simpa [kept] using he)).named
    | interface h hi =>
      exact ((hu _ h).interfaces _ hi).properties e (by simpa [keptProperties] using he)

private theorem exists_units_iff {policy : EmptyPolicy} {t : Tree} :
    (∃ frus, List.Forall₂ (IsUnit policy) (kept policy t) frus) ↔
      ∀ u ∈ kept policy t, ∀ i ∈ kept policy u.2, ∀ p ∈ keptProperties policy i.2,
        ∃ r, Writes p.2 r := by
  constructor
  · rintro ⟨frus, h⟩ u hu i hi p hp
    obtain ⟨f, -, hf⟩ := Pointwise.exists_right h hu
    obtain ⟨j, -, hj⟩ := Pointwise.exists_right hf.interfaces hi
    obtain ⟨b, -, hb⟩ := Pointwise.exists_right hj.properties hp
    exact ⟨_, hb.reference⟩
  · intro h
    refine Pointwise.exists_forall₂ fun u hu => ?_
    obtain ⟨is, his⟩ := Pointwise.exists_forall₂ (R := IsInterface policy) fun i hi => by
      obtain ⟨bs, hbs⟩ := Pointwise.exists_forall₂ (R := IsBinding) fun p hp => by
        obtain ⟨r, hr⟩ := h u hu i hi p hp
        exact ⟨⟨p.1, r⟩, rfl, hr⟩
      exact ⟨⟨i.1, _, bs⟩, rfl, rfl, hbs⟩
    exact ⟨⟨u.1, is⟩, rfl, his⟩

theorem accepted_iff {policy : EmptyPolicy} {t : Tree} :
    (∃ frus, (listOfTree policy t).result = .ok frus) ↔ WellFormed policy t := by
  simp only [listOfTree_eq_ok_iff, wellFormed_iff, ← exists_units_iff]
  simp only [exists_and_left]

/-- A description is accepted just when it is well formed, and then what is read are its kept units,
interfaces and properties, each once and in the order of the document. -/
theorem accepts_exactly_well_formed (policy : EmptyPolicy) (t : Tree) :
    ((∃ frus, (listOfTree policy t).result = .ok frus) ↔ WellFormed policy t) ∧
      ∀ frus, (listOfTree policy t).result = .ok frus ↔
        WellFormed policy t ∧ List.Forall₂ (IsUnit policy) (kept policy t) frus := by
  refine ⟨accepted_iff, fun frus => ?_⟩
  constructor
  · intro h
    exact ⟨accepted_iff.mp ⟨frus, h⟩, (listOfTree_eq_ok_iff.mp h).2.2⟩
  · rintro ⟨hw, h⟩
    obtain ⟨ht, hu, -⟩ := wellFormed_iff.mp hw
    exact listOfTree_eq_ok_iff.mpr ⟨ht, hu, h⟩

end VpdHeaders.Fru
