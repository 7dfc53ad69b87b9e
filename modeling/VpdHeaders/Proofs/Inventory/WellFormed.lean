import VpdHeaders.Inventory.Reading
import VpdHeaders.Proofs.Description.Kept
import VpdHeaders.Proofs.Inventory.Value
import VpdHeaders.Proofs.Pointwise

/-! # Which descriptions of inventory objects are accepted, and what they give -/
namespace VpdHeaders.Inventory
open Description

/-- The entries of an interface that are dropped neither for a blank name nor for a null. -/
def keptProperties (policy : EmptyPolicy) (t : Tree) : List (String × Tree) :=
  t.stringEntries.filter fun e => !drops policy (Text.isBlankText e.1 || e.2.isNull)

structure IsProperty (e : String × Tree) (p : Property) : Prop where
  name : p.name = e.1
  value : literal? e.2 = some p.value

structure IsInterface (policy : EmptyPolicy) (e : String × Tree) (i : Interface) : Prop where
  name : i.name = e.1
  properties : List.Forall₂ IsProperty (keptProperties policy e.2) i.properties

structure IsObject (policy : EmptyPolicy) (e : String × Tree) (o : Object) : Prop where
  path : o.path = e.1
  interfaces : List.Forall₂ (IsInterface policy) (kept policy e.2) o.interfaces

/-- The root mapping, and the mappings of the kept objects and of their kept interfaces. -/
inductive Visited (policy : EmptyPolicy) (t : Tree) : Tree → Prop
  | root : Visited policy t t
  | object {o} (ho : o ∈ kept policy t) : Visited policy t o.2
  | interface {o i} (ho : o ∈ kept policy t) (hi : i ∈ kept policy o.2) : Visited policy t i.2

/-- What a description has to be like to be accepted. -/
structure WellFormed (policy : EmptyPolicy) (t : Tree) : Prop where
  mappings : ∀ v, Visited policy t v → v.IsMapping
  stringKeys : ∀ v, Visited policy t v → v.HasStringKeys
  names : policy = .reject → ∀ v, Visited policy t v →
    ∀ e ∈ v.stringEntries, Text.isBlankText e.1 = false
  values : ∀ o ∈ kept policy t, ∀ i ∈ kept policy o.2, ∀ p ∈ keptProperties policy i.2,
    IsScalar p.2

private theorem readLiteral_eq_ok_iff {location : Location} {value : Tree} {l : Literal} :
    readLiteral location value = .ok l ↔ literal? value = some l := by
  cases h : literal? value <;> simp [readLiteral, h]

theorem readProperty_none_iff {policy : EmptyPolicy} {path interface property : String}
    {value : Tree} :
    (readProperty policy path interface property value).result = .ok none ↔
      drops policy (Text.isBlankText property || value.isNull) = true := by
  rw [readProperty, named_none_iff, valued_none_iff]
  cases policy <;> cases Text.isBlankText property <;> simp [Traced.result_bind_eq_ok]

private theorem readProperty_some_iff {policy : EmptyPolicy} {path interface property : String}
    {value : Tree} {p : Property} :
    (readProperty policy path interface property value).result = .ok (some p) ↔
      drops policy (Text.isBlankText property || value.isNull) = false ∧
        Text.isBlankText property = false ∧ IsProperty (property, value) p := by
  have hp : (∃ l, literal? value = some l ∧ Property.mk property l = p) ↔
      IsProperty (property, value) p := by
    constructor
    · rintro ⟨l, hl, rfl⟩
      exact ⟨rfl, hl⟩
    · rintro ⟨hn, hl⟩
      exact ⟨_, hl, by cases p; cases hn; rfl⟩
  rw [readProperty, named_some_iff, valued_some_iff, ← hp]
  cases Text.isBlankText property <;>
    simp [Traced.result_bind_eq_ok, readLiteral_eq_ok_iff]

private theorem readProperties_eq_ok_iff {policy : EmptyPolicy} {path interface : String}
    {t : Tree} {ps : List Property} :
    (readProperties policy path interface t.stringEntries).result = .ok ps ↔
      (∀ p ∈ keptProperties policy t, Text.isBlankText p.1 = false) ∧
        List.Forall₂ IsProperty (keptProperties policy t) ps := by
  rw [readProperties, collect_const_eq_ok_iff
    (fun e => drops policy (Text.isBlankText e.1 || e.2.isNull))
    (fun e p => Text.isBlankText e.1 = false ∧ IsProperty e p)
    (fun _ _ => readProperty_none_iff) (fun _ _ _ => readProperty_some_iff),
    List.forall₂_and_left]
  rfl

structure IsGoodInterface (policy : EmptyPolicy) (e : String × Tree) : Prop where
  named : Text.isBlankText e.1 = false
  table : e.2.IsTable
  properties : ∀ p ∈ keptProperties policy e.2, Text.isBlankText p.1 = false

theorem readInterface_none_iff {policy : EmptyPolicy} {path interface : String}
    {value : Tree} :
    (readInterface policy path interface value).result = .ok none ↔
      drops policy (Text.isBlankText interface) = true := by
  rw [readInterface, named_none_iff]
  simp [Traced.result_bind_eq_ok]

theorem readInterface_some_iff {policy : EmptyPolicy} {path interface : String}
    {value : Tree} {i : Interface} :
    (readInterface policy path interface value).result = .ok (some i) ↔
      drops policy (Text.isBlankText interface) = false ∧
        IsGoodInterface policy (interface, value) ∧ IsInterface policy (interface, value) i := by
  rw [readInterface, named_some_iff, namedEntries_bind_eq_ok_iff, Traced.result_bind_eq_ok]
  constructor
  · rintro ⟨hn, ht, ps, hread, h⟩
    obtain ⟨hp, hps⟩ := readProperties_eq_ok_iff.mp hread
    obtain rfl := Option.some.inj (Except.ok.inj h)
    exact ⟨by simp [hn], ⟨hn, ht, hp⟩, rfl, hps⟩
  · rintro ⟨-, ⟨hn, ht, hp⟩, ⟨hname, hps⟩⟩
    obtain ⟨name, ps⟩ := i
    cases hname
    exact ⟨hn, ht, ps, readProperties_eq_ok_iff.mpr ⟨hp, hps⟩, rfl⟩

private theorem readInterfaces_eq_ok_iff {policy : EmptyPolicy} {path : String} {t : Tree}
    {is : List Interface} :
    (readInterfaces policy path t.stringEntries).result = .ok is ↔
      (∀ i ∈ kept policy t, IsGoodInterface policy i) ∧
        List.Forall₂ (IsInterface policy) (kept policy t) is := by
  rw [readInterfaces, collect_const_eq_ok_iff (fun e => drops policy (Text.isBlankText e.1))
    (fun e i => IsGoodInterface policy e ∧ IsInterface policy e i)
    (fun _ _ => readInterface_none_iff) (fun _ _ _ => readInterface_some_iff),
    List.forall₂_and_left]
  rfl

structure IsGoodObject (policy : EmptyPolicy) (e : String × Tree) : Prop where
  named : Text.isBlankText e.1 = false
  table : e.2.IsTable
  interfaces : ∀ i ∈ kept policy e.2, IsGoodInterface policy i

theorem readOne_none_iff {policy : EmptyPolicy} {path : String} {value : Tree} :
    (readOne policy path value).result = .ok none ↔ drops policy (Text.isBlankText path) = true := by
  rw [readOne, named_none_iff]
  simp [Traced.result_bind_eq_ok]

theorem readOne_some_iff {policy : EmptyPolicy} {path : String} {value : Tree} {o : Object} :
    (readOne policy path value).result = .ok (some o) ↔
      drops policy (Text.isBlankText path) = false ∧
        IsGoodObject policy (path, value) ∧ IsObject policy (path, value) o := by
  rw [readOne, named_some_iff, namedEntries_bind_eq_ok_iff, Traced.result_bind_eq_ok]
  constructor
  · rintro ⟨hn, ht, is, hread, h⟩
    obtain ⟨-, -, h⟩ := Traced.result_bind_eq_ok.mp h
    obtain ⟨hg, his⟩ := readInterfaces_eq_ok_iff.mp hread
    obtain rfl := Option.some.inj (Except.ok.inj h)
    exact ⟨by simp [hn], ⟨hn, ht, hg⟩, rfl, his⟩
  · rintro ⟨-, ⟨hn, ht, hg⟩, ⟨hpath, his⟩⟩
    obtain ⟨path, is⟩ := o
    cases hpath
    exact ⟨hn, ht, is, readInterfaces_eq_ok_iff.mpr ⟨hg, his⟩, rfl⟩

theorem listOfTree_eq_ok_iff {policy : EmptyPolicy} {t : Tree} {objects : List Object} :
    (listOfTree policy t).result = .ok objects ↔
      t.IsTable ∧ (∀ o ∈ kept policy t, IsGoodObject policy o) ∧
        List.Forall₂ (IsObject policy) (kept policy t) objects := by
  rw [listOfTree, namedEntries_bind_eq_ok_iff, readAll, collect_const_eq_ok_iff
    (fun e => drops policy (Text.isBlankText e.1))
    (fun e o => IsGoodObject policy e ∧ IsObject policy e o)
    (fun _ _ => readOne_none_iff) (fun _ _ _ => readOne_some_iff), List.forall₂_and_left]
  rfl

namespace WellFormed

variable {policy : EmptyPolicy} {t : Tree} (h : WellFormed policy t) {o i : String × Tree}
include h

private theorem isTable {v : Tree} (hv : Visited policy t v) : v.IsTable :=
  ⟨h.mappings v hv, h.stringKeys v hv⟩

private theorem isGoodInterface (ho : o ∈ kept policy t) (hi : i ∈ kept policy o.2) :
    IsGoodInterface policy i where
  named := named_of_mem_filter (fun _ hb => hb) (fun hp => h.names hp _ (.object ho)) hi
  table := h.isTable (.interface ho hi)
  properties _ := named_of_mem_filter (fun _ hb => by rw [hb, Bool.true_or])
    fun hp => h.names hp _ (.interface ho hi)

private theorem isGoodObject (ho : o ∈ kept policy t) : IsGoodObject policy o where
  named := named_of_mem_filter (fun _ hb => hb) (fun hp => h.names hp _ .root) ho
  table := h.isTable (.object ho)
  interfaces _ hi := h.isGoodInterface ho hi

end WellFormed

/-- Well-formed descriptions are tables of good objects with literals for all kept properties. -/
theorem wellFormed_iff {policy : EmptyPolicy} {t : Tree} :
    WellFormed policy t ↔ t.IsTable ∧ (∀ o ∈ kept policy t, IsGoodObject policy o) ∧
      ∀ o ∈ kept policy t, ∀ i ∈ kept policy o.2, ∀ p ∈ keptProperties policy i.2,
        IsScalar p.2 := by
  constructor
  · intro h
    exact ⟨h.isTable .root, fun _ ho => h.isGoodObject ho, h.values⟩
  · rintro ⟨ht, ho, hs⟩
    have table {v : Tree} (hv : Visited policy t v) : v.IsTable := by
      cases hv with
      | root => exact ht
      | object h => exact (ho _ h).table
      | interface h hi => exact ((ho _ h).interfaces _ hi).table
    refine ⟨fun v hv => (table hv).mapping, fun v hv => (table hv).stringKeys, ?_, hs⟩
    -- nothing is dropped under this policy, so every entry has been looked at
    rintro rfl v hv e he
    cases hv with
    | root => exact (ho e (by simpa [kept] using he)).named
    | object h => exact ((ho _ h).interfaces e (by simpa [kept] using he)).named
    | interface h hi =>
      exact ((ho _ h).interfaces _ hi).properties e (by simpa [keptProperties] using he)

private theorem exists_objects_iff {policy : EmptyPolicy} {t : Tree} :
    (∃ objects, List.Forall₂ (IsObject policy) (kept policy t) objects) ↔
      ∀ o ∈ kept policy t, ∀ i ∈ kept policy o.2, ∀ p ∈ keptProperties policy i.2,
        IsScalar p.2 := by
  constructor
  · rintro ⟨objects, h⟩ o ho i hi p hp
    obtain ⟨o', -, ho'⟩ := Pointwise.exists_right h ho
    obtain ⟨i', -, hi'⟩ := Pointwise.exists_right ho'.interfaces hi
    obtain ⟨p', -, hp'⟩ := Pointwise.exists_right hi'.properties hp
    exact isScalar_iff.mpr ⟨_, literal?_eq_some_iff.mp hp'.value⟩
  · intro h
    refine Pointwise.exists_forall₂ fun o ho => ?_
    obtain ⟨is, his⟩ := Pointwise.exists_forall₂ (R := IsInterface policy) fun i hi => by
      obtain ⟨ps, hps⟩ := Pointwise.exists_forall₂ (R := IsProperty) fun p hp => by
        obtain ⟨l, hl⟩ := isScalar_iff.mp (h o ho i hi p hp)
        exact ⟨⟨p.1, l⟩, rfl, literal?_eq_some_iff.mpr hl⟩
      exact ⟨⟨i.1, ps⟩, rfl, hps⟩
    exact ⟨⟨o.1, is⟩, rfl, his⟩

theorem accepted_iff {policy : EmptyPolicy} {t : Tree} :
    (∃ objects, (listOfTree policy t).result = .ok objects) ↔ WellFormed policy t := by
  simp only [listOfTree_eq_ok_iff, wellFormed_iff, ← exists_objects_iff]
  simp only [exists_and_left]

/-- A description is accepted just when it is well formed. What is read are its kept objects,
interfaces and properties, each once and in the order of the document, and each property has the
literal that its value denotes. Floats and integers out of range never have one. -/
theorem keeps_exactly_well_formed (policy : EmptyPolicy) (t : Tree) :
    ((∃ objects, (listOfTree policy t).result = .ok objects) ↔ WellFormed policy t) ∧
      (∀ objects, (listOfTree policy t).result = .ok objects ↔
        WellFormed policy t ∧ List.Forall₂ (IsObject policy) (kept policy t) objects) ∧
      (∀ e p, IsProperty e p ↔ p.name = e.1 ∧ Denotes e.2 p.value) ∧
      ∀ o ∈ kept policy t, ∀ i ∈ kept policy o.2, ∀ p ∈ keptProperties policy i.2,
        ((∃ x, p.2.untagged = .float x) ∨ ∃ n, p.2.untagged = .integer n ∧ 0x8000000000000000 ≤ n) →
          ∀ objects, (listOfTree policy t).result ≠ .ok objects := by
  refine ⟨accepted_iff, fun objects => ?_, fun e p => ?_, fun o ho i hi p hp hv objects h => ?_⟩
  · constructor
    · intro h
      exact ⟨accepted_iff.mp ⟨objects, h⟩, (listOfTree_eq_ok_iff.mp h).2.2⟩
    · rintro ⟨hw, h⟩
      obtain ⟨ht, ho, -⟩ := wellFormed_iff.mp hw
      exact listOfTree_eq_ok_iff.mpr ⟨ht, ho, h⟩
  · rw [← literal?_eq_some_iff]
    exact ⟨fun h => ⟨h.name, h.value⟩, fun h => ⟨h.1, h.2⟩⟩
  · exact not_isScalar hv ((accepted_iff.mp ⟨objects, h⟩).values o ho i hi p hp)

end VpdHeaders.Inventory
