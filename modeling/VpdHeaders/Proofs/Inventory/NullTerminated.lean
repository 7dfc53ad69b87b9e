import VpdHeaders.Proofs.Cpp.NullTerminated
import VpdHeaders.Proofs.Dictionary
import VpdHeaders.Proofs.Inventory.HeaderReading
import VpdHeaders.Proofs.Inventory.WellFormed

/-! # Which texts arrive in the map of objects

Keys and string values are made from pointers to literals. None of them holds NUL, so the map can be
the one described only if no path, name or string value of the description does. -/
namespace VpdHeaders
open Cpp Dictionary

/-- The value as a program has it. -/
def Literal.compiled : Literal → Literal
  | .string s => .string (upToNull s)
  | l => l

def Literal.texts : Literal → List String
  | .string s => [s]
  | _ => []

namespace Literal

theorem isNullFree_compiled (l : Literal) : ∀ s ∈ l.compiled.texts, IsNullFree s := by
  cases l with
  | string s => simpa [compiled, texts] using isNullFree_upToNull s
  | _ => simp [compiled, texts]

theorem compiled_eq_self {l : Literal} (h : ∀ s ∈ l.texts, IsNullFree s) : l.compiled = l := by
  cases l with
  | string s => rw [compiled, upToNull_eq_self_iff.mpr (h s (List.mem_singleton.mpr rfl))]
  | _ => rfl

end Literal

namespace Inventory
open Description

def Property.compiled (p : Property) : Property := ⟨upToNull p.name, p.value.compiled⟩

def Interface.compiled (i : Interface) : Interface :=
  ⟨upToNull i.name, i.properties.map Property.compiled⟩

def Object.compiled (o : Object) : Object := ⟨upToNull o.path, o.interfaces.map Interface.compiled⟩

def Property.texts (p : Property) : List String := p.name :: p.value.texts

def Interface.texts (i : Interface) : List String := i.name :: i.properties.flatMap Property.texts

def Object.texts (o : Object) : List String := o.path :: o.interfaces.flatMap Interface.texts

def Interface.content (ps : List Property) : Dictionary Literal :=
  ofList Property.name Property.value ps

def Object.content (is : List Interface) : Dictionary (Dictionary Literal) :=
  ofList Interface.name (fun i => Interface.content i.properties) is

/-- The map that is initialized with a list of objects. Of several entries with one key the first
counts, on every level. -/
def content (objects : List Object) : Dictionary (Dictionary (Dictionary Literal)) :=
  ofList Object.path (fun o => Object.content o.interfaces) objects

/-- No text of a map holds NUL, on whatever level. -/
abbrev Interface.IsNullFree (content : Dictionary Literal) : Prop :=
  content.All fun property l => ∀ s ∈ property :: l.texts, Cpp.IsNullFree s

abbrev Object.IsNullFree (content : Dictionary (Dictionary Literal)) : Prop :=
  content.All fun interface ps => Cpp.IsNullFree interface ∧ Interface.IsNullFree ps

abbrev IsNullFree (content : Dictionary (Dictionary (Dictionary Literal))) : Prop :=
  content.All fun path is => Cpp.IsNullFree path ∧ Object.IsNullFree is

structure HasDistinctKeys (objects : List Object) : Prop where
  paths : (objects.map Object.path).Nodup
  interfaces : ∀ o ∈ objects, (o.interfaces.map Interface.name).Nodup
  properties : ∀ o ∈ objects, ∀ i ∈ o.interfaces, (i.properties.map Property.name).Nodup

section Compiled

private theorem isNullFree_interface_compiled (i : Interface) :
    Interface.IsNullFree (Interface.content i.compiled.properties) := by
  refine all_ofList fun p hp => ?_
  obtain ⟨p, -, rfl⟩ := List.mem_map.mp hp
  exact List.forall_mem_cons.mpr ⟨isNullFree_upToNull p.name, p.value.isNullFree_compiled⟩

private theorem isNullFree_object_compiled (o : Object) :
    Object.IsNullFree (Object.content o.compiled.interfaces) := by
  refine all_ofList fun i hi => ?_
  obtain ⟨i, -, rfl⟩ := List.mem_map.mp hi
  exact ⟨isNullFree_upToNull i.name, isNullFree_interface_compiled i⟩

/-- Whatever the objects are, the map that a program has is free of NUL. -/
theorem isNullFree_content_compiled (objects : List Object) :
    IsNullFree (content (objects.map Object.compiled)) := by
  refine all_ofList fun o ho => ?_
  obtain ⟨o, -, rfl⟩ := List.mem_map.mp ho
  exact ⟨isNullFree_upToNull o.path, isNullFree_object_compiled o⟩

private theorem compiled_property_eq_self {p : Property} (h : ∀ s ∈ p.texts, Cpp.IsNullFree s) :
    p.compiled = p := by
  rw [Property.compiled, upToNull_eq_self_iff.mpr (h p.name List.mem_cons_self),
    Literal.compiled_eq_self fun s hs => h s (List.mem_cons_of_mem _ hs)]

private theorem compiled_interface_eq_self {i : Interface} (h : ∀ s ∈ i.texts, Cpp.IsNullFree s) :
    i.compiled = i := by
  have hproperties : i.properties.map Property.compiled = i.properties :=
    Pointwise.map_eq_self fun p hp => compiled_property_eq_self fun s hs =>
      h s (List.mem_cons_of_mem _ (List.mem_flatMap.mpr ⟨p, hp, hs⟩))
  rw [Interface.compiled, upToNull_eq_self_iff.mpr (h i.name List.mem_cons_self), hproperties]

private theorem compiled_object_eq_self {o : Object} (h : ∀ s ∈ o.texts, Cpp.IsNullFree s) :
    o.compiled = o := by
  have hinterfaces : o.interfaces.map Interface.compiled = o.interfaces :=
    Pointwise.map_eq_self fun i hi => compiled_interface_eq_self fun s hs =>
      h s (List.mem_cons_of_mem _ (List.mem_flatMap.mpr ⟨i, hi, hs⟩))
  rw [Object.compiled, upToNull_eq_self_iff.mpr (h o.path List.mem_cons_self), hinterfaces]

variable {objects : List Object}

private theorem isNullFree_of_content (hd : HasDistinctKeys objects)
    (h : IsNullFree (content objects)) : ∀ o ∈ objects, ∀ s ∈ o.texts, Cpp.IsNullFree s := by
  intro o ho s hs
  obtain ⟨hpath, hinterfaces⟩ := (all_ofList_iff hd.paths).mp h o ho
  rcases List.mem_cons.mp hs with rfl | hs
  · exact hpath
  obtain ⟨i, hi, hs⟩ := List.mem_flatMap.mp hs
  obtain ⟨hname, hproperties⟩ := (all_ofList_iff (hd.interfaces o ho)).mp hinterfaces i hi
  rcases List.mem_cons.mp hs with rfl | hs
  · exact hname
  obtain ⟨p, hp, hs⟩ := List.mem_flatMap.mp hs
  exact (all_ofList_iff (hd.properties o ho i hi)).mp hproperties p hp s hs

/-- A program has the map of the objects just when no text of them holds NUL. -/
theorem content_compiled_eq_iff (hd : HasDistinctKeys objects) :
    content (objects.map Object.compiled) = content objects ↔
      ∀ s ∈ objects.flatMap Object.texts, Cpp.IsNullFree s := by
  rw [List.forall_mem_flatMap]
  constructor
  · intro heq
    have hfree := isNullFree_content_compiled objects
    rw [heq] at hfree
    exact isNullFree_of_content hd hfree
  · intro hfree
    rw [Pointwise.map_eq_self fun o ho => compiled_object_eq_self (hfree o ho)]

end Compiled

variable {policy : EmptyPolicy} {t : Tree}

/-- What a description stands for: each kept object and interface with the values of its kept
properties. -/
def described (policy : EmptyPolicy) (t : Tree) : Dictionary (Dictionary (Dictionary Literal)) :=
  fun path => ((kept policy t).lookup path).map fun object interface =>
    ((kept policy object).lookup interface).map fun value property =>
      ((keptProperties policy value).lookup property).bind literal?

def writtenTexts : Tree → List String
  | .string s => [s]
  | _ => []

/-- The paths, names and string values of all that is kept. -/
def keptTexts (policy : EmptyPolicy) (t : Tree) : List String :=
  (kept policy t).flatMap fun o => o.1 :: (kept policy o.2).flatMap fun i =>
    i.1 :: (keptProperties policy i.2).flatMap fun p => p.1 :: writtenTexts p.2

private theorem interface_content_eq {es : List (String × Tree)} {ps : List Property}
    (h : List.Forall₂ IsProperty es ps) :
    Interface.content ps = fun property => (es.lookup property).bind literal? :=
  ofList_eq_lookup_bind (fun _ _ hp => ⟨hp.name, hp.value⟩) h

private theorem object_content_eq {es : List (String × Tree)} {is : List Interface}
    (h : List.Forall₂ (IsInterface policy) es is) :
    Object.content is = fun interface => (es.lookup interface).map fun value property =>
      ((keptProperties policy value).lookup property).bind literal? := by
  funext interface
  rw [Option.map_eq_bind (x := es.lookup interface)]
  refine congrFun (ofList_eq_lookup_bind (fun e i hi => ⟨hi.name, ?_⟩) h) interface
  rw [interface_content_eq hi.properties]
  rfl

private theorem content_eq {objects : List Object}
    (h : List.Forall₂ (IsObject policy) (kept policy t) objects) :
    content objects = described policy t := by
  funext path
  rw [described, Option.map_eq_bind (x := (kept policy t).lookup path)]
  refine congrFun (ofList_eq_lookup_bind (fun e o ho => ⟨ho.path, ?_⟩) h) path
  rw [object_content_eq ho.interfaces]
  rfl

private theorem texts_eq_writtenTexts {v : Tree} {l : Literal} (h : Denotes v l) :
    l.texts = writtenTexts v := by
  cases h with
  | boolean b => rfl
  | string s => rfl
  | @integer _ n h =>
    cases v with
    | string s => simp [Tree.untagged] at h
    | _ => rfl

private theorem texts_eq {objects : List Object}
    (h : List.Forall₂ (IsObject policy) (kept policy t) objects) :
    objects.flatMap Object.texts = keptTexts policy t := by
  refine Pointwise.flatMap_eq_flatMap (fun o o' ho => ?_) h
  rw [Object.texts, ho.path]
  refine congrArg _ (Pointwise.flatMap_eq_flatMap (fun i i' hi => ?_) ho.interfaces)
  rw [Interface.texts, hi.name]
  refine congrArg _ (Pointwise.flatMap_eq_flatMap (fun p p' hp => ?_) hi.properties)
  rw [Property.texts, hp.name, texts_eq_writtenTexts (literal?_eq_some_iff.mp hp.value)]

private theorem hasDistinctKeys {objects : List Object}
    (hd : ∀ v, Visited policy t v → v.HasDistinctKeys)
    (h : List.Forall₂ (IsObject policy) (kept policy t) objects) : HasDistinctKeys objects where
  paths := names_nodup (fun _ _ ho => ho.path) (hd t .root) h
  interfaces := by
    intro o ho
    obtain ⟨e, he, ho⟩ := Pointwise.exists_left h ho
    exact names_nodup (fun _ _ hi => hi.name) (hd _ (.object he)) ho.interfaces
  properties := by
    intro o ho i hi
    obtain ⟨e, he, ho⟩ := Pointwise.exists_left h ho
    obtain ⟨e', he', hi⟩ := Pointwise.exists_left ho.interfaces hi
    exact names_nodup (fun _ _ hp => hp.name) (hd _ (.interface he he')) hi.properties

/-- The map that a program has from a rendered header is the one described just when no text of the
description holds NUL. -/
theorem content_compiled_of_render {scope : List String} {text : String}
    (hs : ∀ segment ∈ scope, Identifier.isValid segment = true)
    (hd : ∀ v, Visited policy t v → v.HasDistinctKeys)
    (htext : (render scope policy t).result = .ok text) :
    ∃ objects, read? text = some (scope ++ ["extra"], objects) ∧
      (content (objects.map Object.compiled) = described policy t ↔
        ∀ s ∈ keptTexts policy t, Cpp.IsNullFree s) := by
  obtain ⟨objects, hobjects, rfl⟩ := render_eq_ok htext
  obtain ⟨-, -, hkept⟩ := listOfTree_eq_ok_iff.mp hobjects
  refine ⟨objects, read?_header hs, ?_⟩
  rw [← content_eq hkept, ← texts_eq hkept]
  exact content_compiled_eq_iff (hasDistinctKeys hd hkept)

end Inventory

end VpdHeaders
