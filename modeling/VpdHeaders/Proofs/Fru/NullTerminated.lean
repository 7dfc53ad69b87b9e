import VpdHeaders.Proofs.Cpp.NullTerminated
import VpdHeaders.Proofs.Fru.Meaning

/-! # Which names arrive in the object that a specialization assembles

A key is a string made from a pointer to its literal. No such key holds NUL, so an object can be the
one described only if no name of the description does. -/
namespace VpdHeaders
open Cpp Dictionary

variable {α : Type} {get : Reference → α}

/-- The statement as it is run. -/
def Statement.compiled : Statement → Statement
  | .declare container => .declare container
  | .assign container key value => .assign container (upToNull key) value
  | .emplace key container => .emplace (upToNull key) container

abbrev Dictionary.IsNullFree (content : Dictionary α) : Prop :=
  content.All fun key _ => Cpp.IsNullFree key

structure Memory.IsNullFree (m : Memory α) : Prop where
  locals : ∀ x content, m.locals x = some (.filled content) → content.IsNullFree
  object : m.object.All fun name content => Cpp.IsNullFree name ∧ content.IsNullFree

namespace Statement

theorem isNullFree_start : (Memory.start : Memory α).IsNullFree :=
  ⟨fun _ _ h => (nomatch h), all_empty⟩

private theorem isNullFree_update {m : Memory α} (hm : m.IsNullFree) {x : String} {cell : Cell α}
    (hcell : ∀ content, cell = .filled content → content.IsNullFree) :
    ∀ y content, Function.update m.locals x (some cell) y = some (.filled content) →
      content.IsNullFree := by
  intro y content hy
  by_cases hx : y = x
  · subst hx
    rw [Function.update_self] at hy
    exact hcell content (Option.some.inj hy)
  · rw [Function.update_of_ne hx] at hy
    exact hm.locals y content hy

/-- One statement. What it stores, it stores under the key that is made from its literal. -/
theorem isNullFree_exec {s : Statement} {m m' : Memory α} (hm : m.IsNullFree)
    (h : s.compiled.exec get m = some m') : m'.IsNullFree := by
  cases s with
  | declare x =>
    simp only [compiled, exec] at h
    split at h
    · simp at h
    · obtain rfl := Option.some.inj h
      refine ⟨isNullFree_update hm fun content hc => ?_, hm.object⟩
      obtain rfl := Cell.filled.inj hc
      exact all_empty
  | assign x key r =>
    simp only [compiled, exec] at h
    split at h
    · next content hx =>
      obtain rfl := Option.some.inj h
      refine ⟨isNullFree_update hm fun content' hc => ?_, hm.object⟩
      obtain rfl := Cell.filled.inj hc
      exact (hm.locals x content hx).update (isNullFree_upToNull key)
    · simp at h
  | emplace key x =>
    simp only [compiled, exec] at h
    split at h
    · next content hx =>
      obtain rfl := Option.some.inj h
      refine ⟨isNullFree_update hm fun _ hc => (by cases hc), ?_⟩
      refine hm.object.update ⟨isNullFree_upToNull key, ?_⟩
      cases hfound : m.object (upToNull key) with
      | none => exact hm.locals x content hx
      | some earlier => exact (hm.object _ earlier hfound).2
    · simp at h

/-- A whole run, by induction on its statements. -/
theorem isNullFree_execAll {body : List Statement} {m m' : Memory α} (hm : m.IsNullFree)
    (h : execAll get (body.map compiled) m = some m') : m'.IsNullFree := by
  induction body generalizing m with
  | nil =>
    obtain rfl := Option.some.inj h
    exact hm
  | cons s body ih =>
    obtain ⟨next, hs, hrest⟩ := Option.bind_eq_some_iff.mp h
    exact ih (isNullFree_exec hm hs) hrest

theorem isNullFree_assembled {body : List Statement} {object : Dictionary (Dictionary α)}
    (h : assembled get (body.map compiled) = some object) :
    object.All fun name content => Cpp.IsNullFree name ∧ content.IsNullFree := by
  obtain ⟨m, hrun, rfl⟩ := Option.map_eq_some_iff.mp h
  exact (isNullFree_execAll isNullFree_start hrun).object

end Statement

namespace Fru
open Statement Description

def names (f : Fru) : List String :=
  f.interfaces.flatMap fun i => i.name :: i.properties.map Binding.name

private theorem compiled_body {f : Fru} (h : ∀ name ∈ f.names, Cpp.IsNullFree name) :
    f.body.map compiled = f.body := by
  have hname {i : Interface} (hi : i ∈ f.interfaces) {name : String}
      (hn : name ∈ i.name :: i.properties.map Binding.name) : upToNull name = name :=
    upToNull_eq_self_iff.mpr (h name (List.mem_flatMap.mpr ⟨i, hi, hn⟩))
  refine Pointwise.map_eq_self
    (forall_mem_body (fun _ _ => rfl) (fun i hi b hb => ?_) fun i hi => ?_)
  · rw [compiled, hname hi (List.mem_cons_of_mem _ (List.mem_map_of_mem hb))]
  · rw [compiled, hname hi List.mem_cons_self]

/-- The compiled program assembles the object just when no name holds NUL. -/
theorem IsProgram.assembled_compiled_iff {f : Fru} (h : f.IsProgram) (get : Reference → α) :
    assembled get (f.body.map compiled) =
        some (ofList Interface.name (fun i => Interface.content get i.properties) f.interfaces) ↔
      ∀ name ∈ f.names, Cpp.IsNullFree name := by
  constructor
  · intro heq name hname
    have hinterfaces := (all_ofList_iff h.names).mp (isNullFree_assembled heq)
    obtain ⟨i, hi, hname⟩ := List.mem_flatMap.mp hname
    have hproperties := (all_ofList_iff (h.fillable i hi).properties).mp (hinterfaces i hi).2
    rcases List.mem_cons.mp hname with rfl | hname
    · exact (hinterfaces i hi).1
    · obtain ⟨b, hb, rfl⟩ := List.mem_map.mp hname
      exact hproperties b hb
  · intro hfree
    rw [compiled_body hfree]
    exact h.assembled_eq get

variable {policy : EmptyPolicy}

/-- The names of the kept interfaces of an entry and of their kept properties. -/
def keptNames (policy : EmptyPolicy) (t : Tree) : List String :=
  (kept policy t).flatMap fun i => i.1 :: (keptProperties policy i.2).map Prod.fst

theorem IsUnit.names_eq {u : String × Tree} {f : Fru} (h : IsUnit policy u f) :
    f.names = keptNames policy u.2 := by
  refine Pointwise.flatMap_eq_flatMap (fun e i hi => ?_) h.interfaces
  rw [hi.name, Pointwise.map_eq_map (fun _ _ hb => hb.name) hi.properties]

/-- A specialization with the name of an entry that assembles, once it is compiled, the object which
the entry describes just when no name of the entry holds NUL. -/
structure Arrives (policy : EmptyPolicy) (e : String × Tree) (s : Specialization) : Prop where
  unit : s.unit = e.1
  object : ∀ {α : Type} (get : Reference → α),
    assembled get (s.body.map compiled) = some (described get policy e.2) ↔
      ∀ name ∈ keptNames policy e.2, Cpp.IsNullFree name

theorem arrives_of_render {scope : List String} {t : Tree} {text : String}
    (hs : ∀ segment ∈ scope, Identifier.isValid segment = true)
    (hd : ∀ v, Visited policy t v → v.HasDistinctKeys)
    (htext : (render scope policy t).result = .ok text) :
    ∃ units, read? text = some (scope, units) ∧
      List.Forall₂ (Arrives policy) (kept policy t) units := by
  obtain ⟨frus, hread, hunits⟩ := read?_render hs htext
  refine ⟨_, hread, ?_⟩
  rw [List.forall₂_map_right_iff]
  refine hunits.imp fun u f h => ⟨h.2.name, fun get => ?_⟩
  obtain ⟨⟨hu, hg⟩, hf⟩ := h
  rw [← object_eq get hf.interfaces, ← hf.names_eq]
  exact (isProgram_of_isUnit hd hu hg hf).assembled_compiled_iff get

end Fru

end VpdHeaders
