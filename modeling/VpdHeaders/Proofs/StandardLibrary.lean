import VpdHeaders.Proofs.Cpp.Lookup
import VpdHeaders.Proofs.Fru.Meaning
import VpdHeaders.Proofs.Inventory.HeaderReading

/-! # When `std` means the standard library

A header uses `std::` inside the namespaces that it opens. A local is never called `std`, but a
namespace may be, and inside of another one it hides the library. -/
namespace VpdHeaders

def Statement.declared? : Statement → Option String
  | .declare container => some container
  | _ => none

namespace Fru

def Specialization.locals (s : Specialization) : List String := s.body.filterMap Statement.declared?

private theorem locals_body (f : Fru) :
    Specialization.locals ⟨f.name, f.body⟩ = f.interfaces.map Interface.identifier := by
  have hfill (i : Interface) : i.statements.filterMap Statement.declared? = [i.identifier] := by
    simp [Interface.statements, Statement.declared?]
  have hemplace : (f.interfaces.map Interface.emplacement).filterMap Statement.declared? = [] := by
    rw [List.filterMap_map]
    exact List.filterMap_eq_nil_iff.mpr fun i _ => rfl
  rw [Specialization.locals, body, List.filterMap_append, List.filterMap_flatMap, hemplace]
  simp only [hfill, List.append_nil, List.map_eq_flatMap]

/-- No specialization has a local that is called like the library. -/
theorem IsUnit.std_not_mem_locals {policy : EmptyPolicy} {u : String × Tree} {f : Fru}
    (hf : IsUnit policy u f) (hg : IsGoodUnit policy u) :
    "std" ∉ Specialization.locals ⟨f.name, f.body⟩ := by
  rw [locals_body]
  intro hstd
  obtain ⟨i, hi, hstd⟩ := List.mem_map.mp hstd
  refine not_mem_outerNames_of_isUnit hg hf i hi ?_
  rw [hstd]
  decide

end Fru

open Cpp

private theorem resolve?_std_iff (scope : List String) :
    resolve? scope "std" = some ["std"] ↔ "std" ∉ scope.tail := resolve?_eq_top_iff (.inl rfl)

private theorem std_mem_tail_extra_iff (scope : List String) :
    "std" ∈ (scope ++ ["extra"]).tail ↔ "std" ∈ scope.tail := by
  cases scope <;> simp

/-- No local of an accessor header is called `std`. In both headers the name means the library just
when no namespace has it, the outermost one of the scope apart. -/
theorem std_means_library_iff {scope : List String} (hscope : Scope.Accepted scope)
    (policy : EmptyPolicy) (t : Tree) :
    (∀ text, (Fru.render scope policy t).result = .ok text →
      ∃ units, Fru.read? text = some (scope, units) ∧ (∀ u ∈ units, "std" ∉ u.locals) ∧
        (resolve? scope "std" = some ["std"] ↔ "std" ∉ scope.tail)) ∧
      ∀ text, (Inventory.render scope policy t).result = .ok text →
        ∃ inner objects, Inventory.read? text = some (inner, objects) ∧
          (resolve? inner "std" = some ["std"] ↔ "std" ∉ scope.tail) := by
  constructor
  · intro text htext
    obtain ⟨frus, hread, hunits⟩ := Fru.read?_render hscope.isValid htext
    refine ⟨_, hread, ?_, resolve?_std_iff scope⟩
    intro s hs
    obtain ⟨f, hf, rfl⟩ := List.mem_map.mp hs
    obtain ⟨u, -, ⟨-, hg⟩, hf⟩ := Pointwise.exists_left hunits hf
    exact hf.std_not_mem_locals hg
  · intro text htext
    obtain ⟨objects, -, rfl⟩ := Inventory.render_eq_ok htext
    refine ⟨_, _, Inventory.read?_header hscope.isValid, ?_⟩
    rw [resolve?_std_iff, std_mem_tail_extra_iff]

/-- The library is found from a header for the board. -/
theorem board_finds_library :
    Scope.Accepted ["openpower", "vpd"] ∧
      ∃ text, (Fru.render ["openpower", "vpd"] .skip Fru.board).result = .ok text ∧
        ∃ units, Fru.read? text = some (["openpower", "vpd"], units) ∧
          (∀ u ∈ units, "std" ∉ u.locals) ∧ resolve? ["openpower", "vpd"] "std" = some ["std"] := by
  have hscope : Scope.Accepted ["openpower", "vpd"] := .spec (rfl : Scope.parse "openpower::vpd" = _)
  obtain ⟨text, htext⟩ : ∃ text,
      (Fru.render ["openpower", "vpd"] .skip Fru.board).result = .ok text := ⟨_, rfl⟩
  obtain ⟨units, hread, hlocals, hmeans⟩ :=
    (std_means_library_iff hscope .skip Fru.board).1 text htext
  exact ⟨hscope, text, htext, units, hread, hlocals, hmeans.mpr (by decide)⟩

/-- A scope that both ways in accept, and in whose headers `std` is not the library. -/
theorem nested_std_hides_library :
    Scope.parse "a::std" = .ok ["a", "std"] ∧
      (Config.ofText "namespace = ['a', 'std']").toOption.map Config.scope = some ["a", "std"] ∧
      (∃ text, (Fru.render ["a", "std"] .reject .null).result = .ok text ∧
        Fru.read? text = some (["a", "std"], [])) ∧
      (∃ text, (Inventory.render ["a", "std"] .reject .null).result = .ok text ∧
        Inventory.read? text = some (["a", "std", "extra"], [])) ∧
      resolve? ["a", "std"] "std" = some ["a", "std"] ∧
      resolve? ["a", "std", "extra"] "std" = some ["a", "std"] := by
  have hvalid : ∀ segment ∈ ["a", "std"], Identifier.isValid segment = true := by decide
  exact ⟨rfl, by decide +kernel, ⟨_, rfl, Fru.read?_header hvalid (by simp)⟩,
    ⟨_, rfl, Inventory.read?_header hvalid⟩, by decide, by decide⟩

end VpdHeaders
