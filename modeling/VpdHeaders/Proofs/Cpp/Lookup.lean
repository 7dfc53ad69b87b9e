import Mathlib.Data.List.Infix

/-! # Which namespace a qualified name starts from

A name in front of `::` is looked up in the namespaces around it, from the innermost outwards, and
the first that is found there is taken. -/
namespace VpdHeaders.Cpp

/-- The namespaces known inside a scope: the standard library, and all that the scope opens. -/
def IsKnown (scope ns : List String) : Prop := ns = ["std"] ∨ ns ≠ [] ∧ ns <+: scope

instance (scope ns : List String) : Decidable (IsKnown scope ns) := inferInstanceAs (Decidable (_ ∨ _))

/-- The namespace that a name in front of `::` stands for inside a scope. -/
def resolve? (scope : List String) (name : String) : Option (List String) :=
  (scope.inits.reverse.map (· ++ [name])).find? fun ns => IsKnown scope ns

variable {name : String}

private theorem exists_append_singleton_prefix_iff {l : List String} :
    (∃ outer, outer <+: l ∧ outer ++ [name] <+: l) ↔ name ∈ l := by
  constructor
  · rintro ⟨outer, -, h⟩
    exact h.subset (by simp)
  · intro h
    obtain ⟨outer, inner, rfl⟩ := List.append_of_mem h
    exact ⟨outer, List.prefix_append _ _, ⟨inner, by simp⟩⟩

private theorem isKnown_nested_iff {first : String} {rest outer : List String} :
    IsKnown (first :: rest) (first :: (outer ++ [name])) ↔ outer ++ [name] <+: rest := by
  simp [IsKnown]

private def nested (first : String) (rest : List String) (name : String) : List (List String) :=
  rest.inits.reverse.map fun outer => first :: (outer ++ [name])

private theorem find?_nested_eq_none_iff (first : String) {rest : List String} :
    ((nested first rest name).find? fun ns => IsKnown (first :: rest) ns) = none ↔ name ∉ rest := by
  rw [← exists_append_singleton_prefix_iff]
  simp only [nested, List.find?_eq_none, List.forall_mem_map, List.mem_reverse, List.mem_inits,
    decide_eq_true_eq, isKnown_nested_iff, not_exists, not_and]

/-- A namespace at the top is found just when no namespace inside the outermost one has its name. -/
theorem resolve?_eq_top_iff {scope : List String} (h : IsKnown scope [name]) :
    resolve? scope name = some [name] ↔ name ∉ scope.tail := by
  cases scope with
  | nil => simp [resolve?, h]
  | cons first rest =>
    have hcandidates : (first :: rest).inits.reverse.map (· ++ [name]) =
        nested first rest name ++ [[name]] := by simp [nested, List.map_reverse]
    have hlast : [[name]].find? (fun ns => IsKnown (first :: rest) ns) = some [name] := by simp [h]
    rw [resolve?, hcandidates, List.find?_append, hlast, List.tail_cons,
      ← find?_nested_eq_none_iff first]
    cases hfound : (nested first rest name).find? fun ns => IsKnown (first :: rest) ns with
    | none => simp
    | some ns =>
      obtain ⟨outer, -, rfl⟩ := List.mem_map.mp (List.mem_of_find?_eq_some hfound)
      simp

/-- Inside two namespaces the inner one is found, although the library is known too. -/
example : resolve? ["a", "std"] "std" = some ["a", "std"] := by decide

end VpdHeaders.Cpp
