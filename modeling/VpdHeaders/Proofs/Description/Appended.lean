import VpdHeaders.Proofs.Description.Kept

/-! # Entries behind other entries

What is read from the entries of two mappings together is what is read from the first, and behind it
what is read from the second. -/
namespace VpdHeaders

namespace Tree

def table (entries : List (String × Tree)) : Tree :=
  .mapping (entries.map fun e => (.string e.1, e.2))

@[simp] theorem stringEntries_table (entries : List (String × Tree)) :
    (table entries).stringEntries = entries := by
  simp [stringEntries, mappingEntries, table, List.filterMap_map]

end Tree

namespace Description

variable {α : Type}

theorem namedEntries_table (location : Location) (expected : Expectation)
    (l : List (String × Tree)) : namedEntries location expected (.table l) = pure l := by
  have hnamed : named location (l.map fun e => (Tree.string e.1, e.2)) = .ok l := by
    induction l with
    | nil => rfl
    | cons e rest ih =>
      rw [List.map_cons, named, ih]
      rfl
  exact congrArg Traced.lift hnamed

section Collect

variable {read : String → Tree → Traced (Option α)} {l l' : List (String × Tree)}

private theorem collect_const (read : String → Tree → Traced (Option α)) (earlier : List α)
    (l : List (String × Tree)) : collect (fun _ => read) earlier l = collect (fun _ => read) [] l := by
  induction l generalizing earlier with
  | nil => rfl
  | cons e rest ih =>
    simp only [collect]
    congr 1
    funext first
    rw [ih (earlier ++ first.toList), ih ([] ++ first.toList)]

/-- Where no entry depends on those before it, the entries behind some others are read, and logged, as
if the others were not there. -/
theorem collect_append (read : String → Tree → Traced (Option α)) (l l' : List (String × Tree)) :
    collect (fun _ => read) [] (l ++ l') =
      collect (fun _ => read) [] l >>= fun xs => collect (fun _ => read) [] l' >>= fun ys =>
        pure (xs ++ ys) := by
  induction l with
  | nil => simp [collect]
  | cons e rest ih =>
    have hcons (l : List (String × Tree)) : collect (fun _ => read) [] (e :: l) =
        read e.1 e.2 >>= fun first => collect (fun _ => read) [] l >>= fun others =>
          pure (first.toList ++ others) := by
      simp only [collect, collect_const read ([] ++ _)]
    rw [List.cons_append, hcons, hcons, ih]
    simp

theorem collect_append_eq_ok_iff {out : List α} :
    (collect (fun _ => read) [] (l ++ l')).result = .ok out ↔
      ∃ xs ys, (collect (fun _ => read) [] l).result = .ok xs ∧
        (collect (fun _ => read) [] l').result = .ok ys ∧ xs ++ ys = out := by
  simp [collect_append, Traced.result_bind_eq_ok]

/-- The first failure is the one that counts. -/
theorem collect_append_eq_error_iff {e : Error} :
    (collect (fun _ => read) [] (l ++ l')).result = .error e ↔
      (collect (fun _ => read) [] l).result = .error e ∨
        (∃ xs, (collect (fun _ => read) [] l).result = .ok xs) ∧
          (collect (fun _ => read) [] l').result = .error e := by
  simp [collect_append, Traced.result_bind_eq_error]

private theorem collect_singleton_eq_ok_iff {name : String} {value : Tree} {x : α} :
    (collect (fun _ => read) [] [(name, value)]).result = .ok [x] ↔
      (read name value).result = .ok (some x) := by
  have hresult : (collect (fun _ => read) [] [(name, value)]).result =
      (read name value).result.map Option.toList := by
    refine Traced.result_bind_of_ok fun first => ?_
    simp [collect]
  rw [hresult]
  cases (read name value).result with
  | error e => simp [Except.map]
  | ok first => cases first <;> simp [Except.map]

/-- What is collected from entries is what each of those that are not dropped gives alone. -/
theorem forall₂_of_collect (dropped : String × Tree → Bool)
    (none_iff : ∀ name value, (read name value).result = .ok none ↔ dropped (name, value) = true)
    {xs : List α} (h : (collect (fun _ => read) [] l).result = .ok xs) :
    List.Forall₂ (fun e x => (collect (fun _ => read) [] [e]).result = .ok [x])
      (l.filter fun e => !dropped e) xs := by
  have hsome (name : String) (value : Tree) (x : α) :
      (read name value).result = .ok (some x) ↔ dropped (name, value) = false ∧
        (collect (fun _ => read) [] [(name, value)]).result = .ok [x] := by
    rw [collect_singleton_eq_ok_iff, iff_and_self]
    intro h
    rw [← Bool.not_eq_true, ← none_iff, h]
    simp
  exact (collect_const_eq_ok_iff dropped _ none_iff hsome).mp h

end Collect

end Description

end VpdHeaders
