import VpdHeaders.Fru.Header
import VpdHeaders.Inventory.Header
import VpdHeaders.Proofs.Cpp.Frame
import VpdHeaders.Proofs.Description.Appended
import VpdHeaders.Proofs.Fru.WellFormed
import VpdHeaders.Proofs.Inventory.WellFormed

/-! # The entries of a description are rendered one by one

A header consists of a part for each unit or object, in a frame that only the scope decides. The part
of an entry is the same whatever entries stand before and behind it. -/
namespace VpdHeaders
open Description

variable {α : Type}

/-- The fixed beginning and end of a header, and the part that each item takes between them. -/
structure Frame (α : Type) where
  opening : List String → String
  part : α → String
  closing : List String → String

namespace Frame

def text (frame : Frame α) (scope : List String) (items : List α) : String :=
  frame.opening scope ++ String.join (items.map frame.part) ++ frame.closing scope

/-- These items are the parts of a header, and each kept entry has its part in a header of its own. -/
structure Renders (frame : Frame α) (scope : List String) (policy : EmptyPolicy)
    (render : Tree → Traced String) (l : List (String × Tree)) (items : List α) : Prop where
  whole : (render (.table l)).result = .ok (frame.text scope items)
  alone : List.Forall₂ (fun e x => (render (.table [e])).result = .ok (frame.text scope [x]))
    (kept policy (.table l)) items

end Frame

/-- Entries behind others are rendered as if they stood alone. -/
structure AreIndependent (frame : Frame α) (scope : List String) (policy : EmptyPolicy)
    (render : Tree → Traced String) (l l' : List (String × Tree)) : Prop where
  accepted : (∃ text, (render (.table (l ++ l'))).result = .ok text) ↔
    (∃ text, (render (.table l)).result = .ok text) ∧ ∃ text, (render (.table l')).result = .ok text
  joined : (∃ text, (render (.table (l ++ l'))).result = .ok text) →
    ∃ xs ys, frame.Renders scope policy render l xs ∧ frame.Renders scope policy render l' ys ∧
      (render (.table (l ++ l'))).result = .ok (frame.opening scope ++
        String.join (xs.map frame.part) ++ String.join (ys.map frame.part) ++ frame.closing scope)
  refused : ∀ e, (render (.table (l ++ l'))).result = .error e ↔
    (render (.table l)).result = .error e ∨
      (∃ text, (render (.table l)).result = .ok text) ∧ (render (.table l')).result = .error e

section Collect

variable {frame : Frame α} {scope : List String} {policy : EmptyPolicy}
  {render : Tree → Traced String} {read : String → Tree → Traced (Option α)}

private theorem map_eq_ok_iff {β : Type} {f : α → β} {r : Except Error α} {b : β} :
    r.map f = .ok b ↔ ∃ a, r = .ok a ∧ f a = b := by
  cases r <;> simp [Except.map]

private theorem map_eq_error_iff {β : Type} {f : α → β} {r : Except Error α} {e : Error} :
    r.map f = .error e ↔ r = .error e := by
  cases r <;> simp [Except.map]

private theorem areIndependent_of_collect
    (none_iff : ∀ name value,
      (read name value).result = .ok none ↔ drops policy (Text.isBlankText name) = true)
    (hrender : ∀ l, (render (.table l)).result =
      (collect (fun _ => read) [] l).result.map (frame.text scope))
    (l l' : List (String × Tree)) : AreIndependent frame scope policy render l l' := by
  have hok (l : List (String × Tree)) : (∃ text, (render (.table l)).result = .ok text) ↔
      ∃ xs, (collect (fun _ => read) [] l).result = .ok xs := by
    simp [hrender, map_eq_ok_iff]
  have hrenders {l : List (String × Tree)} {xs : List α}
      (h : (collect (fun _ => read) [] l).result = .ok xs) :
      frame.Renders scope policy render l xs := by
    refine ⟨by rw [hrender, h, Except.map], ?_⟩
    rw [kept, Tree.stringEntries_table]
    refine (forall₂_of_collect _ none_iff h).imp fun e x hx => ?_
    rw [hrender, hx, Except.map]
  constructor
  · simp only [hok, collect_append_eq_ok_iff]
    constructor
    · rintro ⟨_, xs, ys, hxs, hys, -⟩
      exact ⟨⟨xs, hxs⟩, ys, hys⟩
    · rintro ⟨⟨xs, hxs⟩, ys, hys⟩
      exact ⟨xs ++ ys, xs, ys, hxs, hys, rfl⟩
  · intro h
    obtain ⟨out, hout⟩ := (hok _).mp h
    obtain ⟨xs, ys, hxs, hys, rfl⟩ := collect_append_eq_ok_iff.mp hout
    refine ⟨xs, ys, hrenders hxs, hrenders hys, ?_⟩
    rw [hrender, hout, Except.map, Frame.text, List.map_append, String.join_append,
      ← String.append_assoc]
  · intro e
    rw [hok, hrender, hrender, hrender, map_eq_error_iff, map_eq_error_iff, map_eq_error_iff]
    exact collect_append_eq_error_iff

end Collect

private theorem join_map_unlines {l : List α} {f : α → List String} :
    String.join (l.map fun a => Text.unlines (f a)) = Text.unlines (l.flatMap f) := by
  induction l with
  | nil => rfl
  | cons a l ih => rw [List.map_cons, List.flatMap_cons, Cpp.unlines_append, String.join_cons, ih]

namespace Fru

/-- A specialization, with the empty line above it, between the declarations that all of them rely on
and the end of the scope. -/
def frame : Frame Fru where
  opening scope := Text.unlines (Cpp.preamble ["defines.hpp", "store.hpp"] ["iostream", "map"] ++
    Cpp.openScope scope ++ [""] ++ prelude)
  part f := Text.unlines ("" :: f.lines)
  closing scope := Text.unlines ("" :: Cpp.closeScope scope)

theorem header_eq_text (scope : List String) (frus : List Fru) :
    header scope frus = frame.text scope frus := by
  simp only [Frame.text, frame, join_map_unlines, ← Cpp.unlines_append]
  simp [header, headerLines]

theorem result_render_table (scope : List String) (policy : EmptyPolicy) (l : List (String × Tree)) :
    (render scope policy (.table l)).result =
      (collect (fun _ => readOne policy) [] l).result.map (frame.text scope) := by
  rw [render, listOfTree, namedEntries_table, Traced.pure_bind, readAll]
  refine Traced.result_bind_of_ok fun frus => ?_
  rw [← header_eq_text]
  rfl

end Fru

namespace Inventory

/-- An object of the map, between the beginning of the map and its end. -/
def frame : Frame Object where
  opening scope := Text.unlines (Cpp.preamble ["types.hpp"] ["map", "string"] ++
    Cpp.openScope (scope ++ ["extra"]) ++
    ["", "const std::map<Path, InterfaceMap> objects = \x7b"])
  part o := Text.unlines o.lines
  closing scope := Text.unlines (["\x7d;", ""] ++ Cpp.closeScope (scope ++ ["extra"]))

theorem header_eq_text (scope : List String) (objects : List Object) :
    header scope objects = frame.text scope objects := by
  simp only [Frame.text, frame, join_map_unlines, ← Cpp.unlines_append]
  simp [header, headerLines]

theorem result_render_table (scope : List String) (policy : EmptyPolicy) (l : List (String × Tree)) :
    (render scope policy (.table l)).result =
      (collect (fun _ => readOne policy) [] l).result.map (frame.text scope) := by
  rw [render, listOfTree, namedEntries_table, Traced.pure_bind, readAll]
  refine Traced.result_bind_of_ok fun objects => ?_
  rw [← header_eq_text]
  rfl

end Inventory

/-- For both headers: entries behind others are accepted just when the two groups are, each by itself;
then the header consists of the parts that the first entries have alone and behind them of those that
the others have alone, in the same frame. They are refused for what the first entries are refused for,
or else for what the others are. This holds even of entries with the same name. -/
theorem entries_are_independent (scope : List String) (policy : EmptyPolicy)
    (l l' : List (String × Tree)) :
    AreIndependent Fru.frame scope policy (Fru.render scope policy) l l' ∧
      AreIndependent Inventory.frame scope policy (Inventory.render scope policy) l l' :=
  ⟨areIndependent_of_collect (fun _ _ => Fru.readOne_none_iff)
      (Fru.result_render_table scope policy) l l',
    areIndependent_of_collect (fun _ _ => Inventory.readOne_none_iff)
      (Inventory.result_render_table scope policy) l l'⟩

def asset : Tree := .mapping [(.string "xyz.Asset", .mapping [(.string "PN", .string "VINI,PN")])]

/-- Two units with interfaces of the same name, and a dropped entry between them. -/
theorem equal_interfaces_are_independent :
    ∃ xs ys,
      Fru.frame.Renders ["vpd"] .skip (Fru.render ["vpd"] .skip) [("RACK", asset), (" ", .null)] xs ∧
      Fru.frame.Renders ["vpd"] .skip (Fru.render ["vpd"] .skip) [("DRAWER", asset)] ys ∧
      (Fru.render ["vpd"] .skip (.table [("RACK", asset), (" ", .null), ("DRAWER", asset)])).result =
        .ok (Fru.frame.opening ["vpd"] ++ String.join (xs.map Fru.frame.part) ++
          String.join (ys.map Fru.frame.part) ++ Fru.frame.closing ["vpd"]) :=
  (entries_are_independent ["vpd"] .skip [("RACK", asset), (" ", .null)] [("DRAWER", asset)]).1.joined
    ⟨_, rfl⟩

end VpdHeaders
