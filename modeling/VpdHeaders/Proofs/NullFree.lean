import VpdHeaders.Proofs.Fru.NullTerminated
import VpdHeaders.Proofs.Inventory.NullTerminated

/-! # Descriptions arrive in full just when their texts hold no NUL

Texts are written as literals and read through pointers. A text that holds NUL is cut there, and two
names that differ only behind it become one key. -/
namespace VpdHeaders

/-- For an accepted scope and an accepted description without repeated keys, each specialization
assembles what its entry describes just when no kept name of the entry holds NUL, and the map of
objects is the one described just when no kept path, name or string value does. -/
theorem arrives_iff_null_free {scope : List String} (hscope : Scope.Accepted scope)
    (policy : EmptyPolicy) (t : Tree) :
    ((∀ v, Fru.Visited policy t v → v.HasDistinctKeys) →
      ∀ text, (Fru.render scope policy t).result = .ok text →
        ∃ units, Fru.read? text = some (scope, units) ∧
          List.Forall₂ (Fru.Arrives policy) (Description.kept policy t) units) ∧
      ((∀ v, Inventory.Visited policy t v → v.HasDistinctKeys) →
        ∀ text, (Inventory.render scope policy t).result = .ok text →
          ∃ objects, Inventory.read? text = some (scope ++ ["extra"], objects) ∧
            (Inventory.content (objects.map Inventory.Object.compiled) =
                Inventory.described policy t ↔
              ∀ s ∈ Inventory.keptTexts policy t, Cpp.IsNullFree s)) :=
  ⟨fun hd _ htext => Fru.arrives_of_render hscope.isValid hd htext,
    fun hd _ htext => Inventory.content_compiled_of_render hscope.isValid hd htext⟩

namespace Inventory

def wrapped (properties : Tree) : Tree :=
  .mapping [(.string "/a", .mapping [(.string "x.Y", properties)])]

private theorem distinct_wrapped {properties : Tree} (h : properties.HasDistinctKeys) :
    ∀ v, Visited .reject (wrapped properties) v → v.HasDistinctKeys := by
  have hobject {o : String × Tree} (ho : o ∈ Description.kept .reject (wrapped properties)) :
      o = ("/a", .mapping [(.string "x.Y", properties)]) := List.mem_singleton.mp ho
  intro v hv
  cases hv with
  | root => exact List.nodup_singleton "/a"
  | object ho =>
    rw [hobject ho]
    exact List.nodup_singleton "x.Y"
  | @interface o i ho hi =>
    rw [hobject ho] at hi
    have hinterface : i = ("x.Y", properties) := List.mem_singleton.mp hi
    rw [hinterface]
    exact h

/-- A control character does no harm. -/
def labelled : Tree := wrapped (.mapping [(.string "P", .string "a\t")])

theorem labelled_arrives :
    Scope.Accepted ["vpd"] ∧ (∀ v, Visited .reject labelled v → v.HasDistinctKeys) ∧
      ∃ text, (render ["vpd"] .reject labelled).result = .ok text ∧
        ∃ objects, read? text = some (["vpd", "extra"], objects) ∧
          content (objects.map Object.compiled) = described .reject labelled := by
  have hscope : Scope.Accepted ["vpd"] := .spec (rfl : Scope.parse "vpd" = _)
  have hd : ∀ v, Visited .reject labelled v → v.HasDistinctKeys :=
    distinct_wrapped (List.nodup_singleton "P")
  obtain ⟨text, htext⟩ : ∃ text, (render ["vpd"] .reject labelled).result = .ok text := ⟨_, rfl⟩
  obtain ⟨objects, hread, harrives⟩ :=
    (arrives_iff_null_free hscope .reject labelled).2 hd text htext
  refine ⟨hscope, hd, text, htext, objects, hread, harrives.mpr ?_⟩
  have htexts : keptTexts .reject labelled = ["/a", "x.Y", "P", "a\t"] := rfl
  rw [htexts]
  simp [Cpp.IsNullFree]

/-- A string value that is cut, and two names of which the first hides the second. -/
def spoiled : Tree :=
  wrapped (.mapping [(.string "P", .string "a\x00b"), (.string "Q\x00a", .boolean true),
    (.string "Q\x00b", .boolean false)])

/-- What a program finds for a property of the only interface. -/
def found? (objects : List Object) (property : String) : Option Literal := do
  let interfaces ← content (objects.map Object.compiled) "/a"
  let properties ← interfaces "x.Y"
  properties property

theorem spoiled_is_cut :
    ∃ text, (render ["vpd"] .reject spoiled).result = .ok text ∧
      ∃ objects, read? text = some (["vpd", "extra"], objects) ∧
        found? objects "P" = some (.string "a") ∧ found? objects "Q" = some (.boolean true) ∧
        found? objects "Q\x00a" = none ∧ found? objects "Q\x00b" = none := by
  have hvalid : ∀ segment ∈ ["vpd"], Identifier.isValid segment = true := by decide
  refine ⟨_, rfl, _, read?_header hvalid, ?_⟩
  decide +kernel

end Inventory

end VpdHeaders
