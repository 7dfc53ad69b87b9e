import VpdHeaders.Proofs.Fru.Meaning

/-! # An accessor header determines the units that it is written from

The statements of a specialization tell its interfaces apart: each declaration begins a new one, and
the names are handed over in the same order at the end. -/
namespace VpdHeaders

/-- What is gathered from statements, the last one first: bindings whose container is declared further
up, the containers with their bindings, and the names that they are handed over by. -/
structure Gathered where
  loose : List Binding
  containers : List (String × List Binding)
  names : List String

namespace Gathered

def nothing : Gathered := ⟨[], [], []⟩

def add : Statement → Gathered → Gathered
  | .declare container, g => ⟨[], (container, g.loose) :: g.containers, g.names⟩
  | .assign _ key value, g => { g with loose := ⟨key, value⟩ :: g.loose }
  | .emplace key _, g => { g with names := key :: g.names }

def interfaces (g : Gathered) : List Interface :=
  g.containers.zipWith (fun container name => ⟨name, container.1, container.2⟩) g.names

private theorem foldr_emplacements (is : List Interface) :
    (is.map Interface.emplacement).foldr add nothing = ⟨[], [], is.map Interface.name⟩ := by
  induction is with
  | nil => rfl
  | cons i is ih =>
    rw [List.map_cons, List.foldr_cons, ih]
    rfl

private theorem foldr_statements (i : Interface) (containers : List (String × List Binding))
    (names : List String) : i.statements.foldr add ⟨[], containers, names⟩ =
      ⟨[], (i.identifier, i.properties) :: containers, names⟩ := by
  have hassign (bs : List Binding) :
      (bs.map fun b => Statement.assign i.identifier b.name b.reference).foldr add
        ⟨[], containers, names⟩ = ⟨bs, containers, names⟩ := by
    induction bs with
    | nil => rfl
    | cons b bs ih =>
      rw [List.map_cons, List.foldr_cons, ih]
      rfl
  rw [Interface.statements, List.foldr_cons, hassign]
  rfl

private theorem foldr_fillings (is : List Interface) (names : List String) :
    (is.flatMap Interface.statements).foldr add ⟨[], [], names⟩ =
      ⟨[], is.map fun i => (i.identifier, i.properties), names⟩ := by
  induction is with
  | nil => rfl
  | cons i is ih =>
    rw [List.flatMap_cons, List.foldr_append, ih, foldr_statements]
    rfl

theorem interfaces_body (f : Fru) : (f.body.foldr add nothing).interfaces = f.interfaces := by
  rw [Fru.body, List.foldr_append, foldr_emplacements, foldr_fillings, interfaces,
    List.zipWith_map_left, List.zipWith_map_right, List.zipWith_self]
  exact List.map_id' f.interfaces

end Gathered

namespace Fru

variable {scope scope₁ scope₂ : List String} {frus frus₁ frus₂ : List Fru}

def ofSpecialization (s : Specialization) : Fru :=
  ⟨s.unit, (s.body.foldr Gathered.add Gathered.nothing).interfaces⟩

def model? (text : String) : Option (List String × List Fru) :=
  (read? text).map fun header => (header.1, header.2.map ofSpecialization)

/-- A scope that can be asked for, and units that some description has. -/
structure IsModel (scope : List String) (frus : List Fru) : Prop where
  scope : ∃ spec, Scope.parse spec = .ok scope
  units : ∃ policy t, (listOfTree policy t).result = .ok frus

theorem model?_header (h : IsModel scope frus) : model? (header scope frus) = some (scope, frus) := by
  obtain ⟨spec, hscope⟩ := h.scope
  obtain ⟨policy, t, hfrus⟩ := h.units
  have hunits : (frus.map fun f => ⟨f.name, f.body⟩).map ofSpecialization = frus := by
    rw [List.map_map, List.map_congr_left (g := id) fun f _ => ?_, List.map_id]
    rw [Function.comp, ofSpecialization, Gathered.interfaces_body]
    rfl
  rw [model?, read?_header (Scope.isValid_of_parse hscope) (isPlain_of_listOfTree hfrus),
    Option.map_some, hunits]

/-- The scope and the units can be read from every header, down to the order of all names and
references, and so no two models have the same header. -/
theorem header_determines_model (h₁ : IsModel scope₁ frus₁) (h₂ : IsModel scope₂ frus₂) :
    model? (header scope₁ frus₁) = some (scope₁, frus₁) ∧
      (header scope₁ frus₁ = header scope₂ frus₂ → frus₁ = frus₂ ∧ scope₁ = scope₂) := by
  have hread : model? (header scope₁ frus₁) = some (scope₁, frus₁) := model?_header h₁
  refine ⟨hread, fun heq => ?_⟩
  rw [heq, model?_header h₂] at hread
  obtain ⟨hscope, hfrus⟩ := Prod.mk.inj (Option.some.inj hread)
  exact ⟨hfrus.symm, hscope.symm⟩

/-- A property whose name has the looks of the code between two properties. -/
def forged : Tree :=
  .mapping [(.string "BOARD", .mapping [(.string "xyz.Item", .mapping
    [(.string "SN\"] =\n        vpdStore.get<Record::VINI, record::Keyword::SN>();\n    xyzItem[\"CC",
      .string "VINI,CC")])])]

def genuine : Tree :=
  .mapping [(.string "BOARD", .mapping [(.string "xyz.Item", .mapping
    [(.string "SN", .string "VINI,SN"), (.string "CC", .string "VINI,CC")])])]

theorem forged_header_determines_model :
    ∃ frus frus', (listOfTree .reject forged).result = .ok frus ∧
      (listOfTree .reject genuine).result = .ok frus' ∧
      model? (header ["vpd"] frus) = some (["vpd"], frus) ∧
      header ["vpd"] frus ≠ header ["vpd"] frus' := by
  have hscope : Scope.parse "vpd" = .ok ["vpd"] := rfl
  have hforged : (listOfTree .reject forged).result = .ok [⟨"BOARD", [⟨"xyz.Item", "xyzItem",
      [⟨"SN\"] =\n        vpdStore.get<Record::VINI, record::Keyword::SN>();\n    xyzItem[\"CC",
        ⟨"VINI", "CC"⟩⟩]⟩]⟩] := rfl
  have hgenuine : (listOfTree .reject genuine).result = .ok [⟨"BOARD", [⟨"xyz.Item", "xyzItem",
      [⟨"SN", ⟨"VINI", "SN"⟩⟩, ⟨"CC", ⟨"VINI", "CC"⟩⟩]⟩]⟩] := rfl
  obtain ⟨hread, hinj⟩ :=
    header_determines_model ⟨⟨_, hscope⟩, _, _, hforged⟩ ⟨⟨_, hscope⟩, _, _, hgenuine⟩
  exact ⟨_, _, hforged, hgenuine, hread, fun heq => absurd (hinj heq).1 (by decide)⟩

end Fru

end VpdHeaders
