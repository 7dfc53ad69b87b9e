import VpdHeaders.Proofs.Fru.Execution
import VpdHeaders.Proofs.Fru.HeaderReading
import VpdHeaders.Proofs.Fru.WellFormed
import VpdHeaders.Proofs.Identifier.Derived
import VpdHeaders.Proofs.Reference
import VpdHeaders.Proofs.Scope

/-! # An accessor header does what its description says -/
namespace VpdHeaders

/-- Both tokens of a reference can stand in the source as they are. -/
theorem Reference.isPlain_of_parse {raw : String} {r : Reference} (h : Reference.parse raw = .ok r) :
    r.IsPlain where
  record := (tokenFault?_eq_none_iff.mp (tokenFault?_of_parse h).1).1
  keyword := (tokenFault?_eq_none_iff.mp (tokenFault?_of_parse h).2).1

namespace Fru
open Description

variable {policy : EmptyPolicy} {α : Type}

/-- The reference that is written as a value, if any. -/
def written? : Tree → Option Reference
  | .string raw => (Reference.parse raw).toOption
  | _ => none

private theorem written?_of_writes {value : Tree} {r : Reference} (h : Writes value r) :
    written? value = some r := by
  obtain ⟨raw, rfl, hr⟩ := h
  rw [written?, hr]
  rfl

/-- What the entry of a unit stands for: each kept interface with the values of its kept properties. -/
def described (get : Reference → α) (policy : EmptyPolicy) (t : Tree) :
    Dictionary (Dictionary α) := fun interface =>
  ((kept policy t).lookup interface).map fun value property =>
    ((keptProperties policy value).lookup property).bind fun v => (written? v).map get

private theorem content_eq (get : Reference → α) {es : List (String × Tree)} {bs : List Binding}
    (h : List.Forall₂ IsBinding es bs) :
    Interface.content get bs = fun property =>
      (es.lookup property).bind fun v => (written? v).map get := by
  refine Dictionary.ofList_eq_lookup_bind (fun e b hb => ⟨hb.name, ?_⟩) h
  rw [written?_of_writes hb.reference]
  rfl

theorem object_eq (get : Reference → α) {t : Tree} {is : List Interface}
    (h : List.Forall₂ (IsInterface policy) (kept policy t) is) :
    Dictionary.ofList Interface.name (fun i => Interface.content get i.properties) is =
      described get policy t := by
  funext name
  rw [described, Option.map_eq_bind (x := (kept policy t).lookup name)]
  refine congrFun (Dictionary.ofList_eq_lookup_bind (fun e i hi => ⟨hi.name, ?_⟩) h) name
  rw [content_eq get hi.properties]
  rfl

section Units

variable {t : Tree} {u : String × Tree} {f : Fru}

private theorem not_mem_outerNames {identifier : String}
    (h : Identifier.isReserved identifier = false) : identifier ∉ Statement.outerNames := by
  have hsubset : ∀ name ∈ Statement.outerNames, name ∈ Identifier.generatedNames := by decide
  intro hmem
  have hmem' := hsubset identifier hmem
  simp [Identifier.isReserved, hmem'] at h

theorem not_mem_outerNames_of_isUnit (hg : IsGoodUnit policy u) (hf : IsUnit policy u f) :
    ∀ i ∈ f.interfaces, i.identifier ∉ Statement.outerNames := by
  intro i hi
  obtain ⟨e, he, hname⟩ := hf.exists_identifier hi
  rw [hname]
  exact not_mem_outerNames (hg.interfaces e he).free

theorem isProgram_of_isUnit (hd : ∀ v, Visited policy t v → v.HasDistinctKeys)
    (hu : u ∈ kept policy t) (hg : IsGoodUnit policy u) (hf : IsUnit policy u f) : f.IsProgram where
  fillable := by
    intro i hi
    obtain ⟨e, he, hi'⟩ := Pointwise.exists_left hf.interfaces hi
    exact ⟨not_mem_outerNames_of_isUnit hg hf i hi,
      names_nodup (fun _ _ hb => hb.name) (hd _ (.interface hu he)) hi'.properties⟩
  identifiers := by
    rw [identifiers_eq hf.interfaces]
    exact hg.distinct
  names := names_nodup (fun _ _ hi => hi.name) (hd _ (.unit hu)) hf.interfaces

private theorem isPlain_of_isUnit (hg : IsGoodUnit policy u) (hf : IsUnit policy u f) :
    f.IsPlain where
  unit := by
    rw [hf.name]
    exact hg.valid
  body := by
    have hidentifier (i : Interface) (hi : i ∈ f.interfaces) :
        Identifier.isValid i.identifier = true := by
      obtain ⟨e, -, hname⟩ := hf.exists_identifier hi
      rw [hname]
      exact Identifier.isValid_sanitize _
    refine forall_mem_body hidentifier (fun i hi b hb => ⟨hidentifier i hi, ?_⟩) hidentifier
    obtain ⟨raw, hr⟩ := hf.exists_parse hi hb
    exact Reference.isPlain_of_parse hr

end Units

theorem isPlain_of_listOfTree {t : Tree} {frus : List Fru}
    (h : (listOfTree policy t).result = .ok frus) : ∀ f ∈ frus, f.IsPlain := by
  obtain ⟨-, hgood, hunits⟩ := listOfTree_eq_ok_iff.mp h
  intro f hf
  obtain ⟨u, hu, hf⟩ := Pointwise.exists_left hunits hf
  exact isPlain_of_isUnit (hgood u hu) hf

theorem render_eq_ok {scope : List String} {t : Tree} {text : String}
    (h : (render scope policy t).result = .ok text) :
    ∃ frus, (listOfTree policy t).result = .ok frus ∧ text = header scope frus := by
  obtain ⟨frus, hfrus, h⟩ := Traced.result_bind_eq_ok.mp h
  obtain ⟨-, -, h⟩ := Traced.result_bind_eq_ok.mp h
  exact ⟨frus, hfrus, (Except.ok.inj h).symm⟩

/-- A rendered header is read as its scope and one specialization for each kept unit. -/
theorem read?_render {scope : List String} {t : Tree} {text : String}
    (hs : ∀ segment ∈ scope, Identifier.isValid segment = true)
    (h : (render scope policy t).result = .ok text) :
    ∃ frus : List Fru, read? text = some (scope, frus.map fun f => ⟨f.name, f.body⟩) ∧
      List.Forall₂ (fun u f => (u ∈ kept policy t ∧ IsGoodUnit policy u) ∧ IsUnit policy u f)
        (kept policy t) frus := by
  obtain ⟨frus, hfrus, rfl⟩ := render_eq_ok h
  obtain ⟨-, hgood, hunits⟩ := listOfTree_eq_ok_iff.mp hfrus
  refine ⟨frus, read?_header hs (isPlain_of_listOfTree hfrus), ?_⟩
  exact (List.forall₂_and_left _ _).mpr ⟨fun u hu => ⟨hu, hgood u hu⟩, hunits⟩

/-- A specialization with the name of an entry that assembles, whatever the store holds, the object
which the entry describes. To leave an object behind it must not declare a name twice and must not
use a local that is not declared or moved from. -/
structure Means (policy : EmptyPolicy) (e : String × Tree) (s : Specialization) : Prop where
  unit : s.unit = e.1
  object : ∀ {α : Type} (get : Reference → α),
    Statement.assembled get s.body = some (described get policy e.2)

/-- Every header that is written for a description without repeated keys can be read, has just one
specialization for each kept unit, in the order of the document, and does what the description says. -/
theorem header_means_description {spec : String} {scope : List String} {t : Tree} {text : String}
    (hscope : Scope.parse spec = .ok scope) (hd : ∀ v, Visited policy t v → v.HasDistinctKeys)
    (htext : (render scope policy t).result = .ok text) :
    ∃ units, read? text = some (scope, units) ∧ (units.map Specialization.unit).Nodup ∧
      List.Forall₂ (Means policy) (kept policy t) units := by
  obtain ⟨frus, hfrus, rfl⟩ := render_eq_ok htext
  obtain ⟨-, hgood, hunits⟩ := listOfTree_eq_ok_iff.mp hfrus
  have hmeans : List.Forall₂ (Means policy) (kept policy t)
      (frus.map fun f => ⟨f.name, f.body⟩) := by
    rw [List.forall₂_map_right_iff]
    have hkept := (List.forall₂_and_left (p := (· ∈ kept policy t)) _ _).mpr ⟨fun u hu => hu, hunits⟩
    refine hkept.imp fun u f h => ⟨h.2.name, fun get => ?_⟩
    have hprogram := isProgram_of_isUnit hd h.1 (hgood u h.1) h.2
    exact (hprogram.assembled_eq get).trans (congrArg some (object_eq get h.2.interfaces))
  refine ⟨_, read?_header (Scope.isValid_of_parse hscope) (isPlain_of_listOfTree hfrus), ?_, hmeans⟩
  exact names_nodup (fun _ _ hm => hm.unit) (hd t .root) hmeans

/-- The interfaces of a board: a name that has to be escaped, and entries that are dropped. -/
def boardInterfaces : Tree :=
  .mapping
    [(.string "com.ibm.\"V\"", .mapping
       [(.string "SN\n", .string "VINI, SN"), (.string "", .null), (.string "CC", .null)]),
     (.string "xyz.Item", .mapping [(.string "CC", .string "VINI,CC")])]

def board : Tree := .mapping [(.string "BOARD", boardInterfaces), (.string " ", .null)]

theorem board_header_means_description :
    Scope.parse "vpd" = .ok ["vpd"] ∧ (∀ v, Visited .skip board v → v.HasDistinctKeys) ∧
      ∃ text, (render ["vpd"] .skip board).result = .ok text ∧
        ∃ units, read? text = some (["vpd"], units) ∧ (units.map Specialization.unit).Nodup ∧
          List.Forall₂ (Means .skip) (kept .skip board) units := by
  have hunit {u : String × Tree} (hu : u ∈ kept .skip board) : u = ("BOARD", boardInterfaces) :=
    List.mem_singleton.mp hu
  have hdistinct : ∀ v, Visited .skip board v → v.HasDistinctKeys := by
    intro v hv
    cases hv with
    | root => exact (by decide : (["BOARD", " "] : List String).Nodup)
    | unit hu =>
      rw [hunit hu]
      exact (by decide : (["com.ibm.\"V\"", "xyz.Item"] : List String).Nodup)
    | interface hu hi =>
      rw [hunit hu] at hi
      rcases List.mem_cons.mp hi with rfl | hi
      · exact (by decide : (["SN\n", "", "CC"] : List String).Nodup)
      · rw [List.mem_singleton.mp hi]
        exact List.nodup_singleton "CC"
  have hscope : Scope.parse "vpd" = .ok ["vpd"] := rfl
  have htext : (render ["vpd"] .skip board).result = .ok (header ["vpd"] [⟨"BOARD",
      [⟨"com.ibm.\"V\"", "com_V_", [⟨"SN\n", ⟨"VINI", "SN"⟩⟩]⟩,
       ⟨"xyz.Item", "xyzItem", [⟨"CC", ⟨"VINI", "CC"⟩⟩]⟩]⟩]) := rfl
  exact ⟨hscope, hdistinct, _, htext, header_means_description hscope hdistinct htext⟩

end Fru

end VpdHeaders
