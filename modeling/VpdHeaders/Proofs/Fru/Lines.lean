import Mathlib.Algebra.GroupWithZero.Nat
import VpdHeaders.Proofs.Cpp.LeadingLiteral
import VpdHeaders.Proofs.Fru.LineKind

/-! # The lines of an accessor header, counted

No name can break a line in two, so the lines of a header are those that were written, and each kept
entry of the description has its own. -/
namespace VpdHeaders

section LineFeeds

private theorem lineFeed_not_mem_literal (s : String) : '\n' ∉ (Cpp.literal s).toList := by
  have hcontrol : Cpp.isControl '\n' = true := by decide
  have hescape : '\n' ∉ (Cpp.escape s).toList := fun h => by
    simp [Cpp.isControl_of_mem_escape h] at hcontrol
  simpa [Cpp.literal] using hescape

private theorem Statement.lineFeed_not_mem {s : Statement} (h : s.IsPlain) :
    ∀ l ∈ s.lines, '\n' ∉ l.toList := by
  cases s with
  | declare container => simpa [lines] using lineFeed_not_mem_name h
  | assign container key value =>
    have hcontainer := lineFeed_not_mem_name h.1
    have hrecord := lineFeed_not_mem_name h.2.record
    have hkeyword := lineFeed_not_mem_name h.2.keyword
    have hkey := lineFeed_not_mem_literal key
    unfold lines Reference.lookup
    simp [hcontainer, hrecord, hkeyword, hkey]
  | emplace key container =>
    have hcontainer := lineFeed_not_mem_name h
    have hkey := lineFeed_not_mem_literal key
    unfold lines
    simp [hcontainer, hkey]

private theorem Fru.lineFeed_not_mem {f : Fru} (h : f.IsPlain) : ∀ l ∈ f.lines, '\n' ∉ l.toList := by
  have hsignature : ∀ l ∈ f.signature, '\n' ∉ l.toList := by
    simp [signature, lineFeed_not_mem_name h.unit]
  have hseparator : ∀ l ∈ if f.interfaces.isEmpty then [] else [""], '\n' ∉ l.toList := by
    split <;> simp
  have hfill : ∀ l ∈ f.interfaces.flatMap fun i => "" :: i.lines, '\n' ∉ l.toList := by
    intro l hl
    obtain ⟨i, hi, hl⟩ := List.mem_flatMap.mp hl
    rcases List.mem_cons.mp hl with rfl | hl
    · simp
    · obtain ⟨s, hs, hl⟩ := List.mem_flatMap.mp hl
      exact Statement.lineFeed_not_mem (h.body s (mem_body_of_statements hi hs)) l hl
  have hhand : ∀ l ∈ f.interfaces.flatMap fun i => i.emplacement.lines, '\n' ∉ l.toList := by
    intro l hl
    obtain ⟨i, hi, hl⟩ := List.mem_flatMap.mp hl
    exact Statement.lineFeed_not_mem (h.body _ (emplacement_mem_body hi)) l hl
  simp only [lines_eq, front, List.forall_mem_append]
  exact ⟨⟨⟨⟨⟨hsignature, fun l hl => (isIdle_opening l hl).2.1⟩, hfill⟩, hseparator⟩, hhand⟩,
    fun l hl => (isIdle_closing l hl).2.1⟩

end LineFeeds

namespace Fru
open Description Cpp

/-- The lines above the first specialization, and those below the last. -/
def above (scope : List String) : List String := top ++ openScope scope ++ [""] ++ prelude

def below (scope : List String) : List String := "" :: closeScope scope

private theorem headerLines_eq (scope : List String) (frus : List Fru) :
    headerLines scope frus = above scope ++ (frus.flatMap fun f => "" :: f.lines) ++ below scope := by
  simp [headerLines, above, below, top]

private theorem isIdle_frame {scope : List String}
    (hs : ∀ segment ∈ scope, Identifier.isValid segment = true) :
    ∀ l ∈ above scope ++ (below scope ++ [""]), IsIdle l.toList := by
  have htop : ∀ l ∈ top, IsIdle l.toList := by decide +kernel
  have hprelude : ∀ l ∈ prelude, IsIdle l.toList := by
    unfold prelude
    repeat' apply Text.forall_toList_cons
    all_goals decide
  have hbrace : IsIdle "\x7b".toList := by decide
  have hopen : ∀ l ∈ openScope scope, IsIdle l.toList := by
    intro l hl
    obtain ⟨segment, hsegment, hl⟩ := List.mem_flatMap.mp hl
    have hvalid := hs segment hsegment
    rcases List.mem_cons.mp hl with rfl | hl
    · exact isIdle_of_head (c := 'n') (by simp) (by decide)
        (by simp [lineFeed_not_mem_name hvalid]) (getLast?_name hvalid _)
    · rwa [List.mem_singleton.mp hl]
  have hclose : ∀ l ∈ closeScope scope, IsIdle l.toList := by
    intro l hl
    obtain ⟨segment, hsegment, rfl⟩ := List.mem_map.mp hl
    have hvalid := hs segment (List.mem_reverse.mp hsegment)
    exact isIdle_of_head (c := '\x7d') (by simp) (by decide)
      (by simp [lineFeed_not_mem_name hvalid]) (getLast?_name hvalid _)
  simp only [above, below, List.forall_mem_append, List.forall_mem_cons]
  exact ⟨⟨⟨⟨htop, hopen⟩, isIdle_nil, by simp⟩, hprelude⟩, ⟨isIdle_nil, hclose⟩, isIdle_nil, by simp⟩

section Entries

variable {policy : EmptyPolicy} {t : Tree} {u : String × Tree} {f : Fru} {frus : List Fru}

def interfaceEntries (policy : EmptyPolicy) (t : Tree) : List (String × Tree) :=
  (kept policy t).flatMap fun u => kept policy u.2

def propertyEntries (policy : EmptyPolicy) (t : Tree) : List (String × Tree) :=
  (interfaceEntries policy t).flatMap fun i => keptProperties policy i.2

private theorem sum_interfaces (h : List.Forall₂ (IsUnit policy) (kept policy t) frus) :
    (frus.map fun f => f.interfaces.length).sum = (interfaceEntries policy t).length := by
  rw [interfaceEntries, List.length_flatMap]
  exact congrArg List.sum (Pointwise.map_eq_map (fun _ _ hf => hf.interfaces.length_eq.symm) h)

private theorem sum_properties (h : List.Forall₂ (IsUnit policy) (kept policy t) frus) :
    (frus.map propertyCount).sum = (propertyEntries policy t).length := by
  rw [propertyEntries, interfaceEntries, List.flatMap_assoc, List.length_flatMap]
  exact congrArg List.sum (Pointwise.map_eq_map (fun _ _ hf => propertyCount_of_isUnit hf) h)

private theorem countP_eq_count {start : String} {k : LineKind}
    (h : ∀ line, lineKind line = k ↔ Text.begins start line = true) (lines : List String) :
    lines.countP (Text.begins start) = (lines.map lineKind).count k := by
  rw [List.count, List.countP_map]
  refine List.countP_congr fun line _ => ?_
  simp [h line]

private theorem count_template (lines : List String) :
    lines.count "template <>" = (lines.map lineKind).count .template := by
  rw [List.count, List.count, List.countP_map]
  refine List.countP_congr fun line _ => ?_
  simp [LineKind.eq_template_iff]

/-- The lines that a specialization and the empty line above it have for a unit of the description.
Nothing is filled below the first emplacement, and these are in the order of the description. -/
structure IsBlock (policy : EmptyPolicy) (u : String × Tree) (block : List String) : Prop where
  head : ∃ rest, block = "" :: ("// Specialization of " ++ u.1) :: "template <>" :: rest
  heads : block.count "template <>" = 1
  declarations : block.countP (Text.begins "    Inner ") = (kept policy u.2).length
  lookups : block.countP (Text.begins "        vpdStore.get<") = (unitProperties policy u.2).length
  emplacements : block.filter (Text.begins "    object.emplace(") =
    (kept policy u.2).map fun i => "    object.emplace(" ++ Cpp.literal i.1 ++ ", std::move(" ++
      Identifier.ofInterface i.1 ++ "));"
  ordered : block.Pairwise fun a b => Text.begins "    object.emplace(" a = true →
    (lineKind b).fills = false

private theorem isBlock_of_isUnit (hplain : f.IsPlain) (h : IsUnit policy u f) :
    IsBlock policy u ("" :: f.lines) where
  head := by
    rw [← h.name]
    exact ⟨_, rfl⟩
  heads := by
    rw [count_template, kinds_block hplain, List.count_cons_of_ne (by decide),
      count_kinds f (by decide)]
  declarations := by
    rw [countP_eq_count (fun _ => LineKind.eq_declaration_iff), kinds_block hplain,
      List.count_cons_of_ne (by decide), count_kinds f (by decide)]
    exact h.interfaces.length_eq.symm
  lookups := by
    rw [countP_eq_count (fun _ => LineKind.eq_lookup_iff), kinds_block hplain,
      List.count_cons_of_ne (by decide), count_kinds f (by decide)]
    exact propertyCount_of_isUnit h
  emplacements := by
    have hline (i : Interface) : i.emplacement.lines =
        ["    object.emplace(" ++ Cpp.literal i.name ++ ", std::move(" ++ i.identifier ++ "));"] := rfl
    rw [emplacements_of_isPlain hplain, List.flatMap_congr fun i _ => hline i, ← List.map_eq_flatMap]
    refine Pointwise.map_eq_map (fun e i hi => ?_) h.interfaces
    rw [hi.name, hi.identifier]
  ordered := by
    have hkinds : (("" :: f.lines).map lineKind).Pairwise IsOrdered := by
      rw [kinds_block hplain, List.pairwise_cons]
      exact ⟨fun k _ he => absurd he (by decide), f.pairwise_kinds⟩
    exact (List.pairwise_map.mp hkinds).imp fun hab hbegins =>
      hab (LineKind.eq_emplacement_iff.mpr hbegins)

private theorem fieldsOf_header {scope : List String}
    (hs : ∀ segment ∈ scope, Identifier.isValid segment = true) (hplain : ∀ f ∈ frus, f.IsPlain) :
    Text.fieldsOf '\n' (header scope frus) =
      above scope ++ (frus.map fun f => "" :: f.lines).flatten ++ (below scope ++ [""]) := by
  -- the last line is ended too, which leaves an empty one
  have hframe := isIdle_frame hs
  simp only [List.forall_mem_append] at hframe
  have hlines : ∀ l ∈ headerLines scope frus, '\n' ∉ l.toList := by
    rw [headerLines_eq]
    simp only [List.forall_mem_append]
    refine ⟨⟨fun l hl => (hframe.1 l hl).2.1, fun l hl => ?_⟩, fun l hl => (hframe.2.1 l hl).2.1⟩
    obtain ⟨f, hf, hl⟩ := List.mem_flatMap.mp hl
    rcases List.mem_cons.mp hl with rfl | hl
    · simp
    · exact lineFeed_not_mem (hplain f hf) l hl
  rw [header, Text.fieldsOf_unlines hlines, headerLines_eq, List.flatMap_def, List.append_assoc]

private theorem count_header {scope : List String} {k : LineKind} (hk : k ≠ .other)
    (hs : ∀ segment ∈ scope, Identifier.isValid segment = true) (hplain : ∀ f ∈ frus, f.IsPlain) :
    ((Text.fieldsOf '\n' (header scope frus)).map lineKind).count k =
      (frus.map fun f => f.kinds.count k).sum := by
  have hframe := isIdle_frame hs
  rw [List.forall_mem_append] at hframe
  have hnone {lines : List String} (h : ∀ l ∈ lines, IsIdle l.toList) :
      (lines.map lineKind).count k = 0 := by
    rw [map_lineKind_of_isIdle h, List.count_replicate]
    simp [hk.symm]
  have hblock : ∀ f ∈ frus, (("" :: f.lines).map lineKind).count k = f.kinds.count k := by
    intro f hf
    rw [kinds_block (hplain f hf), List.count_cons_of_ne hk.symm]
  rw [fieldsOf_header hs hplain, List.map_append, List.map_append, List.count_append,
    List.count_append, hnone hframe.1, hnone hframe.2, Nat.zero_add, Nat.add_zero, List.map_flatten,
    List.count_flatten, List.map_map, List.map_map]
  exact congrArg List.sum (List.map_congr_left hblock)

end Entries

/-- Nothing is lost or added between a description and the lines of its header: each kept unit has a
head there and a block of its own, each kept interface a declaration and an emplacement and each kept
property a lookup. All other lines are the same whatever is described. -/
theorem lines_account_for_entries {scope : List String} {policy : EmptyPolicy} {t : Tree}
    {text : String} (hscope : Scope.Accepted scope)
    (htext : (render scope policy t).result = .ok text) :
    let lines := Text.fieldsOf '\n' text
    lines.count "template <>" = (kept policy t).length ∧
      lines.countP (Text.begins "    Inner ") = (interfaceEntries policy t).length ∧
      lines.countP (Text.begins "    object.emplace(") = (interfaceEntries policy t).length ∧
      lines.countP (Text.begins "        vpdStore.get<") = (propertyEntries policy t).length ∧
      (render scope policy t).events.getLast? =
        some (.builtFrus (kept policy t).length (propertyEntries policy t).length) ∧
      ∃ blocks, lines = above scope ++ blocks.flatten ++ (below scope ++ [""]) ∧
        List.Forall₂ (IsBlock policy) (kept policy t) blocks := by
  obtain ⟨frus, hfrus, rfl⟩ := render_eq_ok htext
  obtain ⟨-, -, hunits⟩ := listOfTree_eq_ok_iff.mp hfrus
  have hplain := isPlain_of_listOfTree hfrus
  have hvalid := hscope.isValid
  have hcount {k : LineKind} (hk : k ≠ .other) := count_header hk hvalid hplain
  have hlength := hunits.length_eq.symm
  refine ⟨?_, ?_, ?_, ?_, ?_, frus.map fun f => "" :: f.lines, fieldsOf_header hvalid hplain, ?_⟩
  · rw [count_template, hcount (by decide)]
    simp [count_kinds, hlength]
  · rw [countP_eq_count (fun _ => LineKind.eq_declaration_iff), hcount (by decide)]
    simp [count_kinds, sum_interfaces hunits]
  · rw [countP_eq_count (fun _ => LineKind.eq_emplacement_iff), hcount (by decide)]
    simp [count_kinds, sum_interfaces hunits]
  · rw [countP_eq_count (fun _ => LineKind.eq_lookup_iff), hcount (by decide)]
    simp [count_kinds, sum_properties hunits]
  · have hsum : frus.foldr (fun f n => f.propertyCount + n) 0 = (propertyEntries policy t).length := by
      rw [← sum_properties hunits, List.sum_eq_foldr, List.foldr_map]
    have hevents : (render scope policy t).events = (listOfTree policy t).events ++
        [.builtFrus frus.length (frus.foldr (fun f n => f.propertyCount + n) 0)] := by
      rw [render, Traced.bind_of_ok hfrus]
      rfl
    rw [hevents, List.getLast?_concat, hsum, hlength]
  · rw [List.forall₂_map_right_iff]
    have hmem : List.Forall₂ (fun u f => IsUnit policy u f ∧ f ∈ frus) (kept policy t) frus := by
      exact ((List.forall₂_and_left (p := (· ∈ frus)) _ _).mpr
        ⟨fun f hf => hf, hunits.flip⟩).flip.imp fun u f h => ⟨h.2, h.1⟩
    exact hmem.imp fun u f h => isBlock_of_isUnit (hplain f h.2) h.1

/-- The board has one unit, two interfaces and two properties with a value. -/
theorem board_lines_account_for_entries :
    Scope.Accepted ["openpower", "vpd"] ∧
      ∃ text, (render ["openpower", "vpd"] .skip board).result = .ok text ∧
        (Text.fieldsOf '\n' text).count "template <>" = 1 ∧
        (Text.fieldsOf '\n' text).countP (Text.begins "    object.emplace(") = 2 ∧
        (Text.fieldsOf '\n' text).countP (Text.begins "        vpdStore.get<") = 2 ∧
        (render ["openpower", "vpd"] .skip board).events.getLast? = some (.builtFrus 1 2) := by
  have hscope : Scope.Accepted ["openpower", "vpd"] := .spec (rfl : Scope.parse "openpower::vpd" = _)
  obtain ⟨text, htext⟩ : ∃ text, (render ["openpower", "vpd"] .skip board).result = .ok text :=
    ⟨_, rfl⟩
  obtain ⟨hheads, -, hemplacements, hlookups, hevents, -⟩ := lines_account_for_entries hscope htext
  exact ⟨hscope, text, htext, hheads, hemplacements, hlookups, hevents⟩

end Fru

end VpdHeaders
