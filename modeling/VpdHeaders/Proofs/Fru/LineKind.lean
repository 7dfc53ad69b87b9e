import VpdHeaders.Proofs.Fru.Meaning
import VpdHeaders.Proofs.Text.Lines

/-! # What the lines of a specialization are

A line is known by what it begins and ends with. No name that stands in a line can make it look like
one of another kind. -/
namespace VpdHeaders

/-- The lines of a specialization that depend on its interfaces, and the line above each head. -/
inductive LineKind
  | template | declaration | assignment | lookup | emplacement | other
  deriving DecidableEq, Repr

def lineKind (line : String) : LineKind :=
  if line = "template <>" then .template
  else if Text.begins "    Inner " line then .declaration
  else if Text.begins "    object.emplace(" line then .emplacement
  else if Text.begins "        vpdStore.get<" line then .lookup
  else if Text.ends "] =" line then .assignment
  else .other

namespace LineKind

def fills : LineKind → Bool
  | .declaration | .assignment | .lookup => true
  | _ => false

variable {line : String}

private def Shows (line : String) : LineKind → Prop
  | .template => line = "template <>"
  | .declaration => Text.begins "    Inner " line = true
  | .emplacement => Text.begins "    object.emplace(" line = true
  | .lookup => Text.begins "        vpdStore.get<" line = true
  | .assignment => Text.ends "] =" line = true
  | .other => True

private theorem shows_lineKind (line : String) : Shows line (lineKind line) := by
  rw [lineKind]
  split_ifs with htemplate hdeclaration hemplacement hlookup hassignment
  exacts [htemplate, hdeclaration, hemplacement, hlookup, hassignment, trivial]

private theorem Shows.of_eq {kind : LineKind} (h : lineKind line = kind) : Shows line kind :=
  h ▸ shows_lineKind line

theorem eq_template_iff : lineKind line = .template ↔ line = "template <>" := by
  refine ⟨Shows.of_eq, fun h => ?_⟩
  rw [lineKind, if_pos h]

private theorem ne_template {start : String} (h : Text.begins start line = true)
    (hstart : Text.begins start "template <>" = false) : line ≠ "template <>" := by
  rintro rfl
  simp [hstart] at h

theorem eq_declaration_iff :
    lineKind line = .declaration ↔ Text.begins "    Inner " line = true := by
  refine ⟨Shows.of_eq, fun h => ?_⟩
  have ht := ne_template h (by decide)
  rw [lineKind, if_neg ht, if_pos h]

theorem eq_emplacement_iff :
    lineKind line = .emplacement ↔ Text.begins "    object.emplace(" line = true := by
  refine ⟨Shows.of_eq, fun h => ?_⟩
  have ht := ne_template h (by decide)
  have hd : Text.begins "    Inner " line = false := Text.begins_eq_false h (by decide) (by decide)
  simp [lineKind, ht, hd, h]

theorem eq_lookup_iff :
    lineKind line = .lookup ↔ Text.begins "        vpdStore.get<" line = true := by
  refine ⟨Shows.of_eq, fun h => ?_⟩
  have ht := ne_template h (by decide)
  have hd : Text.begins "    Inner " line = false := Text.begins_eq_false h (by decide) (by decide)
  have he : Text.begins "    object.emplace(" line = false :=
    Text.begins_eq_false h (by decide) (by decide)
  simp [lineKind, ht, hd, he, h]

end LineKind

private theorem eq_of_starts {P : Char → Prop} {p w q r : List Char} {x y : Char}
    (hp : ∀ c ∈ p, P c) (hw : ∀ c ∈ w, P c) (hx : ¬P x) (hy : ¬P y)
    (h : p ++ x :: q <+: w ++ y :: r) : p = w ∧ x = y := by
  -- the beginnings end at the first character that is not of the kind
  induction p generalizing w with
  | nil =>
    cases w with
    | nil => exact ⟨rfl, (List.cons_prefix_cons.mp h).1⟩
    | cons c w =>
      obtain rfl : x = c := (List.cons_prefix_cons.mp h).1
      exact absurd (hw x List.mem_cons_self) hx
  | cons c p ih =>
    cases w with
    | nil =>
      obtain rfl : c = y := (List.cons_prefix_cons.mp h).1
      exact absurd (hp c List.mem_cons_self) hy
    | cons d w =>
      obtain ⟨rfl, htail⟩ := List.cons_prefix_cons.mp h
      obtain ⟨rfl, rfl⟩ := ih (fun e he => hp e (List.mem_cons_of_mem c he))
        (fun e he => hw e (List.mem_cons_of_mem c he)) htail
      exact ⟨rfl, rfl⟩

/-- A line that is not broken in two and in which no description shows: behind any blanks it begins
like none of the lines above. -/
def IsIdle (line : List Char) : Prop :=
  line ≠ "template <>".toList ∧ '\n' ∉ line ∧ line.getLast? ≠ some '=' ∧
    (line.head? = some ' ' → (line.dropWhile (· == ' ')).head? ∉ [some 'I', some 'o', some 'v'])

instance : DecidablePred IsIdle := fun _ => inferInstanceAs (Decidable (_ ∧ _ ∧ _ ∧ _))

private theorem head?_of_begins {start line : String} {c : Char}
    (hblank : start.toList.head? = some ' ')
    (hstart : (start.toList.dropWhile (· == ' ')).head? = some c)
    (h : Text.begins start line = true) :
    line.toList.head? = some ' ' ∧ (line.toList.dropWhile (· == ' ')).head? = some c := by
  obtain ⟨rest, hline⟩ := List.isPrefixOf_iff_prefix.mp h
  obtain ⟨cs, hcs⟩ := List.head?_eq_some_iff.mp hstart
  rw [← hline]
  exact ⟨by simp [hblank], by simp [List.dropWhile_append, hcs]⟩

theorem lineKind_of_isIdle {line : String} (h : IsIdle line.toList) : lineKind line = .other := by
  obtain ⟨ht, -, hlast, hhead⟩ := h
  have ht : line ≠ "template <>" := fun heq => ht (heq ▸ rfl)
  have hnot (start : String) (c : Char) (hc : some c ∈ [some 'I', some 'o', some 'v'])
      (hblank : start.toList.head? = some ' ')
      (hstart : (start.toList.dropWhile (· == ' ')).head? = some c) :
      Text.begins start line = false := by
    rw [Bool.eq_false_iff]
    intro hbegins
    obtain ⟨hline, hc'⟩ := head?_of_begins hblank hstart hbegins
    exact hhead hline (hc' ▸ hc)
  have hends : Text.ends "] =" line = false := by
    rw [Bool.eq_false_iff]
    intro hends
    obtain ⟨front, hline⟩ := List.isSuffixOf_iff_suffix.mp hends
    apply hlast
    simp [← hline]
  have hinner := hnot "    Inner " 'I' (by simp) (by simp) (by simp)
  have hobject := hnot "    object.emplace(" 'o' (by simp) (by simp) (by simp)
  have hlookup := hnot "        vpdStore.get<" 'v' (by simp) (by simp) (by simp)
  simp [lineKind, ht, hinner, hobject, hlookup, hends]

theorem map_lineKind_of_isIdle {lines : List String} (h : ∀ l ∈ lines, IsIdle l.toList) :
    lines.map lineKind = List.replicate lines.length .other := by
  rw [List.eq_replicate_iff]
  refine ⟨List.length_map _, fun k hk => ?_⟩
  obtain ⟨l, hl, rfl⟩ := List.mem_map.mp hk
  exact lineKind_of_isIdle (h l hl)

theorem isIdle_nil : IsIdle "".toList := by decide

/-- A line that begins with a character of its own. -/
theorem isIdle_of_head {line : String} {c : Char} (hline : line.toList.head? = some c)
    (hc : c ≠ ' ' ∧ c ≠ 't') (hfeed : '\n' ∉ line.toList)
    (hlast : line.toList.getLast? ≠ some '=') : IsIdle line.toList := by
  obtain ⟨cs, hline⟩ := List.head?_eq_some_iff.mp hline
  refine ⟨fun heq => ?_, hfeed, hlast, fun hblank => ?_⟩
  · rw [hline] at heq
    exact hc.2 (List.cons.inj heq).1
  · rw [hline] at hblank
    exact absurd (Option.some.inj hblank) hc.1

theorem getLast?_fixed {t : String} {c : Char} (h : t.toList.getLast? = some c)
    (hc : c ≠ '=') (s : String) : (s ++ t).toList.getLast? ≠ some '=' := by
  rw [String.toList_append, List.getLast?_append, h]
  simpa using hc

private theorem isIdle_indented (n : Nat) :
    IsIdle (String.ofList (List.replicate n ' ') ++ "const std::string& path)").toList := by
  refine ⟨fun heq => ?_, by simp, getLast?_fixed (c := ')') (by decide) (by decide) _,
    fun _ => ?_⟩
  · have hlength := congrArg List.getLast? heq
    simp at hlength
  · have hblank : ∀ c ∈ List.replicate n ' ', (c == ' ') = true := by simp
    simp [List.dropWhile_append_of_pos hblank]

theorem lineFeed_not_mem_name {x : String} (h : Identifier.isValid x = true) :
    '\n' ∉ x.toList := fun hmem => absurd ((Cpp.isPart_of_isValid h).2 _ hmem) (by decide)

theorem getLast?_name {x : String} (h : Identifier.isValid x = true) (s : String) :
    (s ++ x).toList.getLast? ≠ some '=' := by
  obtain ⟨hne, hpart⟩ := Cpp.isPart_of_isValid h
  rw [String.toList_append, List.getLast?_append_of_ne_nil _ hne]
  intro hlast
  exact absurd (hpart '=' (List.mem_of_getLast? hlast)) (by decide)

namespace Statement

def kinds : Statement → List LineKind
  | .declare _ => [.declaration]
  | .assign .. => [.assignment, .lookup]
  | .emplace .. => [.emplacement]

private theorem lineKind_assignment {container : String}
    (h : Identifier.isValid container = true) (key : String) :
    lineKind ("    " ++ container ++ "[" ++ Cpp.literal key ++ "] =") = .assignment := by
  have hpart := (Cpp.isPart_of_isValid h).2
  have hstop : ¬Identifier.isPart ' ' = true ∧ ¬Identifier.isPart '.' = true ∧
      ¬Identifier.isPart '[' = true := by decide
  have hbegins (p q : List Char) (x : Char) (hp : p.all Identifier.isPart = true)
      (hx : x = ' ' ∨ x = '.') :
      ¬p ++ x :: q <+: container.toList ++ '[' :: ((Cpp.literal key).toList ++ [']', ' ', '=']) := by
    intro hstarts
    rcases hx with rfl | rfl
    · exact absurd (eq_of_starts (List.all_eq_true.mp hp) hpart hstop.1 hstop.2.2 hstarts).2 (by decide)
    · exact absurd (eq_of_starts (List.all_eq_true.mp hp) hpart hstop.2.1 hstop.2.2 hstarts).2 (by decide)
  have hinner := hbegins "Inner".toList [] ' ' (by decide) (.inl rfl)
  have hobject := hbegins "object".toList "emplace(".toList '.' (by decide) (.inr rfl)
  have hlookup := hbegins [] "   vpdStore.get<".toList ' ' (by decide) (.inl rfl)
  have hline : ("    " ++ container ++ "[" ++ Cpp.literal key ++ "] =").toList =
      ' ' :: ' ' :: ' ' :: ' ' ::
        (container.toList ++ '[' :: ((Cpp.literal key).toList ++ [']', ' ', '='])) := by simp
  have ht : "    " ++ container ++ "[" ++ Cpp.literal key ++ "] =" ≠ "template <>" := by
    intro heq
    rw [heq] at hline
    simp at hline
  have hends : Text.ends "] =" ("    " ++ container ++ "[" ++ Cpp.literal key ++ "] =") = true := by
    rw [Text.ends, List.isSuffixOf_iff_suffix, String.toList_append]
    exact List.suffix_append _ _
  simp only [String.reduceToList, List.cons_append, List.nil_append] at hinner hobject hlookup
  simp only [lineKind, ht, hends, if_false, if_true, Text.begins, List.isPrefixOf_iff_prefix, hline,
    String.reduceToList, List.cons_prefix_cons, hinner, hobject, hlookup, and_false]

theorem map_lineKind_lines {s : Statement} (h : s.IsPlain) : s.lines.map lineKind = s.kinds := by
  cases s with
  | declare container =>
    have hline : lineKind ("    Inner " ++ container ++ ";") = .declaration := by
      rw [LineKind.eq_declaration_iff]
      simp [Text.begins]
    simp [lines, kinds, hline]
  | assign container key value =>
    have hline : lineKind ("        " ++ value.lookup ++ ";") = .lookup := by
      rw [LineKind.eq_lookup_iff]
      unfold Reference.lookup
      simp [Text.begins]
    simp [lines, kinds, lineKind_assignment h.1 key, hline]
  | emplace key container =>
    have hline : lineKind ("    object.emplace(" ++ Cpp.literal key ++ ", std::move(" ++ container ++
        "));") = .emplacement := by
      rw [LineKind.eq_emplacement_iff]
      simp [Text.begins]
    simp [lines, kinds, hline]

end Statement

namespace Interface

def kinds (i : Interface) : List LineKind := i.statements.flatMap Statement.kinds

private theorem kinds_eq (i : Interface) :
    i.kinds = .declaration :: i.properties.flatMap fun _ => [.assignment, .lookup] := by
  simp [kinds, statements, Statement.kinds, List.flatMap_map]

theorem count_kinds (i : Interface) (k : LineKind) :
    i.kinds.count k = match k with
      | .declaration => 1
      | .assignment | .lookup => i.properties.length
      | _ => 0 := by
  cases k <;> simp [kinds_eq, List.count_flatMap, Function.comp_def]

theorem map_lineKind_lines {i : Interface} (h : ∀ s ∈ i.statements, s.IsPlain) :
    i.lines.map lineKind = i.kinds := by
  rw [lines, kinds, List.map_flatMap]
  exact List.flatMap_congr fun s hs => Statement.map_lineKind_lines (h s hs)

end Interface

namespace Fru

def opening : List String :=
  ["\x7b",
   "    Outer object;",
   "",
   "    // Inventory manager needs object path, list of interface names to be",
   "    // implemented, and property:value pairs contained in said interfaces"]

def closing : List String := ["", "    print(std::move(object), path);", "\x7d"]

theorem isIdle_opening : ∀ l ∈ opening, IsIdle l.toList := by
  unfold opening
  repeat' apply Text.forall_toList_cons
  all_goals decide

theorem isIdle_closing : ∀ l ∈ closing, IsIdle l.toList := by
  unfold closing
  repeat' apply Text.forall_toList_cons
  all_goals decide

/-- The lines of a specialization above those that hand its containers over. -/
def front (f : Fru) : List String :=
  f.signature ++ opening ++
  f.interfaces.flatMap (fun i => "" :: i.lines) ++
  (if f.interfaces.isEmpty then [] else [""])

theorem lines_eq (f : Fru) : f.lines =
    f.front ++ (f.interfaces.flatMap fun i => i.emplacement.lines) ++ closing := rfl

/-- A head has a comment, the line above it and two more. -/
def frontKinds (f : Fru) : List LineKind :=
  [.other, .template, .other, .other] ++ List.replicate opening.length .other ++
    f.interfaces.flatMap (fun i => .other :: i.kinds) ++
    (if f.interfaces.isEmpty then [] else [.other])

def kinds (f : Fru) : List LineKind :=
  f.frontKinds ++ List.replicate f.interfaces.length .emplacement ++
    List.replicate closing.length .other

private theorem map_lineKind_signature {f : Fru} (h : f.IsPlain) :
    f.signature.map lineKind = [.other, .template, .other, .other] := by
  have hunit := lineFeed_not_mem_name h.unit
  have hcomment : IsIdle ("// Specialization of " ++ f.name).toList :=
    isIdle_of_head (c := '/') (by simp) (by decide) (by simp [hunit]) (getLast?_name h.unit _)
  have hhead : IsIdle ("inline void writeFru<Fru::" ++ f.name ++ ">(" ++ "const Store& vpdStore,").toList :=
    isIdle_of_head (c := 'i') (by simp) (by decide) (by simp [hunit])
      (getLast?_fixed (c := ',') (by decide) (by decide) _)
  have htemplate : lineKind "template <>" = .template := by rw [LineKind.eq_template_iff]
  simp only [signature, List.map_cons, List.map_nil, lineKind_of_isIdle hcomment, htemplate,
    lineKind_of_isIdle hhead, lineKind_of_isIdle (isIdle_indented _)]

private theorem map_lineKind_front {f : Fru} (h : f.IsPlain) :
    f.front.map lineKind = f.frontKinds := by
  have hblank : lineKind "" = .other := lineKind_of_isIdle isIdle_nil
  have hfill : (f.interfaces.flatMap fun i => "" :: i.lines).map lineKind =
      f.interfaces.flatMap fun i => .other :: i.kinds := by
    rw [List.map_flatMap]
    refine List.flatMap_congr fun i hi => ?_
    rw [List.map_cons, hblank, Interface.map_lineKind_lines fun s hs =>
      h.body s (mem_body_of_statements hi hs)]
  have hseparator : (if f.interfaces.isEmpty then [] else [""]).map lineKind =
      if f.interfaces.isEmpty then [] else [.other] := by
    split <;> simp [hblank]
  simp only [front, frontKinds, List.map_append, map_lineKind_signature h,
    map_lineKind_of_isIdle isIdle_opening, hfill, hseparator]

private theorem map_lineKind_emplacements {f : Fru} (h : f.IsPlain) :
    (f.interfaces.flatMap fun i => i.emplacement.lines).map lineKind =
      List.replicate f.interfaces.length .emplacement := by
  rw [← List.map_const, List.map_flatMap, List.map_eq_flatMap]
  refine List.flatMap_congr fun i hi => ?_
  exact Statement.map_lineKind_lines (h.body _ (emplacement_mem_body hi))

theorem map_lineKind_lines {f : Fru} (h : f.IsPlain) : f.lines.map lineKind = f.kinds := by
  rw [lines_eq, kinds, List.map_append, List.map_append, map_lineKind_front h,
    map_lineKind_emplacements h, map_lineKind_of_isIdle isIdle_closing]

/-- How many lines of each kind a specialization has, those apart that are always there. -/
theorem count_kinds (f : Fru) {k : LineKind} (hk : k ≠ .other) :
    f.kinds.count k = match k with
      | .template => 1
      | .declaration | .emplacement => f.interfaces.length
      | .assignment | .lookup => f.propertyCount
      | .other => 0 := by
  have hseparator : (if f.interfaces.isEmpty then [] else [LineKind.other]).count k = 0 := by
    split <;> simp [hk.symm]
  have hproperties : (f.interfaces.map fun i => i.properties.length).sum = f.propertyCount := by
    rw [propertyCount, List.sum_eq_foldr, List.foldr_map]
  simp only [kinds, frontKinds, List.count_append, hseparator, List.count_flatMap, Function.comp_def,
    List.count_cons, Interface.count_kinds, List.count_replicate]
  cases k with
  | other => exact absurd rfl hk
  | _ => simp_all

def IsOrdered (a b : LineKind) : Prop := a = .emplacement → b.fills = false

private theorem emplacement_not_mem_frontKinds (f : Fru) :
    LineKind.emplacement ∉ f.frontKinds := by
  have hinterface (i : Interface) : LineKind.emplacement ∉ i.kinds := by simp [Interface.kinds_eq]
  simp [frontKinds, hinterface]

theorem pairwise_kinds (f : Fru) : f.kinds.Pairwise IsOrdered := by
  have hfront : ∀ k ∈ f.frontKinds, k ≠ .emplacement := fun k hk he =>
    f.emplacement_not_mem_frontKinds (he ▸ hk)
  have hback : ∀ k ∈ List.replicate f.interfaces.length LineKind.emplacement ++
      List.replicate closing.length .other, k.fills = false := by
    intro k hk
    rcases List.mem_append.mp hk with hk | hk <;> rw [List.eq_of_mem_replicate hk] <;> rfl
  rw [kinds, List.append_assoc, List.pairwise_append]
  refine ⟨List.pairwise_of_forall_mem_list fun a ha b _ he => absurd he (hfront a ha),
    List.pairwise_of_forall_mem_list fun a _ b hb _ => hback b hb,
    fun a ha b _ he => absurd he (hfront a ha)⟩

theorem emplacements_of_isPlain {f : Fru} (hplain : f.IsPlain) :
    ("" :: f.lines).filter (Text.begins "    object.emplace(") =
      f.interfaces.flatMap fun i => i.emplacement.lines := by
  have hnone (lines : List String) (h : ∀ k ∈ lines.map lineKind, k ≠ .emplacement) :
      lines.filter (Text.begins "    object.emplace(") = [] := by
    rw [List.filter_eq_nil_iff]
    intro l hl hbegins
    exact h _ (List.mem_map_of_mem hl) (LineKind.eq_emplacement_iff.mpr hbegins)
  have hfront := hnone ("" :: f.front) fun k hk he => by
    rw [List.map_cons, map_lineKind_front hplain] at hk
    rcases List.mem_cons.mp hk with rfl | hk
    · exact absurd (he.symm.trans (lineKind_of_isIdle isIdle_nil)) (by decide)
    · exact f.emplacement_not_mem_frontKinds (he ▸ hk)
  have hend := hnone closing fun k hk => by
    rw [map_lineKind_of_isIdle isIdle_closing] at hk
    simp [List.eq_of_mem_replicate hk]
  have hall : (f.interfaces.flatMap fun i => i.emplacement.lines).filter
      (Text.begins "    object.emplace(") = f.interfaces.flatMap fun i => i.emplacement.lines := by
    rw [List.filter_eq_self]
    intro l hl
    have hk := List.mem_map_of_mem (f := lineKind) hl
    rw [map_lineKind_emplacements hplain] at hk
    exact LineKind.eq_emplacement_iff.mp (List.eq_of_mem_replicate hk)
  rw [lines_eq, ← List.cons_append, ← List.cons_append, List.filter_append, List.filter_append,
    hfront, hend, hall, List.nil_append, List.append_nil]

/-- The lines of a specialization and the empty line above it. -/
theorem kinds_block {f : Fru} (hplain : f.IsPlain) :
    ("" :: f.lines).map lineKind = .other :: f.kinds := by
  rw [List.map_cons, lineKind_of_isIdle isIdle_nil, map_lineKind_lines hplain]

end Fru

end VpdHeaders
