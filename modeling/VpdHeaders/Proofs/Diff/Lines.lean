import Mathlib.Data.List.Basic
import VpdHeaders.Diff.Run

/-! # Texts that are cut into lines and put together again -/
namespace VpdHeaders.Diff

/-- No character ends a line. -/
def IsClean (cs : List Char) : Prop := ∀ c ∈ cs, c ≠ '\n' ∧ c ≠ '\r'

def terminators : List (List Char) := [['\n'], ['\r', '\n'], ['\r']]

def IsEnded (line : List Char) : Prop :=
  ∃ body finish, line = body ++ finish ∧ IsClean body ∧ finish ∈ terminators

/-- A line of a text, which has an end unless it is the last one. -/
def IsLine (line : List Char) : Prop := IsClean line ∨ IsEnded line

section Clean

variable {c : Char} {cs ds : List Char}

@[simp] theorem isClean_nil : IsClean [] := nofun

@[simp] theorem isClean_cons : IsClean (c :: cs) ↔ (c ≠ '\n' ∧ c ≠ '\r') ∧ IsClean cs :=
  List.forall_mem_cons

@[simp] theorem isClean_append : IsClean (cs ++ ds) ↔ IsClean cs ∧ IsClean ds :=
  List.forall_mem_append

theorem IsEnded.cons (hc : c ≠ '\n' ∧ c ≠ '\r') : IsEnded cs → IsEnded (c :: cs)
  | ⟨body, finish, hline, hbody, hfinish⟩ =>
    ⟨c :: body, finish, by rw [hline, List.cons_append], isClean_cons.mpr ⟨hc, hbody⟩, hfinish⟩

theorem IsLine.cons (hc : c ≠ '\n' ∧ c ≠ '\r') : IsLine cs → IsLine (c :: cs)
  | .inl h => .inl (isClean_cons.mpr ⟨hc, h⟩)
  | .inr h => .inr (h.cons hc)

end Clean

section Split

variable {c : Char} {rest : List Char}

/-- A character that ends no line goes to the line behind it. -/
theorem splitLines_clean (hc : c ≠ '\n' ∧ c ≠ '\r') :
    splitLines (c :: rest) = (c :: (splitLines rest).headD []) :: (splitLines rest).tail := by
  rw [splitLines.eq_3 _ _ (by simp [hc]), if_neg (by simp [hc])]
  cases splitLines rest <;> rfl

/-- Nothing is lost where a text is cut into lines. -/
theorem flatten_splitLines (cs : List Char) : (splitLines cs).flatten = cs := by
  fun_induction splitLines cs with
  | case1 => rfl
  | case2 rest ih => simp [ih]
  | case3 c rest _ hc ih => simp [ih]
  | case4 c rest _ hc hrest ih =>
    rw [hrest] at ih
    simpa using ih
  | case5 c rest _ hc line lines hrest ih =>
    rw [hrest] at ih
    simpa using ih

theorem isLine_of_mem_splitLines (cs : List Char) : ∀ line ∈ splitLines cs, IsLine line := by
  fun_induction splitLines cs with
  | case1 => simp
  | case2 rest ih =>
    exact List.forall_mem_cons.mpr ⟨.inr ⟨[], _, rfl, isClean_nil, by simp [terminators]⟩, ih⟩
  | case3 c rest _ hc ih =>
    refine List.forall_mem_cons.mpr ⟨.inr ⟨[], _, rfl, isClean_nil, ?_⟩, ih⟩
    rcases hc with rfl | rfl <;> simp [terminators]
  | case4 c rest _ hc hrest ih =>
    rw [not_or] at hc
    simpa [IsLine] using .inl hc
  | case5 c rest _ hc line lines hrest ih =>
    rw [not_or] at hc
    rw [hrest, List.forall_mem_cons] at ih
    exact List.forall_mem_cons.mpr ⟨ih.1.cons hc, ih.2⟩

/-- A line with its end is cut off. A carriage return would take a line feed behind it along. -/
theorem splitLines_append {line : List Char} (h : IsEnded line) (hrest : rest.head? ≠ some '\n') :
    splitLines (line ++ rest) = line :: splitLines rest := by
  obtain ⟨body, finish, rfl, hbody, hfinish⟩ := h
  induction body with
  | nil =>
    simp only [terminators, List.mem_cons, List.not_mem_nil, or_false] at hfinish
    rcases hfinish with rfl | rfl | rfl
    · rfl
    · rfl
    · cases rest with
      | nil => rfl
      | cons c rest =>
        have hc : c ≠ '\n' := fun he => hrest (congrArg some he)
        simp [splitLines, hc]
  | cons c body ih =>
    obtain ⟨hc, hbody⟩ := isClean_cons.mp hbody
    rw [List.cons_append, List.cons_append, splitLines_clean hc, ih hbody, List.headD_cons,
      List.tail_cons]

/-- Lines that have ends, and do not begin with one, are found again. -/
theorem splitLines_flatten {lines : List (List Char)}
    (h : ∀ line ∈ lines, IsEnded line ∧ line.head? ≠ some '\n') :
    splitLines lines.flatten = lines := by
  induction lines with
  | nil => rfl
  | cons line lines ih =>
    obtain ⟨⟨hline, -⟩, hlines⟩ := List.forall_mem_cons.mp h
    have hhead : lines.flatten.head? ≠ some '\n' := by
      cases lines with
      | nil => simp
      | cons next lines =>
        obtain ⟨hended, hnext⟩ := hlines next List.mem_cons_self
        cases next with
        | nil =>
          obtain ⟨body, finish, hempty, -, hfinish⟩ := hended
          obtain ⟨-, rfl⟩ := List.append_eq_nil_iff.mp hempty.symm
          simp [terminators] at hfinish
        | cons c next => simpa using hnext
    rw [List.flatten_cons, splitLines_append hline hhead, ih hlines]

end Split

section Texts

variable {line : String}

theorem join_linesOf (text : String) : String.join (linesOf text) = text := by
  rw [← String.toList_inj, String.toList_join, linesOf, List.flatMap_map]
  simp [List.flatMap_id', flatten_splitLines]

theorem linesOf_injective : Function.Injective linesOf :=
  Function.LeftInverse.injective join_linesOf

theorem isLine_of_mem_linesOf {text : String} (h : line ∈ linesOf text) : IsLine line.toList := by
  obtain ⟨cs, hcs, rfl⟩ := List.mem_map.mp h
  rw [String.toList_ofList]
  exact isLine_of_mem_splitLines _ cs hcs

theorem linesOf_join {lines : List String}
    (h : ∀ line ∈ lines, IsEnded line.toList ∧ line.toList.head? ≠ some '\n') :
    linesOf (String.join lines) = lines := by
  have hsplit : splitLines (lines.map String.toList).flatten = lines.map String.toList :=
    splitLines_flatten (List.forall_mem_map.mpr h)
  rw [linesOf, String.toList_join, List.flatMap_def, hsplit, List.map_map]
  exact (List.map_congr_left fun _ _ => String.ofList_toList).trans (List.map_id' lines)

theorem isEnded_of_isClean (h : IsClean line.toList) : isEnded line = false := by
  rw [isEnded]
  split
  · next c hc =>
    obtain ⟨hfeed, hreturn⟩ := h c (List.mem_of_getLast? hc)
    simp [hfeed, hreturn]
  · rfl

theorem isEnded_of_ended (h : IsEnded line.toList) : isEnded line = true := by
  obtain ⟨body, finish, hline, -, hfinish⟩ := h
  simp only [terminators, List.mem_cons, List.not_mem_nil, or_false] at hfinish
  rcases hfinish with rfl | rfl | rfl <;> simp [isEnded, hline]

end Texts

end VpdHeaders.Diff
