import VpdHeaders.Proofs.Diff.Lines
import VpdHeaders.Proofs.Diff.Patch
import VpdHeaders.Proofs.Text.Fields

/-! # The printed form of a difference can be read again -/
namespace VpdHeaders.Diff

section Ranges

variable {c : Char} {first last : Nat}

def Range.between (first last : Nat) : Range := ⟨first, last - first⟩

private theorem not_mem_toString (hc : c.isDigit = false) (n : Nat) : c ∉ (toString n).toList := by
  intro h
  rw [Cpp.isDigit_of_mem_repr h] at hc
  contradiction

private theorem numeral?_ofList (n : Nat) :
    Cpp.numeral? (String.ofList (toString n).toList) = some n := by
  rw [String.ofList_toList]
  exact Cpp.numeral?_repr n

private theorem read?_number (n : Nat) :
    Range.read? (toString n).toList = Range.ofNumber? n 1 := by
  rw [Range.read?, Text.fields_of_not_mem (not_mem_toString rfl n)]
  simp only [List.map_cons, List.map_nil, numeral?_ofList]
  rfl

private theorem read?_pair (n k : Nat) :
    Range.read? (toString n ++ "," ++ toString k).toList = Range.ofNumber? n k := by
  have hfields : Text.fields ',' (toString n ++ "," ++ toString k).toList =
      [(toString n).toList, (toString k).toList] := by
    rw [String.toList_append, String.toList_append, List.append_assoc]
    exact (Text.fields_append_sep (not_mem_toString rfl n) _).trans
      (congrArg _ (Text.fields_of_not_mem (not_mem_toString rfl k)))
  rw [Range.read?, hfields]
  simp only [List.map_cons, List.map_nil, numeral?_ofList]
  rfl

theorem read?_rangeText (first last : Nat) :
    Range.read? (rangeText first last).toList = some (.between first last) := by
  rw [rangeText, Range.between]
  generalize last - first = n
  match n with
  | 0 => exact read?_pair first 0
  | 1 => exact read?_number (first + 1)
  | n + 2 => exact read?_pair (first + 1) (n + 2)

/-- Only digits and a comma stand in a range. -/
theorem not_mem_rangeText (hc : c.isDigit = false) (hcomma : c ≠ ',') (first last : Nat) :
    c ∉ (rangeText first last).toList := by
  have hnumber (n : Nat) := not_mem_toString hc n
  have hpair (n k : Nat) : c ∉ (toString n ++ "," ++ toString k).toList := by
    rw [String.toList_append, String.toList_append]
    simp only [List.mem_append, not_or]
    exact ⟨⟨hnumber n, by simp [hcomma]⟩, hnumber k⟩
  rw [rangeText]
  generalize last - first = n
  match n with
  | 0 => exact hpair first 0
  | 1 => exact hnumber (first + 1)
  | n + 2 => exact hpair (first + 1) (n + 2)

end Ranges

section Lines

def Mark.sign : Mark → String
  | keep => " "
  | remove => "-"
  | add => "+"

def PatchLine.rows (l : PatchLine) : List String :=
  if isEnded l.line then [l.mark.sign ++ l.line] else [l.mark.sign ++ l.line ++ "\n", unendedNote]

theorem join_rows (l : PatchLine) : String.join l.rows = markedLine l.mark.sign l.line := by
  rw [PatchLine.rows, markedLine]
  split
  · simp
  · simp only [String.join_cons, String.join_nil, String.append_empty, String.append_assoc]
    rfl

theorem ofLine_sign (mark : Mark) (line : String) :
    Entry.ofLine (mark.sign ++ line) = .line ⟨mark, line⟩ := by
  cases mark <;> simp [Entry.ofLine, Mark.sign]

theorem ofLine_unendedNote : Entry.ofLine unendedNote = .unended := rfl

theorem chop_feed (mark : Mark) (line : String) :
    (⟨mark, line ++ "\n"⟩ : PatchLine).chop = ⟨mark, line⟩ := by
  simp [PatchLine.chop]

private theorem readHunks?_line (l : PatchLine) {rest : List Entry}
    (hrest : rest.head? ≠ some .unended) :
    readHunks? (.line l :: rest) = (readHunks? rest).map fun r => (l :: r.1, r.2) := by
  cases rest with
  | nil => rfl
  | cons e rest =>
    cases e with
    | unended => exact absurd rfl hrest
    | header | line | other =>
      rw [readHunks?, Option.map_eq_bind]
      · rfl
      all_goals nofun

/-- Lines are read until a header comes. -/
theorem readHunks?_rows (lines : List PatchLine) {rest : List Entry}
    (hrest : rest.head? ≠ some .unended) :
    readHunks? ((lines.flatMap PatchLine.rows).map Entry.ofLine ++ rest) =
      (readHunks? rest).map fun r => (lines ++ r.1, r.2) := by
  induction lines with
  | nil => simp
  | cons l lines ih =>
    rw [List.flatMap_cons, List.map_append, List.append_assoc]
    by_cases hl : isEnded l.line = true
    · have hnext : ((lines.flatMap PatchLine.rows).map Entry.ofLine ++ rest).head? ≠ some .unended := by
        cases lines with
        | nil => exact hrest
        | cons m lines =>
          rw [List.flatMap_cons, PatchLine.rows]
          split <;> simp [String.append_assoc, ofLine_sign]
      rw [PatchLine.rows, if_pos hl, List.map_singleton, ofLine_sign, List.singleton_append,
        readHunks?_line _ hnext, ih, Option.map_map]
      rfl
    · rw [PatchLine.rows, if_neg hl, List.map_cons, List.map_singleton, String.append_assoc,
        ofLine_sign, ofLine_unendedNote, List.cons_append, List.singleton_append, readHunks?, ih,
        chop_feed]
      cases readHunks? rest <;> rfl

end Lines

section Headers

variable (first last : Block)

theorem headerOf_headerText : Entry.headerOf (headerText first last ++ "\n").toList =
    .header (.between first.oldAt (last.oldAt + last.removed.length))
      (.between first.newAt (last.newAt + last.added.length)) := by
  have hold := not_mem_rangeText (c := ' ') rfl (by decide) first.oldAt (last.oldAt + last.removed.length)
  have hnew := not_mem_rangeText (c := ' ') rfl (by decide) first.newAt (last.newAt + last.added.length)
  have hread := read?_rangeText first.oldAt (last.oldAt + last.removed.length)
  have hread' := read?_rangeText first.newAt (last.newAt + last.added.length)
  rw [headerText]
  generalize rangeText first.oldAt (last.oldAt + last.removed.length) = old at *
  generalize rangeText first.newAt (last.newAt + last.added.length) = new at *
  have htext : ("@@ -" ++ old ++ " +" ++ new ++ " @@" ++ "\n").toList =
      ['@', '@'] ++ ' ' :: ('-' :: old.toList ++ ' ' :: ('+' :: new.toList ++ ' ' :: ['@', '@', '\n'])) := by
    simp
  have hfields : Text.fields ' ' ("@@ -" ++ old ++ " +" ++ new ++ " @@" ++ "\n").toList =
      [['@', '@'], '-' :: old.toList, '+' :: new.toList, ['@', '@', '\n']] := by
    rw [htext, Text.fields_append_sep (by decide), Text.fields_append_sep (by simpa using hold),
      Text.fields_append_sep (by simpa using hnew), Text.fields_of_not_mem (by decide)]
  rw [Entry.headerOf, hfields]
  simp only [hread, hread']

theorem ofLine_headerText :
    Entry.ofLine (headerText first last ++ "\n") =
      .header (.between first.oldAt (last.oldAt + last.removed.length))
        (.between first.newAt (last.newAt + last.added.length)) := by
  have hstart : ∃ cs, (headerText first last ++ "\n").toList = '@' :: cs := by
    simp [headerText]
  obtain ⟨cs, hcs⟩ := hstart
  rw [← headerOf_headerText, Entry.ofLine, hcs]
  rfl

end Headers

section Printed

def Block.patchLines (b : Block) : List PatchLine :=
  if b.changed then b.removed.map (⟨.remove, ·⟩) ++ b.added.map (⟨.add, ·⟩)
  else b.removed.map (⟨.keep, ·⟩)

theorem map_render_pieces (b : Block) :
    b.pieces.map (Piece.render false) = b.patchLines.map fun l => String.join l.rows := by
  rw [Block.pieces, Block.patchLines]
  split <;> simp [join_rows, Piece.render, Mark.sign, Function.comp_def]

private theorem join_flatMap {α : Type} (f : α → List String) (xs : List α) :
    String.join (xs.flatMap f) = String.join (xs.map fun x => String.join (f x)) := by
  induction xs with
  | nil => rfl
  | cons x xs ih => rw [List.flatMap_cons, String.join_append, ih, List.map_cons, String.join_cons]

namespace Hunk

def patchLines (h : Hunk) : List PatchLine := h.flatMap Block.patchLines

/-- The hunk as it is printed, with the places that its first and its last block know. -/
def printed? (h : Hunk) : Option PatchHunk :=
  match h.head?, h.getLast? with
  | some first, some last => some
    ⟨.between first.oldAt (last.oldAt + last.removed.length),
      .between first.newAt (last.newAt + last.added.length), h.patchLines⟩
  | _, _ => none

def rows (h : Hunk) : List String :=
  match h.head?, h.getLast? with
  | some first, some last => (headerText first last ++ "\n") :: h.patchLines.flatMap PatchLine.rows
  | _, _ => []

theorem exists_ends {h : Hunk} (hne : h ≠ []) :
    ∃ first last, h.head? = some first ∧ h.getLast? = some last :=
  ⟨h.head hne, h.getLast hne, List.head?_eq_some_head hne, List.getLast?_eq_some_getLast hne⟩

theorem join_rows (h : Hunk) :
    String.join (h.pieces.map (Piece.render false)) = String.join h.rows := by
  rcases eq_or_ne h [] with rfl | hne
  · rfl
  obtain ⟨first, last, hfirst, hlast⟩ := exists_ends hne
  have hlines : String.join ((h.flatMap Block.pieces).map (Piece.render false)) =
      String.join (h.patchLines.flatMap PatchLine.rows) := by
    rw [List.map_flatMap, join_flatMap PatchLine.rows, patchLines, List.map_flatMap]
    simp only [map_render_pieces]
  simp only [pieces, rows, hfirst, hlast, List.map_cons, String.join_cons, hlines, Piece.render,
    String.append_assoc]

private theorem head?_rows (hs : List Hunk) :
    ((hs.flatMap rows).map Entry.ofLine).head? ≠ some .unended := by
  induction hs with
  | nil => simp
  | cons h hs ih =>
    rcases eq_or_ne h [] with rfl | hne
    · exact ih
    obtain ⟨first, last, hfirst, hlast⟩ := exists_ends hne
    simp [rows, hfirst, hlast, ofLine_headerText]

theorem readHunks?_rows (hs : List Hunk) :
    readHunks? ((hs.flatMap rows).map Entry.ofLine) = some ([], hs.filterMap printed?) := by
  induction hs with
  | nil => rfl
  | cons h hs ih =>
    rcases eq_or_ne h [] with rfl | hne
    · exact ih
    obtain ⟨first, last, hfirst, hlast⟩ := exists_ends hne
    simp only [List.flatMap_cons, rows, hfirst, hlast, List.map_append, List.map_cons,
      ofLine_headerText, List.cons_append, readHunks?]
    rw [Diff.readHunks?_rows h.patchLines (head?_rows hs), ih]
    simp [printed?, hfirst, hlast]

end Hunk

end Printed

section Ended

/-- A line with an end that is no end of the line before it. -/
def IsRow (line : String) : Prop := IsEnded line.toList ∧ line.toList.head? ≠ some '\n'

theorem isRow_of_isClean {line : String} (hline : IsClean line.toList) (hne : line.toList ≠ []) :
    IsRow (line ++ "\n") := by
  obtain ⟨c, cs, hcs⟩ := List.exists_cons_of_ne_nil hne
  rw [IsRow, String.toList_append, hcs]
  rw [hcs] at hline
  exact ⟨⟨c :: cs, ['\n'], rfl, hline, by simp [terminators]⟩,
    by simpa using (hline c List.mem_cons_self).1⟩

theorem isRow_of_mem_rows {l : PatchLine} (h : IsLine l.line.toList) : ∀ row ∈ l.rows, IsRow row := by
  obtain ⟨c, hsign, hc⟩ : ∃ c, l.mark.sign.toList = [c] ∧ c ≠ '\n' ∧ c ≠ '\r' := by
    cases l.mark
    · exact ⟨' ', rfl, by decide⟩
    · exact ⟨'-', rfl, by decide⟩
    · exact ⟨'+', rfl, by decide⟩
  rcases h with hclean | hended
  · have hrow : IsRow (l.mark.sign ++ l.line ++ "\n") :=
      isRow_of_isClean (by simp [hsign, hc, hclean]) (by simp [hsign])
    have hnote : IsRow ("\\ No newline at end of file" ++ "\n") :=
      isRow_of_isClean (by simp) (by simp)
    simpa [PatchLine.rows, isEnded_of_isClean hclean] using ⟨hrow, hnote⟩
  · have hrow : IsRow (l.mark.sign ++ l.line) := by
      rw [IsRow, String.toList_append, hsign]
      exact ⟨hended.cons hc, by simpa using hc.1⟩
    simpa [PatchLine.rows, isEnded_of_ended hended] using hrow

theorem isClean_rangeText (first last : Nat) : IsClean (rangeText first last).toList := by
  intro c hc
  constructor <;> rintro rfl
  · exact not_mem_rangeText rfl (by decide) first last hc
  · exact not_mem_rangeText rfl (by decide) first last hc

theorem isRow_headerText (first last : Block) : IsRow (headerText first last ++ "\n") :=
  isRow_of_isClean (by simp [headerText, isClean_rangeText]) (by simp [headerText])

theorem isRow_of_mem_hunk {h : Hunk} (hlines : ∀ l ∈ h.patchLines, IsLine l.line.toList) :
    ∀ row ∈ h.rows, IsRow row := by
  rcases eq_or_ne h [] with rfl | hne
  · nofun
  obtain ⟨first, last, hfirst, hlast⟩ := Hunk.exists_ends hne
  simp only [Hunk.rows, hfirst, hlast, List.forall_mem_cons, List.forall_mem_flatMap]
  exact ⟨isRow_headerText first last, fun l hl => isRow_of_mem_rows (hlines l hl)⟩

end Ended

section Titles

theorem title?_append (start title : String) : title? start (start ++ title ++ "\n") = some title := by
  have hline : (start ++ title ++ "\n").toList = start.toList ++ (title.toList ++ ['\n']) := by simp
  have hend : ['\n'] <:+ start.toList ++ (title.toList ++ ['\n']) :=
    ⟨start.toList ++ title.toList, List.append_assoc ..⟩
  simp [title?, Text.begins, Text.ends, hline, hend, ← String.length_toList]

def titleRows (label : String) : List String :=
  ["--- " ++ (label ++ " (on disk)") ++ "\n", "+++ " ++ (label ++ " (generated)") ++ "\n"]

theorem join_titleRows (label : String) :
    String.join ((titlePieces label).map (Piece.render false)) = String.join (titleRows label) := by
  simp only [titlePieces, titleRows, List.map_cons, List.map_nil, Piece.render, String.join_cons,
    String.join_nil, String.append_empty, String.append_assoc]

theorem isRow_of_mem_titleRows {label : String} (h : IsClean label.toList) :
    ∀ row ∈ titleRows label, IsRow row := by
  have hrow {start finish : String} (hs : IsClean start.toList) (hf : IsClean finish.toList)
      (hne : start.toList ≠ []) : IsRow (start ++ (label ++ finish) ++ "\n") :=
    isRow_of_isClean (by simp [hs, h, hf]) (by simp [hne])
  rw [titleRows, List.forall_mem_cons, List.forall_mem_singleton]
  exact ⟨hrow (by simp) (by simp) (by simp), hrow (by simp) (by simp) (by simp)⟩

end Titles

theorem unified?_of_ne (label : String) {old new : String} (hne : old ≠ new) :
    unified? label old new false = some (String.join
      (titleRows label ++ (hunks (linesOf old) (linesOf new)).flatMap Hunk.rows)) := by
  rw [unified?, if_neg hne]
  simp only [List.map_append, String.join_append, join_titleRows, List.map_flatMap]
  rw [join_flatMap, join_flatMap]
  simp only [Hunk.join_rows]

theorem read?_rows {label : String} {hs : List Hunk} (hlabel : IsClean label.toList)
    (hlines : ∀ h ∈ hs, ∀ l ∈ Hunk.patchLines h, IsLine l.line.toList) :
    Patch.read? (String.join (titleRows label ++ hs.flatMap Hunk.rows)) =
      some ⟨label ++ " (on disk)", label ++ " (generated)", hs.filterMap Hunk.printed?⟩ := by
  have hrows : ∀ row ∈ titleRows label ++ hs.flatMap Hunk.rows, IsRow row :=
    List.forall_mem_append.mpr ⟨isRow_of_mem_titleRows hlabel,
      List.forall_mem_flatMap.mpr fun h hh => isRow_of_mem_hunk (hlines h hh)⟩
  rw [Patch.read?, linesOf_join hrows]
  simp only [titleRows, List.cons_append, List.nil_append, title?_append, Hunk.readHunks?_rows]
  rfl

end VpdHeaders.Diff
