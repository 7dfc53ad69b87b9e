import VpdHeaders.Proofs.Diff.Faithful

/-! # A difference in colour says what the plain one says

A terminal takes the sequences that set a style out of a text. What is left of a difference in colour is
the plain one, and no style is on where the next one starts. -/
namespace VpdHeaders.Diff

/-- What a terminal reads: a character to show, or a sequence that sets the style of a number. -/
inductive Token
  | shown (c : Char)
  | style (number : List Char)
  deriving DecidableEq

section Reading

variable {c : Char} {cs number rest : List Char}

namespace Token

/-- The number in a sequence `ESC [ number m` that a text starts with, and what comes behind it. -/
def sequence? : List Char → Option (List Char × List Char)
  | '\x1b' :: '[' :: cs =>
    match cs.dropWhile Char.isDigit with
    | 'm' :: rest => some (cs.takeWhile Char.isDigit, rest)
    | _ => none
  | _ => none

theorem length_lt_of_sequence? (h : sequence? cs = some (number, rest)) : rest.length < cs.length := by
  fun_cases sequence? cs with
  | case1 cs rest' hrest =>
    have hle := (List.dropWhile_suffix Char.isDigit (l := cs)).length_le
    simp only [sequence?, hrest, Option.some.injEq, Prod.mk.injEq] at h hle
    simp only [List.length_cons, ← h.2] at hle ⊢
    omega
  | case2 | case3 => simp_all [sequence?]

def read : List Char → List Token
  | [] => []
  | c :: cs =>
    match _ : sequence? (c :: cs) with
    | some (number, rest) => .style number :: read rest
    | none => .shown c :: read cs
termination_by cs => cs.length
decreasing_by
  · exact length_lt_of_sequence? ‹_›
  · exact Nat.lt_succ_self _

def reset : Token := .style ['0']

def shown? : Token → Option Char
  | shown c => some c
  | style _ => none

/-- What is shown of a text: all that is in no sequence. -/
def display (text : String) : String := String.ofList ((read text.toList).filterMap shown?)

/-- Every style that starts is reset before another one starts, and before the end. -/
def closes (on : Bool) : List Token → Bool
  | [] => !on
  | .shown _ :: ts => closes on ts
  | .style number :: ts => if .style number = reset then closes false ts else !on && closes true ts

example : closes false (read "\x1b[1ma\x1b[31mb\x1b[0m".toList) = false := by decide +kernel

theorem read_of_sequence? (h : sequence? cs = some (number, rest)) :
    read cs = .style number :: read rest := by
  cases cs with
  | nil => cases h
  | cons c cs =>
    rw [read]
    split <;> simp_all

theorem read_cons (hc : c ≠ '\x1b') : read (c :: cs) = .shown c :: read cs := by
  have hnone : sequence? (c :: cs) = none := by
    rw [sequence?]
    grind
  rw [read]
  split <;> simp_all

/-- A text without sequences is shown as it is. -/
theorem read_append (h : '\x1b' ∉ cs) : read (cs ++ rest) = cs.map .shown ++ read rest := by
  induction cs with
  | nil => rfl
  | cons c cs ih =>
    rw [List.mem_cons, not_or] at h
    rw [List.cons_append, read_cons (Ne.symm h.1), ih h.2, List.map_cons, List.cons_append]

theorem closes_append (on : Bool) (cs : List Char) (ts : List Token) :
    closes on (cs.map .shown ++ ts) = closes on ts := by
  induction cs with
  | nil => rfl
  | cons c cs ih => exact ih

end Token

end Reading

section Pieces

def Style.number : Style → List Char
  | .bold => ['1']
  | .cyan => ['3', '6']
  | .red => ['3', '1']
  | .green => ['3', '2']

theorem Style.read_code (s : Style) (rest : List Char) :
    Token.read (s.code.toList ++ rest) = .style s.number :: Token.read rest := by
  cases s <;> exact Token.read_of_sequence? rfl

theorem read_reset (rest : List Char) : Token.read (reset.toList ++ rest) = .reset :: Token.read rest :=
  Token.read_of_sequence? rfl

/-- No sequence starts in the text. -/
def IsPlain (text : String) : Prop := '\x1b' ∉ text.toList

instance : DecidablePred IsPlain := fun text => inferInstanceAs (Decidable ('\x1b' ∉ text.toList))

@[simp] theorem isPlain_append {s t : String} : IsPlain (s ++ t) ↔ IsPlain s ∧ IsPlain t := by
  rw [IsPlain, String.toList_append, List.mem_append, not_or, IsPlain, IsPlain]

namespace Piece

def tokens (p : Piece) : List Token :=
  match p.style with
  | some s => .style s.number :: (p.text.toList.map .shown ++ [.reset])
  | none => p.text.toList.map .shown

variable {p : Piece} {ps : List Piece}

theorem read_render (h : IsPlain p.text) (rest : List Char) :
    Token.read ((p.render true).toList ++ rest) = p.tokens ++ Token.read rest := by
  obtain ⟨style, text⟩ := p
  cases style with
  | none => exact Token.read_append h
  | some s =>
    simp only [render, tokens, String.toList_append, List.append_assoc, List.cons_append,
      Style.read_code, Token.read_append h, read_reset, List.nil_append]

theorem read_join (h : ∀ p ∈ ps, IsPlain p.text) :
    Token.read (String.join (ps.map (render true))).toList = ps.flatMap tokens := by
  induction ps with
  | nil => rw [List.map_nil, String.join_nil, String.toList_empty, Token.read, List.flatMap_nil]
  | cons p ps ih =>
    obtain ⟨hp, hps⟩ := List.forall_mem_cons.mp h
    rw [List.map_cons, String.join_cons, String.toList_append, read_render hp, ih hps,
      List.flatMap_cons]

theorem filterMap_tokens (p : Piece) :
    p.tokens.filterMap Token.shown? = (p.render false).toList := by
  have htext : (p.text.toList.map Token.shown).filterMap Token.shown? = p.text.toList := by
    rw [List.filterMap_map]
    exact List.filterMap_some
  obtain ⟨style, text⟩ := p
  cases style with
  | none => exact htext
  | some s =>
    simp only [tokens, Token.reset, List.filterMap_cons, List.filterMap_append, Token.shown?, htext]
    exact List.append_nil _

theorem display_join (h : ∀ p ∈ ps, IsPlain p.text) :
    Token.display (String.join (ps.map (render true))) = String.join (ps.map (render false)) := by
  rw [Token.display, read_join h, List.filterMap_flatMap, ← String.toList_inj, String.toList_ofList,
    String.toList_join, List.flatMap_map]
  simp only [filterMap_tokens]

theorem closes_tokens (p : Piece) (ts : List Token) :
    Token.closes false (p.tokens ++ ts) = Token.closes false ts := by
  obtain ⟨style, text⟩ := p
  cases style with
  | none => exact Token.closes_append ..
  | some s => simp [tokens, Token.reset, Token.closes, Token.closes_append]

theorem closes_flatMap (ps : List Piece) : Token.closes false (ps.flatMap tokens) = true := by
  induction ps with
  | nil => rfl
  | cons p ps ih => rw [List.flatMap_cons, closes_tokens, ih]

end Piece

end Pieces

section Texts

variable {label old new : String}

theorem isPlain_markedLine (mark : Mark) {line : String} (h : IsPlain line) :
    IsPlain (markedLine mark.sign line) := by
  have hmark : IsPlain mark.sign := by cases mark <;> decide
  have hnote : IsPlain (if isEnded line then "" else "\n\\ No newline at end of file\n") := by
    split <;> decide
  exact isPlain_append.mpr ⟨isPlain_append.mpr ⟨hmark, h⟩, hnote⟩

theorem isPlain_headerText (first last : Block) : IsPlain (headerText first last) := by
  have hrange (i j : Nat) : IsPlain (rangeText i j) := not_mem_rangeText rfl (by decide) i j
  simp +decide [headerText, hrange]

theorem isPlain_titlePieces (h : IsPlain label) : ∀ p ∈ titlePieces label, IsPlain p.text := by
  simp +decide [titlePieces, h]

theorem isPlain_pieces {b : Block} (h : ∀ l ∈ b.patchLines, IsPlain l.line) :
    ∀ p ∈ b.pieces, IsPlain p.text := by
  by_cases hb : b.changed
  · rw [Block.patchLines, if_pos hb] at h
    rw [Block.pieces, if_pos hb]
    simp only [List.forall_mem_append, List.forall_mem_map] at h ⊢
    exact ⟨fun line hline => isPlain_markedLine .remove (h.1 line hline),
      fun line hline => isPlain_markedLine .add (h.2 line hline)⟩
  · rw [Block.patchLines, if_neg hb, List.forall_mem_map] at h
    rw [Block.pieces, if_neg hb, List.forall_mem_map]
    exact fun line hline => isPlain_markedLine .keep (h line hline)

theorem Hunk.isPlain_pieces {h : Hunk} (hlines : ∀ l ∈ h.patchLines, IsPlain l.line) :
    ∀ p ∈ h.pieces, IsPlain p.text := by
  rcases eq_or_ne h [] with rfl | hne
  · nofun
  obtain ⟨first, last, hfirst, hlast⟩ := exists_ends hne
  simp only [pieces, hfirst, hlast, List.forall_mem_cons, List.forall_mem_flatMap]
  exact ⟨isPlain_headerText first last, by decide, fun b hb =>
    Diff.isPlain_pieces fun l hl => hlines l (List.mem_flatMap.mpr ⟨b, hb, hl⟩)⟩

theorem isPlain_of_mem_linesOf (h : IsPlain old) : ∀ line ∈ linesOf old, IsPlain line := by
  intro line hline hmem
  rw [IsPlain, ← join_linesOf old, String.toList_join] at h
  exact h (List.mem_flatMap.mpr ⟨line, hline, hmem⟩)

/-- Whatever is printed for texts without sequences has none of its own. -/
theorem isPlain_of_mem_hunks (hold : IsPlain old) (hnew : IsPlain new) :
    ∀ p ∈ (hunks (linesOf old) (linesOf new)).flatMap Hunk.pieces, IsPlain p.text := by
  refine List.forall_mem_flatMap.mpr fun h hh => Hunk.isPlain_pieces fun l hl => ?_
  rcases (leads_hunks (linesOf old) (linesOf new)).mem h hh l hl with hm | hm
  · exact isPlain_of_mem_linesOf hold _ hm
  · exact isPlain_of_mem_linesOf hnew _ hm

end Texts

/-- With colour or without, there is a difference for the same texts. A terminal shows one as the other,
and every style is reset before the next one and before the end. -/
theorem colour_shows_the_same {label old new : String} (hlabel : IsPlain label) (hold : IsPlain old)
    (hnew : IsPlain new) :
    (unified? label old new true = none ↔ unified? label old new false = none) ∧
    ∀ coloured, unified? label old new true = some coloured →
      unified? label old new false = some (Token.display coloured) ∧
      Token.closes false (Token.read coloured.toList) = true := by
  by_cases he : old = new
  · simp [unified?, he]
  have hplain : ∀ p ∈ titlePieces label ++ (hunks (linesOf old) (linesOf new)).flatMap Hunk.pieces,
      IsPlain p.text :=
    List.forall_mem_append.mpr ⟨isPlain_titlePieces hlabel, isPlain_of_mem_hunks hold hnew⟩
  refine ⟨by simp [unified?, he], fun coloured hcoloured => ?_⟩
  rw [unified?, if_neg he, Option.some.injEq] at hcoloured
  rw [unified?, if_neg he, Option.some.injEq, ← hcoloured, Piece.display_join hplain,
    Piece.read_join hplain]
  exact ⟨rfl, Piece.closes_flatMap _⟩

/-- A change of a line that has no end. -/
theorem unended_line_in_colour : (IsPlain "h" ∧ IsPlain "a\nb" ∧ IsPlain "a\nc\n") ∧
    ∃ coloured, unified? "h" "a\nb" "a\nc\n" true = some coloured ∧
      Token.display coloured = "--- h (on disk)\n+++ h (generated)\n" ++
        "@@ -1,2 +1,2 @@\n a\n-b\n\\ No newline at end of file\n+c\n" ∧
      Token.closes false (Token.read coloured.toList) = true := by
  have hplain : IsPlain "h" ∧ IsPlain "a\nb" ∧ IsPlain "a\nc\n" := by decide
  obtain ⟨coloured, hcoloured⟩ : ∃ coloured, unified? "h" "a\nb" "a\nc\n" true = some coloured := by
    rw [unified?, if_neg (by decide)]
    exact ⟨_, rfl⟩
  have htext : unified? "h" "a\nb" "a\nc\n" false = some ("--- h (on disk)\n+++ h (generated)\n" ++
      "@@ -1,2 +1,2 @@\n a\n-b\n\\ No newline at end of file\n+c\n") := by
    decide +kernel
  obtain ⟨hshown, hclosed⟩ := (colour_shows_the_same hplain.1 hplain.2.1 hplain.2.2).2 _ hcoloured
  exact ⟨hplain, coloured, hcoloured, Option.some.inj (hshown.symm.trans htext), hclosed⟩

end VpdHeaders.Diff
