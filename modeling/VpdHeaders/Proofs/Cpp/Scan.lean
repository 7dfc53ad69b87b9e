import Mathlib.Data.List.Basic
import VpdHeaders.Cpp.Literal
import VpdHeaders.Proofs.Identifier.Usable
import VpdHeaders.Text.Lines

/-! # Scanning C++ text

Blanks and comments separate words, string literals and symbols. A literal is decoded while it is
read: an octal escape takes up to three digits, as many as there are. -/
namespace VpdHeaders.Cpp

inductive Token
  | word (text : String)
  | literal (value : String)
  | symbol (c : Char)
  deriving DecidableEq, Repr

/-- Where a scanner stands, and what it has read of the token it is in. Nothing leads out of broken
text. -/
inductive Mode
  | between
  | word (read : List Char)
  | slash
  | lineComment
  | blockComment (star : Bool)
  | literal (read : List Char)
  | escape (read : List Char)
  | octal (read : List Char) (digits value : Nat)
  | broken
  deriving DecidableEq, Repr

def isSpace (c : Char) : Bool :=
  c == ' ' || c == '\n' || c == '\r' || c == '\t' || c == '\x0b' || c == '\x0c'

/-- What an escape of one character stands for. -/
def simpleEscape? : Char → Option Char
  | '\\' => some '\\'
  | '"' => some '"'
  | '\'' => some '\''
  | '?' => some '?'
  | 'a' => some '\x07'
  | 'b' => some '\x08'
  | 'f' => some '\x0c'
  | 'n' => some '\n'
  | 'r' => some '\r'
  | 't' => some '\t'
  | 'v' => some '\x0b'
  | _ => none

def octalValue? (c : Char) : Option Nat :=
  if '0' ≤ c ∧ c ≤ '7' then some (c.toNat - 0x30) else none

def start (c : Char) : List Token × Mode :=
  if Identifier.isPart c then ([], .word [c])
  else if c = '"' then ([], .literal [])
  else if c = '/' then ([], .slash)
  else if isSpace c then ([], .between)
  else if c = '\'' ∨ c = '\\' then ([], .broken)
  else ([.symbol c], .between)

/-- A character inside a literal that belongs to no escape. -/
def quoted (read : List Char) (c : Char) : List Token × Mode :=
  if c = '"' then ([.literal (String.ofList read)], .between)
  else if c = '\\' then ([], .escape read)
  else if c = '\n' ∨ c = '\r' then ([], .broken)
  else ([], .literal (read ++ [c]))

def closeOctal (read : List Char) (value : Nat) : Mode :=
  if value < 0x80 then .literal (read ++ [Char.ofNat value]) else .broken

def step : Mode → Char → List Token × Mode
  | .between, c => start c
  | .word read, c =>
    if Identifier.isPart c then ([], .word (read ++ [c]))
    -- a word in front of a quotation mark would be an encoding prefix
    else if c = '"' ∨ c = '\'' then ([], .broken)
    else (.word (String.ofList read) :: (start c).1, (start c).2)
  | .slash, c =>
    if c = '/' then ([], .lineComment)
    else if c = '*' then ([], .blockComment false)
    else (.symbol '/' :: (start c).1, (start c).2)
  | .lineComment, c =>
    if c = '\n' then ([], .between)
    else if c = '\\' then ([], .broken)
    else ([], .lineComment)
  | .blockComment star, c =>
    if star ∧ c = '/' then ([], .between) else ([], .blockComment (c == '*'))
  | .literal read, c => quoted read c
  | .escape read, c =>
    match simpleEscape? c, octalValue? c with
    | some d, _ => ([], .literal (read ++ [d]))
    | none, some v => ([], .octal read 1 v)
    | none, none => ([], .broken)
  | .octal read digits value, c =>
    match octalValue? c with
    | some v =>
      if digits = 2 then ([], closeOctal read (8 * value + v))
      else ([], .octal read (digits + 1) (8 * value + v))
    | none => quoted (read ++ [Char.ofNat value]) c
  | .broken, _ => ([], .broken)

def run : Mode → List Char → List Token × Mode
  | m, [] => ([], m)
  | m, c :: cs =>
    let (first, next) := step m c
    let (others, last) := run next cs
    (first ++ others, last)

def scan (s : String) : List Token × Mode := run .between s.toList

def tokens (s : String) : List Token := (scan s).1

theorem run_append (m : Mode) (cs ds : List Char) :
    run m (cs ++ ds) = ((run m cs).1 ++ (run (run m cs).2 ds).1, (run (run m cs).2 ds).2) := by
  induction cs generalizing m with
  | nil => rfl
  | cons c cs ih => simp [run, ih]

/-- The text consists of these tokens, and the next one may begin right behind it. -/
def Reads (s : String) (ts : List Token) : Prop := scan s = (ts, .between)

variable {s s' : String} {ts us : List Token}

theorem Reads.tokens_eq (h : Reads s ts) : tokens s = ts := congrArg Prod.fst h

theorem reads_empty : Reads "" [] := rfl

theorem Reads.append (h : Reads s ts) (h' : Reads s' us) : Reads (s ++ s') (ts ++ us) := by
  simp only [Reads, scan] at h h' ⊢
  rw [String.toList_append, run_append, h, h']

section Fixed

/-! A fixed text is given by its characters, so that nothing has to be decoded to scan it. -/

theorem scan_ofList (cs : List Char) : scan (String.ofList cs) = run .between cs := by
  rw [scan, String.toList_ofList]

theorem reads_ofList {cs : List Char} (h : run .between cs = (ts, .between)) :
    Reads (String.ofList cs) ts := (scan_ofList cs).trans h

theorem tokens_ofList {cs : List Char} (h : (run .between cs).1 = ts) :
    tokens (String.ofList cs) = ts := by rw [tokens, scan_ofList, h]

/-- A fixed text is whole if the scanner ends between two tokens; its first token is found there too. -/
theorem reads_of_toList {cs : List Char} {t : Token} (hs : s.toList = cs)
    (h : (run .between cs).2 = .between ∧ (run .between cs).1.head? = some t) :
    Reads s (tokens s) ∧ (tokens s).head? = some t := by
  subst hs
  exact ⟨Prod.ext rfl h.1, h.2⟩

end Fixed

section Words

private theorem run_parts {cs : List Char} (h : ∀ c ∈ cs, Identifier.isPart c = true)
    (read : List Char) : run (.word read) cs = ([], .word (read ++ cs)) := by
  induction cs generalizing read with
  | nil => simp [run]
  | cons c cs ih =>
    have hc := h c List.mem_cons_self
    have hcs := ih (fun d hd => h d (List.mem_cons_of_mem c hd)) (read ++ [c])
    simp [run, step, hc, hcs]

def isStop (c : Char) : Bool := !Identifier.isPart c && c != '"' && c != '\''

def StopsWord (s : String) : Prop := ∃ c cs, s.toList = c :: cs ∧ isStop c = true

theorem stopsWord_ofList {c : Char} {cs : List Char} (h : isStop c = true) :
    StopsWord (String.ofList (c :: cs)) := ⟨c, cs, String.toList_ofList, h⟩

theorem StopsWord.append (h : StopsWord s) (s' : String) : StopsWord (s ++ s') := by
  obtain ⟨c, cs, hs, hc⟩ := h
  exact ⟨c, cs ++ s'.toList, by rw [String.toList_append, hs, List.cons_append], hc⟩

private theorem run_word_stop {cs : List Char} {c : Char} (h : isStop c = true)
    (read : List Char) :
    run (.word read) (c :: cs) =
      (.word (String.ofList read) :: (run .between (c :: cs)).1, (run .between (c :: cs)).2) := by
  simp only [isStop, Bool.and_eq_true, Bool.not_eq_true', bne_iff_ne, ne_eq] at h
  simp [run, step, h]

theorem isPart_of_isValid {x : String} (h : Identifier.isValid x = true) :
    x.toList ≠ [] ∧ ∀ c ∈ x.toList, Identifier.isPart c = true := by
  obtain ⟨⟨c, hc, -⟩, hparts⟩ := Identifier.isValid_iff.mp h
  exact ⟨List.ne_nil_of_mem (List.mem_of_mem_head? hc), hparts⟩

/-- A word in front of a text that ends it. It may be a name or a number. -/
theorem Reads.word {x : String} (h : Reads s ts) (hn : x.toList ≠ [])
    (hp : ∀ c ∈ x.toList, Identifier.isPart c = true) (hs : StopsWord s) :
    Reads (x ++ s) (.word x :: ts) := by
  obtain ⟨d, ds, hs, hd⟩ := hs
  obtain ⟨c, cs, hcs⟩ := List.exists_cons_of_ne_nil hn
  rw [hcs] at hp
  have hx : String.ofList (c :: cs) = x := by rw [← hcs, String.ofList_toList]
  have hw : run .between x.toList = ([], .word (c :: cs)) := by
    have hc := hp c List.mem_cons_self
    simp [hcs, run, step, start, hc, run_parts fun d hd => hp d (List.mem_cons_of_mem c hd)]
  simp only [Reads, scan] at h ⊢
  rw [hs] at h
  rw [String.toList_append, run_append, hw, hs, run_word_stop hd, h, hx]
  rfl

/-- A name between two texts. -/
theorem Reads.name {x : String} (h : Reads s ts) (hx : Identifier.isValid x = true)
    (h' : Reads s' us) (hs : StopsWord s') : Reads (s ++ x ++ s') (ts ++ .word x :: us) := by
  rw [String.append_assoc]
  exact h.append (h'.word (isPart_of_isValid hx).1 (isPart_of_isValid hx).2 hs)

end Words

section Literals

private theorem octalValue?_octalDigit (n : Nat) : octalValue? (octalDigit n) = some (n % 8) := by
  have h : ∀ k < 8, octalValue? (Char.ofNat (0x30 + k)) = some k := by decide
  exact h _ (Nat.mod_lt n (by decide))

private theorem simpleEscape?_octalDigit (n : Nat) : simpleEscape? (octalDigit n) = none := by
  have h : ∀ k < 8, simpleEscape? (Char.ofNat (0x30 + k)) = none := by decide
  exact h _ (Nat.mod_lt n (by decide))

private theorem toNat_lt_of_isControl {c : Char} (h : isControl c = true) : c.toNat < 0x80 := by
  simp [isControl] at h
  omega

private theorem run_control {c : Char} (h : isControl c = true) (read : List Char) :
    run (.literal read)
        ['\\', octalDigit (c.toNat / 64), octalDigit (c.toNat / 8), octalDigit c.toNat] =
      ([], .literal (read ++ [c])) := by
  have hc := toNat_lt_of_isControl h
  have hv : 8 * (8 * (c.toNat / 64 % 8) + c.toNat / 8 % 8) + c.toNat % 8 = c.toNat := by omega
  simp [run, step, quoted, octalValue?_octalDigit, simpleEscape?_octalDigit, closeOctal, hv, hc]

private theorem run_escapeChar (c : Char) (read : List Char) :
    run (.literal read) (escapeChar c) = ([], .literal (read ++ [c])) := by
  by_cases h1 : c = '\\'
  · subst h1; rfl
  by_cases h2 : c = '"'
  · subst h2; rfl
  by_cases h3 : c = '\n'
  · subst h3; rfl
  by_cases h4 : c = '\r'
  · subst h4; rfl
  by_cases h5 : c = '\t'
  · subst h5; rfl
  cases hc : isControl c with
  | true => simpa [escapeChar, h1, h2, h3, h4, h5, hc] using run_control hc read
  | false => simp [escapeChar, h1, h2, h3, h4, h5, hc, run, step, quoted]

/-- What stands between the marks of a literal is read as its source. -/
theorem run_escape (cs read : List Char) :
    run (.literal read) (cs.flatMap escapeChar) = ([], .literal (read ++ cs)) := by
  induction cs generalizing read with
  | nil => simp [run]
  | cons c cs ih => simp [run_append, run_escapeChar, ih]

/-- A literal is read as its source, and ends where its source ends. -/
theorem reads_literal (s : String) : Reads (literal s) [.literal s] := by
  have hq : "\"".toList = ['"'] := rfl
  simp only [Reads, scan, literal, escape, String.toList_append, String.toList_ofList, run_append, hq]
  have hb : run .between ['"'] = ([], .literal []) := rfl
  rw [hb, run_escape]
  simp [run, step, quoted]

end Literals

private theorem run_comment {cs : List Char} (h : ∀ c ∈ cs, c ≠ '\n' ∧ c ≠ '\\') :
    run .lineComment cs = ([], .lineComment) := by
  induction cs with
  | nil => rfl
  | cons c cs ih =>
    obtain ⟨hn, hb⟩ := h c List.mem_cons_self
    simp [run, step, hn, hb, ih fun d hd => h d (List.mem_cons_of_mem c hd)]

/-- A name at the end of a comment. -/
theorem reads_comment {x : String} (hx : Identifier.isValid x = true)
    (hs : scan s = (ts, .lineComment)) : Reads (s ++ x ++ "\n") ts := by
  have hc (c : Char) (h : c ∈ x.toList) : c ≠ '\n' ∧ c ≠ '\\' := by
    have hp := (isPart_of_isValid hx).2 c h
    constructor <;> rintro rfl <;> exact absurd hp (by decide)
  have hn : "\n".toList = ['\n'] := rfl
  simp only [Reads, scan] at hs ⊢
  simp only [String.toList_append, run_append, hs, run_comment hc, hn]
  simp [run, step]

end VpdHeaders.Cpp
