import VpdHeaders.Cpp.Source
import VpdHeaders.Proofs.Cpp.Scan

/-! # How the frame of a header is read: lines, includes and namespaces -/
namespace VpdHeaders.Cpp

variable {ts us : List Token}

theorem unlines_append (a b : List String) :
    Text.unlines (a ++ b) = Text.unlines a ++ Text.unlines b := by
  simp [Text.unlines, String.join_append]

theorem unlines_cons (l : String) (ls : List String) :
    Text.unlines (l :: ls) = l ++ "\n" ++ Text.unlines ls := by
  simp [Text.unlines]

theorem Reads.line {l : String} {ls : List String} (h : Reads (l ++ "\n") ts)
    (hs : Reads (Text.unlines ls) us) : Reads (Text.unlines (l :: ls)) (ts ++ us) := by
  rw [unlines_cons]
  exact h.append hs

theorem Reads.lines {a b : List String} (ha : Reads (Text.unlines a) ts)
    (hb : Reads (Text.unlines b) us) : Reads (Text.unlines (a ++ b)) (ts ++ us) := by
  rw [unlines_append]
  exact ha.append hb

theorem reads_flatMap {α : Type} {l : List α} {f : α → List String} {g : α → List Token}
    (h : ∀ a ∈ l, Reads (Text.unlines (f a)) (g a)) :
    Reads (Text.unlines (l.flatMap f)) (l.flatMap g) := by
  induction l with
  | nil => exact reads_empty
  | cons a l ih =>
    exact (h a List.mem_cons_self).lines (ih fun b hb => h b (List.mem_cons_of_mem a hb))

theorem reads_noLines : Reads (Text.unlines []) [] := reads_empty

/-- One line for each entry. -/
theorem reads_map {α : Type} {l : List α} {f : α → String} {g : α → List Token}
    (h : ∀ a ∈ l, Reads (f a ++ "\n") (g a)) : Reads (Text.unlines (l.map f)) (l.flatMap g) := by
  rw [List.map_eq_flatMap]
  exact reads_flatMap fun a ha => List.append_nil (g a) ▸ (h a ha).line reads_noLines

theorem reads_newline : Reads "\n" [] := reads_ofList rfl

theorem reads_line {cs : List Char} (h : run .between (cs ++ ['\n']) = (ts, .between)) :
    Reads (String.ofList cs ++ "\n") ts := by
  have hn : "\n".toList = ['\n'] := rfl
  rw [Reads, scan, String.toList_append, String.toList_ofList, hn, h]

theorem reads_blankLine : Reads (Text.unlines [""]) [] :=
  (reads_line rfl : Reads ("" ++ "\n") []).line reads_noLines

theorem reads_indent (n : Nat) : Reads (String.ofList (List.replicate n ' ')) [] := by
  refine reads_ofList ?_
  induction n with
  | zero => rfl
  | succ n ih =>
    have hblank : start ' ' = ([], .between) := by decide
    simp [List.replicate_succ, run, step, hblank, ih]

/-- The characters of fixed lines, one line at a time. -/
theorem toList_unlines_cons {cs rest : List Char} {ls : List String}
    (h : (Text.unlines ls).toList = rest) :
    (Text.unlines (String.ofList cs :: ls)).toList = cs ++ '\n' :: rest := by
  rw [unlines_cons, String.toList_append, String.toList_append, String.toList_ofList, h]
  simp

def preambleTokens (ownIncludes systemIncludes : List String) : List Token :=
  [.symbol '#', .word "pragma", .word "once"] ++
    ownIncludes.flatMap (fun file => [.symbol '#', .word "include", .literal file]) ++
    systemIncludes.flatMap fun file =>
      [.symbol '#', .word "include", .symbol '<', .word file, .symbol '>']

private theorem reads_ownInclude {file : String} (h : escape file = file) :
    Reads ("#include \"" ++ file ++ "\"" ++ "\n") [.symbol '#', .word "include", .literal file] := by
  have hline : "#include \"" ++ file ++ "\"" ++ "\n" = "#include " ++ (literal file ++ "\n") := by
    rw [literal, h]
    simp only [← String.append_assoc]
    rfl
  have hinclude : Reads "#include " [.symbol '#', .word "include"] := reads_ofList rfl
  rw [hline]
  exact hinclude.append ((reads_literal file).append reads_newline)

private theorem reads_systemInclude {file : String} (h : Identifier.isValid file = true) :
    Reads ("#include <" ++ file ++ ">" ++ "\n")
      [.symbol '#', .word "include", .symbol '<', .word file, .symbol '>'] := by
  have hopen : Reads "#include <" [.symbol '#', .word "include", .symbol '<'] := reads_ofList rfl
  have hclose : Reads ">" [.symbol '>'] := reads_ofList rfl
  exact (hopen.name h hclose (stopsWord_ofList rfl)).append reads_newline

theorem reads_preamble {ownIncludes systemIncludes : List String}
    (hown : ∀ file ∈ ownIncludes, escape file = file)
    (hsystem : ∀ file ∈ systemIncludes, Identifier.isValid file = true) :
    Reads (Text.unlines (preamble ownIncludes systemIncludes))
      (preambleTokens ownIncludes systemIncludes) := by
  have htop : Reads (Text.unlines [banner, "", "#pragma once", ""])
      [.symbol '#', .word "pragma", .word "once"] :=
    (reads_line rfl : Reads (banner ++ "\n") []).line <|
      (reads_line rfl : Reads ("" ++ "\n") []).line <|
        (reads_line rfl : Reads ("#pragma once" ++ "\n") _).line reads_blankLine
  have howns := reads_map fun file hfile => reads_ownInclude (hown file hfile)
  have hsystems := reads_map fun file hfile => reads_systemInclude (hsystem file hfile)
  have h := (((htop.lines howns).lines reads_blankLine).lines hsystems).lines reads_blankLine
  simpa [preamble, preambleTokens] using h

theorem reads_openScope {scope : List String}
    (h : ∀ segment ∈ scope, Identifier.isValid segment = true) :
    Reads (Text.unlines (openScope scope))
      (scope.flatMap fun segment => [.word "namespace", .word segment, .symbol '\x7b']) := by
  refine reads_flatMap fun segment hs => ?_
  have hname : Reads ("namespace " ++ segment ++ "\n") [.word "namespace", .word segment] := by
    have hkeyword : Reads "namespace " [.word "namespace"] := reads_ofList rfl
    exact hkeyword.name (h segment hs) reads_newline (stopsWord_ofList rfl)
  have hopen : Reads ("\x7b" ++ "\n") [.symbol '\x7b'] := reads_line rfl
  exact hname.line (hopen.line reads_noLines)

theorem reads_closeScope {scope : List String}
    (h : ∀ segment ∈ scope, Identifier.isValid segment = true) :
    Reads (Text.unlines (closeScope scope)) (List.replicate scope.length (.symbol '\x7d')) := by
  have hline (segment : String) (hs : segment ∈ scope.reverse) :
      Reads ("\x7d // namespace " ++ segment ++ "\n") [.symbol '\x7d'] := by
    have hcomment : scan "\x7d // namespace " = ([.symbol '\x7d'], .lineComment) := scan_ofList _
    exact reads_comment (h segment (List.mem_reverse.mp hs)) hcomment
  have hread := reads_map hline
  rw [← List.map_eq_flatMap] at hread
  simpa [closeScope] using hread

end VpdHeaders.Cpp
