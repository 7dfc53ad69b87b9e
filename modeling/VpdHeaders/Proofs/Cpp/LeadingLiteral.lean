import VpdHeaders.Proofs.Cpp.Scan

/-! # A literal in front of any text

A literal is read up to its own end and as its source, whatever stands behind it: its marks and
backslashes are escaped, and no escape in it can take up what follows. -/
namespace VpdHeaders.Cpp

def closeLiteral? : Mode → List Char → Option (String × List Char)
  | _, [] => none
  | m, c :: cs =>
    match step m c with
    | ([], next) => closeLiteral? next cs
    | ([.literal value], .between) => some (value, cs)
    | _ => none

/-- The source of the literal that a text begins with, and the text behind that literal. -/
def leadingLiteral? (text : String) : Option (String × String) :=
  match text.toList with
  | '"' :: cs => (closeLiteral? (.literal []) cs).map fun r => (r.1, String.ofList r.2)
  | _ => none

/-- Whether these characters end with a backslash that escapes what comes next. A backslash that is
escaped itself does not. -/
def escapesNext (cs : List Char) : Bool := cs.foldl (fun escaped c => !escaped && c == '\\') false

section Reading

private theorem closeLiteral?_append {m m' : Mode} {cs : List Char} (h : run m cs = ([], m'))
    (rest : List Char) : closeLiteral? m (cs ++ rest) = closeLiteral? m' rest := by
  -- no token is complete, so the characters so far only change the state
  induction cs generalizing m with
  | nil =>
    obtain rfl : m = m' := congrArg Prod.snd h
    rfl
  | cons c cs ih =>
    obtain ⟨htokens, hlast⟩ := Prod.mk.inj h
    obtain ⟨hfirst, hothers⟩ := List.append_eq_nil_iff.mp htokens
    have hstep : step m c = ([], (step m c).2) := Prod.ext hfirst rfl
    rw [List.cons_append, closeLiteral?, hstep]
    exact ih (Prod.ext hothers hlast)

private theorem toList_literal (s rest : String) :
    (literal s ++ rest).toList = '"' :: (s.toList.flatMap escapeChar ++ '"' :: rest.toList) := by
  have hmark : "\"".toList = ['"'] := rfl
  simp [literal, escape, hmark]

private theorem leadingLiteral?_literal (s rest : String) :
    leadingLiteral? (literal s ++ rest) = some (s, rest) := by
  have hclose : closeLiteral? (.literal []) (s.toList.flatMap escapeChar ++ '"' :: rest.toList) =
      some (s, rest.toList) := by
    rw [closeLiteral?_append (run_escape s.toList [])]
    simp [closeLiteral?, step, quoted]
  rw [leadingLiteral?, toList_literal]
  simp [hclose]

end Reading

section Escapes

structure IsOrdinary (c : Char) : Prop where
  control : isControl c = false
  mark : c ≠ '"'
  backslash : c ≠ '\\'

/-- What can be written for one character: itself, or a backslash with what it escapes and perhaps
further digits. -/
inductive IsWritten : List Char → Prop
  | plain {c : Char} (hc : IsOrdinary c) : IsWritten [c]
  | escaped {d : Char} {ds : List Char} (hd : isControl d = false) (hds : ∀ e ∈ ds, IsOrdinary e) :
      IsWritten ('\\' :: d :: ds)

private theorem isOrdinary_octalDigit (n : Nat) : IsOrdinary (octalDigit n) := by
  have h : ∀ k < 8, isControl (Char.ofNat (0x30 + k)) = false ∧
    Char.ofNat (0x30 + k) ≠ '"' ∧ Char.ofNat (0x30 + k) ≠ '\\' := by decide
  obtain ⟨hcontrol, hmark, hbackslash⟩ := h _ (Nat.mod_lt n (by decide))
  exact ⟨hcontrol, hmark, hbackslash⟩

private theorem isWritten_escapeChar (c : Char) : IsWritten (escapeChar c) := by
  have hshort {d : Char} (hd : isControl d = false) : IsWritten ['\\', d] := .escaped hd (by simp)
  rw [escapeChar]
  split_ifs with h1 h2 h3 h4 h5 hc
  · exact hshort (by decide)
  · exact hshort (by decide)
  · exact hshort (by decide)
  · exact hshort (by decide)
  · exact hshort (by decide)
  · exact .escaped (isOrdinary_octalDigit _).control (by simp [isOrdinary_octalDigit])
  · exact .plain ⟨by simpa using hc, h2, h1⟩

variable {cs : List Char}

private theorem IsWritten.isControl_eq_false (h : IsWritten cs) :
    ∀ c ∈ cs, isControl c = false := by
  cases h with
  | plain hc => simpa using hc.control
  | escaped hd hds =>
    have hbackslash : isControl '\\' = false := by decide
    simpa [hbackslash, hd] using fun e he => (hds e he).control

private theorem escapesNext_append (h : escapesNext cs = false) (ds : List Char) :
    escapesNext (cs ++ ds) = escapesNext ds := by
  rw [escapesNext, List.foldl_append]
  exact congrArg (fun escaped => ds.foldl _ escaped) h

private theorem IsWritten.escapesNext_eq_false (h : IsWritten cs) : escapesNext cs = false := by
  have hordinary {ds : List Char} (hds : ∀ e ∈ ds, IsOrdinary e) : escapesNext ds = false := by
    induction ds with
    | nil => rfl
    | cons e ds ih =>
      have he : escapesNext [e] = false := by
        simpa [escapesNext] using (hds e List.mem_cons_self).backslash
      rw [← List.singleton_append, escapesNext_append he]
      exact ih fun d hd => hds d (List.mem_cons_of_mem e hd)
  cases h with
  | plain hc => exact hordinary (by simpa using hc)
  | @escaped d ds hd hds =>
    have hpair : escapesNext ['\\', d] = false := by simp [escapesNext]
    have hall := escapesNext_append hpair ds
    rw [hordinary hds] at hall
    exact hall

private theorem IsWritten.escapesNext_eq_true (h : IsWritten cs) {before after : List Char}
    (hcs : cs = before ++ '"' :: after) : escapesNext before = true := by
  have hordinary {ds : List Char} (hds : ∀ e ∈ ds, IsOrdinary e) : '"' ∉ ds := fun hmem =>
    (hds _ hmem).mark rfl
  cases h with
  | @plain c hc =>
    have hmem : '"' ∈ [c] := by simp [hcs]
    exact absurd hmem (hordinary (by simpa using hc))
  | @escaped d ds hd hds =>
    match before, hcs with
    | [], hcs => simp at hcs
    | [b], hcs =>
      obtain ⟨rfl, -⟩ := List.cons.inj hcs
      rfl
    | b :: b' :: before, hcs =>
      have hmem : '"' ∈ ds := by simp [(List.cons.inj (List.cons.inj hcs).2).2]
      exact absurd hmem (hordinary hds)

private theorem escapesNext_of_mark (s before after : List Char)
    (h : s.flatMap escapeChar = before ++ '"' :: after) : escapesNext before = true := by
  induction s generalizing before with
  | nil => simp at h
  | cons c s ih =>
    have hc := isWritten_escapeChar c
    rw [List.flatMap_cons, List.append_eq_append_iff] at h
    rcases h with ⟨behind, rfl, hrest⟩ | ⟨behind, hchar, hrest⟩
    · rw [escapesNext_append hc.escapesNext_eq_false]
      exact ih behind hrest
    · cases behind with
      | nil =>
        -- the mark would be the first character of what follows, behind no backslash
        have hopen := ih [] (by simpa using hrest.symm)
        simp [escapesNext] at hopen
      | cons d behind =>
        obtain ⟨rfl, -⟩ := List.cons.inj hrest
        exact hc.escapesNext_eq_true hchar

theorem isControl_of_mem_escape {s : String} {c : Char} (h : c ∈ (escape s).toList) :
    isControl c = false := by
  rw [escape, String.toList_ofList] at h
  obtain ⟨d, -, hc⟩ := List.mem_flatMap.mp h
  exact (isWritten_escapeChar d).isControl_eq_false c hc

end Escapes

/-- Whatever stands behind a literal, the literal is read up to its own end and as its source. Between
its marks there are no control characters, and no mark that a backslash does not escape. No two texts
are written in the same way. -/
theorem literal_is_read_before_any_text (s : String) :
    (∀ rest, leadingLiteral? (literal s ++ rest) = some (s, rest)) ∧
      (∀ c ∈ (escape s).toList, isControl c = false) ∧
      (∀ before after, (escape s).toList = before ++ '"' :: after → escapesNext before = true) ∧
      ∀ s', escape s = escape s' → s = s' := by
  refine ⟨leadingLiteral?_literal s, fun _ => isControl_of_mem_escape, ?_, ?_⟩
  · intro before after h
    rw [escape, String.toList_ofList] at h
    exact escapesNext_of_mark s.toList before after h
  · intro s' h
    have hread := leadingLiteral?_literal s ""
    rw [literal, h, ← literal, leadingLiteral?_literal s' ""] at hread
    exact (Prod.mk.inj (Option.some.inj hread)).1.symm

/-- A backslash, a mark and a control in front of a digit. -/
theorem marked_literal_is_read_before_digit :
    leadingLiteral? (literal "\\\"\x07" ++ "1\"") = some ("\\\"\x07", "1\"") ∧
      (escape "\\\"\x07").toList = ['\\', '\\', '\\'] ++ '"' :: ['\\', '0', '0', '7'] ∧
      escapesNext ['\\', '\\', '\\'] = true := by
  obtain ⟨hread, -, hmarks, -⟩ := literal_is_read_before_any_text "\\\"\x07"
  have hescape : (escape "\\\"\x07").toList =
      ['\\', '\\', '\\'] ++ '"' :: ['\\', '0', '0', '7'] := by decide
  exact ⟨hread "1\"", hescape, hmarks _ _ hescape⟩

example : leadingLiteral? "\"\\71\"" = some ("9", "") := by decide

end VpdHeaders.Cpp
