import VpdHeaders.Proofs.Cpp.Frame

/-! # Closed text

Text is closed if a scanner that starts at its beginning is outside of every comment and literal at
its end, and if all brackets on the way match. Closed texts can be put one after the other, or into
brackets, and a scope opens and closes around them. -/
namespace VpdHeaders.Cpp

def Mode.isInLiteral : Mode → Bool
  | .literal _ | .escape _ | .octal .. => true
  | _ => false

private theorem run_broken (cs : List Char) : (run .broken cs).2 = .broken := by
  induction cs with
  | nil => rfl
  | cons c cs ih => simp [run, step, ih]

private theorem step_lineEnd {m : Mode} (hm : m.isInLiteral = true) {c : Char}
    (hc : c = '\n' ∨ c = '\r') : (step m c).2 = .broken := by
  cases m with
  | literal read => rcases hc with rfl | rfl <;> rfl
  | escape read => rcases hc with rfl | rfl <;> rfl
  | octal read digits value => rcases hc with rfl | rfl <;> rfl
  | _ => cases hm

/-- The end of a line inside a literal breaks the text for good. -/
theorem not_lineEnd_of_isInLiteral {m : Mode} {before after : List Char} {c : Char}
    (h : (run m (before ++ c :: after)).2 ≠ .broken)
    (hin : (run m before).2.isInLiteral = true) : c ≠ '\n' ∧ c ≠ '\r' := by
  rw [← not_or]
  intro hc
  apply h
  simp only [run_append, run, step_lineEnd hin hc, run_broken]

def closer? : Char → Option Char
  | '(' => some ')'
  | '[' => some ']'
  | '\x7b' => some '\x7d'
  | _ => none

def isCloser (c : Char) : Bool := c == ')' || c == ']' || c == '\x7d'

def await : Token → List Char → Option (List Char)
  | .symbol c, awaited =>
    match closer? c with
    | some d => some (d :: awaited)
    | none =>
      if isCloser c then if awaited.head? = some c then some awaited.tail else none
      else some awaited
  | _, awaited => some awaited

def awaitAll : List Token → List Char → Option (List Char)
  | [], awaited => some awaited
  | t :: ts, awaited => (await t awaited).bind (awaitAll ts)

/-- Every bracket is closed by one of its kind, and not before those inside are. -/
def IsBalanced (ts : List Token) : Prop := awaitAll ts [] = some []

instance (ts : List Token) : Decidable (IsBalanced ts) := inferInstanceAs (Decidable (_ = _))

section Balanced

variable {ts us : List Token} {awaited left : List Char}

theorem awaitAll_append (ts us : List Token) (awaited : List Char) :
    awaitAll (ts ++ us) awaited = (awaitAll ts awaited).bind (awaitAll us) := by
  induction ts generalizing awaited with
  | nil => rfl
  | cons t ts ih =>
    rw [List.cons_append, awaitAll, awaitAll, Option.bind_assoc]
    exact congrArg _ (funext ih)

private theorem await_more {t : Token} (h : await t awaited = some left) (outer : List Char) :
    await t (awaited ++ outer) = some (left ++ outer) := by
  cases t with
  | symbol c =>
    rw [await] at h ⊢
    cases hc : closer? c with
    | some d => simpa [hc] using congrArg (Option.map (· ++ outer)) h
    | none =>
      cases hcloser : isCloser c with
      | false => simpa [hc, hcloser] using congrArg (Option.map (· ++ outer)) h
      | true =>
        cases awaited with
        | nil => simp [hc, hcloser] at h
        | cons d rest =>
          obtain ⟨hd, rfl⟩ : d = c ∧ rest = left := by simpa [hc, hcloser] using h
          simp [hd]
  | _ => simpa [await] using congrArg (Option.map (· ++ outer)) h

private theorem awaitAll_more (h : awaitAll ts awaited = some left) (outer : List Char) :
    awaitAll ts (awaited ++ outer) = some (left ++ outer) := by
  induction ts generalizing awaited with
  | nil =>
    obtain rfl := Option.some.inj h
    rfl
  | cons t ts ih =>
    obtain ⟨next, hnext, h⟩ := Option.bind_eq_some_iff.mp h
    rw [awaitAll, await_more hnext outer]
    exact ih h

/-- Nothing that is awaited around balanced tokens is touched by them. -/
theorem IsBalanced.awaitAll_eq (h : IsBalanced ts) (outer : List Char) :
    awaitAll ts outer = some outer := awaitAll_more h outer

theorem isBalanced_nil : IsBalanced [] := rfl

theorem IsBalanced.append (h : IsBalanced ts) (h' : IsBalanced us) : IsBalanced (ts ++ us) := by
  rw [IsBalanced, awaitAll_append, h, Option.bind_some, h']

theorem isBalanced_flatMap {α : Type} {l : List α} {f : α → List Token}
    (h : ∀ a ∈ l, IsBalanced (f a)) : IsBalanced (l.flatMap f) := by
  induction l with
  | nil => exact isBalanced_nil
  | cons a l ih =>
    exact (h a List.mem_cons_self).append (ih fun b hb => h b (List.mem_cons_of_mem a hb))

/-- Balanced tokens between two brackets of a kind. -/
theorem IsBalanced.enclosed {c d : Char} (h : IsBalanced ts) (hopen : closer? c = some d)
    (hclose : closer? d = none ∧ isCloser d = true) :
    IsBalanced (.symbol c :: ts ++ [.symbol d]) := by
  have hc : await (.symbol c) [] = some [d] := by simp [await, hopen]
  have hd : awaitAll [.symbol d] [d] = some [] := by simp [awaitAll, await, hclose]
  rw [IsBalanced, List.cons_append, awaitAll, hc, Option.bind_some, awaitAll_append, h.awaitAll_eq,
    Option.bind_some, hd]

theorem IsBalanced.braces (h : IsBalanced ts) :
    IsBalanced (.symbol '\x7b' :: ts ++ [.symbol '\x7d']) := h.enclosed rfl ⟨rfl, rfl⟩

end Balanced

/-- The scanner ends outside of comments and literals, no literal goes over the end of a line, and the
brackets outside of comments and literals are nested and all closed. -/
structure IsClosed (s : String) : Prop where
  outside : (scan s).2 = .between
  oneLine : ∀ before c after, s.toList = before ++ c :: after →
    (run .between before).2.isInLiteral = true → c ≠ '\n' ∧ c ≠ '\r'
  brackets : IsBalanced (tokens s)

variable {s s' : String} {ts : List Token}

theorem Reads.isClosed (h : Reads s ts) (hb : IsBalanced ts) : IsClosed s where
  outside := congrArg Prod.snd h
  oneLine := by
    intro before c after hs
    have hend : (run .between s.toList).2 = .between := congrArg Prod.snd h
    have hwhole : (run .between (before ++ c :: after)).2 ≠ .broken := by
      rw [← hs, hend]
      simp
    exact not_lineEnd_of_isInLiteral hwhole
  brackets := by rwa [h.tokens_eq]

theorem IsClosed.reads (h : IsClosed s) : Reads s (tokens s) := Prod.ext rfl h.outside

theorem IsClosed.append (h : IsClosed s) (h' : IsClosed s') : IsClosed (s ++ s') :=
  (h.reads.append h'.reads).isClosed (h.brackets.append h'.brackets)

/-- A fixed text, given by its characters. -/
theorem isClosed_of_toList {cs : List Char} (hs : s.toList = cs)
    (h : (run .between cs).2 = .between ∧ IsBalanced (run .between cs).1 ∧
      Token.word "namespace" ∉ (run .between cs).1) :
    IsClosed s ∧ Token.word "namespace" ∉ tokens s := by
  subst hs
  exact ⟨Reads.isClosed (Prod.ext rfl h.1) h.2.1, h.2.2⟩

theorem isClosed_preamble (ownIncludes systemIncludes : List String)
    (hown : ∀ file ∈ ownIncludes, escape file = file)
    (hsystem : ∀ file ∈ systemIncludes, Identifier.isValid file = true)
    (hfree : "namespace" ∉ systemIncludes) :
    IsClosed (Text.unlines (preamble ownIncludes systemIncludes)) ∧
      Token.word "namespace" ∉ tokens (Text.unlines (preamble ownIncludes systemIncludes)) := by
  have hread := reads_preamble hown hsystem
  have hpragma : IsBalanced [.symbol '#', .word "pragma", .word "once"] := rfl
  have howns : IsBalanced
      (ownIncludes.flatMap fun file => [.symbol '#', .word "include", .literal file]) :=
    isBalanced_flatMap fun file _ => rfl
  have hsystems : IsBalanced (systemIncludes.flatMap fun file =>
      [.symbol '#', .word "include", .symbol '<', .word file, .symbol '>']) :=
    isBalanced_flatMap fun file _ => rfl
  refine ⟨hread.isClosed ((hpragma.append howns).append hsystems), ?_⟩
  rw [hread.tokens_eq]
  simpa [preambleTokens] using hfree

def inNamespace (segment inner : String) : String :=
  "namespace " ++ segment ++ "\n\x7b\n" ++ inner ++ "\x7d // namespace " ++ segment ++ "\n"

/-- Closed text with namespaces around it, the first one outermost. Each is closed behind those inside
it, by a brace that names it. -/
inductive Encloses : List String → String → Prop
  | inside {inner : String} (closed : IsClosed inner) (last : Token.word "namespace" ∉ tokens inner) :
    Encloses [] inner
  | segment {inner : String} (segment : String) {scope : List String} (closed : IsClosed inner)
      (nested : Encloses scope inner) : Encloses (segment :: scope) (inNamespace segment inner)

/-- Apart from what stands above them, the namespaces of a scope are around the whole text, and it has
no other ones. -/
def IsScoped (scope : List String) (text : String) : Prop :=
  ∃ above below, text = above ++ below ∧ IsClosed above ∧ Token.word "namespace" ∉ tokens above ∧
    Encloses scope below

private theorem unlines_inNamespace (segment : String) (inner : List String) :
    Text.unlines (["namespace " ++ segment, "\x7b"] ++ inner ++ ["\x7d // namespace " ++ segment]) =
      inNamespace segment (Text.unlines inner) := by
  have hopen : "\n\x7b\n" = "\n" ++ ("\x7b" ++ "\n") := rfl
  delta inNamespace
  rw [unlines_append, unlines_append, unlines_cons, unlines_cons, unlines_cons, hopen]
  simp only [Text.unlines, List.map_nil, String.join_nil, String.append_assoc, String.append_empty]

private theorem isClosed_inNamespace {segment : String} {inner : List String}
    (hs : Identifier.isValid segment = true) (h : IsClosed (Text.unlines inner)) :
    IsClosed (inNamespace segment (Text.unlines inner)) := by
  have hvalid : ∀ x ∈ [segment], Identifier.isValid x = true := by simpa using hs
  have hall := ((reads_openScope hvalid).lines h.reads).lines (reads_closeScope hvalid)
  have hname : IsBalanced [.word "namespace", .word segment] := rfl
  rw [← unlines_inNamespace]
  refine hall.isClosed ?_
  simpa using hname.append h.brackets.braces

/-- The lines that open a scope and those that close it stand around closed text. -/
theorem encloses_scope {scope inner : List String}
    (hs : ∀ segment ∈ scope, Identifier.isValid segment = true)
    (h : IsClosed (Text.unlines inner)) (hlast : Token.word "namespace" ∉ tokens (Text.unlines inner)) :
    Encloses scope (Text.unlines (openScope scope ++ inner ++ closeScope scope)) ∧
      IsClosed (Text.unlines (openScope scope ++ inner ++ closeScope scope)) := by
  induction scope with
  | nil => simpa [openScope, closeScope] using And.intro (Encloses.inside h hlast) h
  | cons segment scope ih =>
    obtain ⟨hinner, hclosed⟩ := ih fun x hx => hs x (List.mem_cons_of_mem segment hx)
    have hlines : openScope (segment :: scope) ++ inner ++ closeScope (segment :: scope) =
        ["namespace " ++ segment, "\x7b"] ++ (openScope scope ++ inner ++ closeScope scope) ++
          ["\x7d // namespace " ++ segment] := by simp [openScope, closeScope]
    rw [hlines, unlines_inNamespace]
    exact ⟨.segment segment hclosed hinner, isClosed_inNamespace (hs segment List.mem_cons_self) hclosed⟩

end VpdHeaders.Cpp
