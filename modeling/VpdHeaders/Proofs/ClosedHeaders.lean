import VpdHeaders.Proofs.Cpp.Closed
import VpdHeaders.Proofs.Fru.Meaning
import VpdHeaders.Proofs.Inventory.HeaderReading

/-! # Generated headers are closed

Whatever the names hold, both headers end outside of comments and literals with all brackets matched,
and have just the namespaces of their scope around them. -/
namespace VpdHeaders
open Cpp

namespace Statement

def names : Statement → List String
  | .declare container => [container]
  | .assign container _ value => [container, value.record, value.keyword]
  | .emplace _ container => [container]

private theorem isBalanced_spelling (s : Statement) : IsBalanced s.spelling := by
  cases s <;> rfl

private theorem namespace_not_mem_spelling {s : Statement}
    (h : ∀ name ∈ s.names, Identifier.reservation? name = none) :
    Token.word "namespace" ∉ s.spelling := by
  have hname {name : String} (hname : Identifier.reservation? name = none) : "namespace" ≠ name := by
    rintro rfl
    exact absurd hname (by decide)
  cases s with
  | declare container => simpa [spelling] using hname (h container (by simp [names]))
  | assign container key value =>
    have hcontainer := hname (h container (by simp [names]))
    have hrecord := hname (h value.record (by simp [names]))
    have hkeyword := hname (h value.keyword (by simp [names]))
    simp [spelling, Reference.spelling, hcontainer, hrecord, hkeyword]
  | emplace key container => simpa [spelling] using hname (h container (by simp [names]))

end Statement

namespace Fru
open Description

structure IsFree (f : Fru) : Prop where
  unit : Identifier.reservation? f.name = none
  body : ∀ s ∈ f.body, ∀ name ∈ s.names, Identifier.reservation? name = none

variable {policy : EmptyPolicy} {frus : List Fru} {f : Fru}

private theorem isFree_of_isUnit {u : String × Tree} (hg : IsGoodUnit policy u)
    (hf : IsUnit policy u f) : f.IsFree where
  unit := by
    rw [hf.name]
    exact hg.free
  body := by
    have hidentifier (i : Interface) (hi : i ∈ f.interfaces) :
        Identifier.reservation? i.identifier = none := by
      obtain ⟨e, he, hname⟩ := hf.exists_identifier hi
      rw [hname]
      simpa using (Bool.or_eq_false_iff.mp (hg.interfaces e he).free).1
    refine forall_mem_body (fun i hi => ?_) (fun i hi b hb => ?_) fun i hi => ?_
    · simpa [Statement.names] using hidentifier i hi
    · obtain ⟨raw, hr⟩ := hf.exists_parse hi hb
      obtain ⟨hrecord, hkeyword⟩ := Reference.tokenFault?_of_parse hr
      have hrecord' := (Reference.tokenFault?_eq_none_iff.mp hrecord).2
      have hkeyword' := (Reference.tokenFault?_eq_none_iff.mp hkeyword).2
      simpa [Statement.names] using ⟨hidentifier i hi, hrecord', hkeyword'⟩
    · simpa [Statement.names] using hidentifier i hi

theorem isFree_of_listOfTree {t : Tree} (h : (listOfTree policy t).result = .ok frus) :
    ∀ f ∈ frus, f.IsFree := by
  obtain ⟨-, hgood, hunits⟩ := listOfTree_eq_ok_iff.mp h
  intro f hf
  obtain ⟨u, hu, hf⟩ := Pointwise.exists_left hunits hf
  exact isFree_of_isUnit (hgood u hu) hf

private theorem isBalanced_spelling (f : Fru) : IsBalanced (f.spelling ++ [.symbol '\x7d']) := by
  have hhead : IsBalanced ([.word "template", .symbol '<', .symbol '>', .word "inline", .word "void",
      .word "writeFru", .symbol '<', .word "Fru", .symbol ':', .symbol ':', .word f.name, .symbol '>',
      .symbol '(', .word "const", .word "Store", .symbol '&', .word "vpdStore", .symbol ',',
      .word "const", .word "std", .symbol ':', .symbol ':', .word "string", .symbol '&', .word "path",
      .symbol ')']) := by
    simp [IsBalanced, awaitAll, await, closer?, isCloser]
  have hobject : IsBalanced [.word "Outer", .word "object", .symbol ';'] := by decide
  have hbody : IsBalanced (f.body.flatMap fun s => s.spelling ++ [.symbol ';']) :=
    isBalanced_flatMap fun s _ => s.isBalanced_spelling.append rfl
  have hprint : IsBalanced [.word "print", .symbol '(', .word "std", .symbol ':', .symbol ':',
      .word "move", .symbol '(', .word "object", .symbol ')', .symbol ',', .word "path", .symbol ')',
      .symbol ';'] := by decide
  have hall := hhead.append (hobject.append (hbody.append hprint)).braces
  simpa [spelling, head_tokens, parameter_tokens, print_tokens] using hall

private theorem namespace_not_mem_spelling (h : f.IsFree) :
    Token.word "namespace" ∉ f.spelling ++ [.symbol '\x7d'] := by
  have hname : "namespace" ≠ f.name := by
    intro heq
    have hfree := h.unit
    rw [← heq] at hfree
    exact absurd hfree (by decide)
  have hbody : Token.word "namespace" ∉ f.body.flatMap fun s => s.spelling ++ [.symbol ';'] := by
    intro hmem
    obtain ⟨s, hs, hmem⟩ := List.mem_flatMap.mp hmem
    rcases List.mem_append.mp hmem with hmem | hmem
    · exact Statement.namespace_not_mem_spelling (h.body s hs) hmem
    · simp at hmem
  simp [spelling, head_tokens, parameter_tokens, print_tokens, hname, hbody]

private theorem isClosed_prelude :
    IsClosed (Text.unlines prelude) ∧ Token.word "namespace" ∉ tokens (Text.unlines prelude) := by
  apply isClosed_of_toList
  · unfold prelude
    repeat apply toList_unlines_cons
    rfl
  · decide +kernel

private theorem isClosed_inner (hplain : ∀ f ∈ frus, f.IsPlain) (hfree : ∀ f ∈ frus, f.IsFree) :
    IsClosed (Text.unlines ([""] ++ prelude ++ frus.flatMap (fun f => "" :: f.lines) ++ [""])) ∧
      Token.word "namespace" ∉
        tokens (Text.unlines ([""] ++ prelude ++ frus.flatMap (fun f => "" :: f.lines) ++ [""])) := by
  obtain ⟨hprelude, hlast⟩ := isClosed_prelude
  have hunits : Reads (Text.unlines (frus.flatMap fun f => "" :: f.lines))
      (frus.flatMap fun f => f.spelling ++ [.symbol '\x7d']) :=
    reads_flatMap fun f hf => reads_blankLine.lines (reads_lines (hplain f hf))
  have hread := ((reads_blankLine.lines hprelude.reads).lines hunits).lines reads_blankLine
  rw [List.nil_append, List.append_nil] at hread
  have hbalanced : IsBalanced (frus.flatMap fun f => f.spelling ++ [.symbol '\x7d']) :=
    isBalanced_flatMap fun f _ => f.isBalanced_spelling
  refine ⟨hread.isClosed (hprelude.brackets.append hbalanced), ?_⟩
  rw [hread.tokens_eq]
  intro hmem
  rcases List.mem_append.mp hmem with hmem | hmem
  · exact hlast hmem
  · obtain ⟨f, hf, hmem⟩ := List.mem_flatMap.mp hmem
    exact namespace_not_mem_spelling (hfree f hf) hmem

theorem header_isClosed {scope : List String}
    (hs : ∀ segment ∈ scope, Identifier.isValid segment = true)
    (hplain : ∀ f ∈ frus, f.IsPlain) (hfree : ∀ f ∈ frus, f.IsFree) :
    IsClosed (header scope frus) ∧ IsScoped scope (header scope frus) := by
  obtain ⟨htop, habove⟩ := isClosed_preamble ["defines.hpp", "store.hpp"]
    ["iostream", "map"] (by decide +kernel) (by decide +kernel) (by decide)
  obtain ⟨hinner, hlast⟩ := isClosed_inner hplain hfree
  obtain ⟨hscoped, hclosed⟩ := encloses_scope hs hinner hlast
  have hlines : headerLines scope frus = top ++ (openScope scope ++
      ([""] ++ prelude ++ frus.flatMap (fun f => "" :: f.lines) ++ [""]) ++ closeScope scope) := by
    simp only [headerLines, top, List.append_assoc]
  rw [header, hlines, unlines_append]
  exact ⟨htop.append hclosed, _, _, rfl, htop, habove, hscoped⟩

end Fru

namespace Literal

private theorem isBalanced_spelling (l : Literal) : IsBalanced l.spelling := by
  cases l with
  | boolean b => rfl
  | integer n =>
    rw [spelling, integerTokens]
    split
    · rfl
    · split <;> rfl
  | string s => rfl

private theorem namespace_not_mem_spelling (l : Literal) :
    Token.word "namespace" ∉ l.spelling := by
  have hrepr (n : Nat) : "namespace" ≠ n.repr := by
    intro heq
    have hdigit : 'n'.isDigit = true := isDigit_of_mem_repr (n := n) (by rw [← heq]; decide)
    exact absurd hdigit (by decide)
  cases l with
  | boolean b => cases b <;> decide
  | integer n =>
    rw [spelling, integerTokens]
    split
    · decide
    · split <;> simp [hrepr]
  | string s => simp [spelling]

end Literal

namespace Inventory

private theorem isBalanced_keyedTokens {name : String} {items : List Token} (h : IsBalanced items) :
    IsBalanced (keyedTokens name items) := by
  have hname : IsBalanced [.literal name, .symbol ','] := rfl
  exact (hname.append h.braces).braces.append rfl

private theorem isBalanced_definition (objects : List Object) :
    IsBalanced (definition objects) := by
  have hproperty (p : Property) : IsBalanced p.spelling := by
    have hname : IsBalanced [.literal p.name, .symbol ','] := rfl
    exact (hname.append p.value.isBalanced_spelling).braces.append rfl
  have hobject (o : Object) : IsBalanced o.spelling :=
    isBalanced_keyedTokens (isBalanced_flatMap fun i _ =>
      isBalanced_keyedTokens (isBalanced_flatMap fun p _ => hproperty p))
  have hobjects : IsBalanced (objects.flatMap Object.spelling) :=
    isBalanced_flatMap fun o _ => hobject o
  have hhead : IsBalanced (tokens "const std::map<Path, InterfaceMap> objects =") := by
    rw [head_tokens]
    rfl
  have hend : IsBalanced [.symbol ';'] := rfl
  simpa [definition] using hhead.append (hobjects.braces.append hend)

private theorem namespace_not_mem_definition (objects : List Object) :
    Token.word "namespace" ∉ definition objects := by
  have hlist {α : Type} {l : List α} {f : α → List Token}
      (h : ∀ a, Token.word "namespace" ∉ f a) : Token.word "namespace" ∉ l.flatMap f := by
    simpa using fun a _ => h a
  have hproperty (p : Property) : Token.word "namespace" ∉ p.spelling := by
    simpa [Property.spelling] using p.value.namespace_not_mem_spelling
  have hinterface (i : Interface) : Token.word "namespace" ∉ i.spelling := by
    simpa [Interface.spelling, keyedTokens] using hlist (l := i.properties) hproperty
  have hobject (o : Object) : Token.word "namespace" ∉ o.spelling := by
    simpa [Object.spelling, keyedTokens] using hlist (l := o.interfaces) hinterface
  simpa [definition, head_tokens] using hlist (l := objects) hobject

theorem header_isClosed {scope : List String} (objects : List Object)
    (hs : ∀ segment ∈ scope, Identifier.isValid segment = true) :
    IsClosed (header scope objects) ∧ IsScoped (scope ++ ["extra"]) (header scope objects) := by
  obtain ⟨htop, habove⟩ := isClosed_preamble ["types.hpp"]
    ["map", "string"] (by decide +kernel) (by decide +kernel) (by decide)
  have hread := reads_blankLine.lines (reads_definition objects)
  have hlast : Token.word "namespace" ∉ tokens (Text.unlines ([""] ++
      (["const std::map<Path, InterfaceMap> objects = \x7b"] ++ objects.flatMap Object.lines ++
        ["\x7d;", ""]))) := by
    rw [hread.tokens_eq]
    exact namespace_not_mem_definition objects
  obtain ⟨hscoped, hclosed⟩ := encloses_scope (isValid_inner hs)
    (hread.isClosed (isBalanced_definition objects)) hlast
  have hlines : headerLines scope objects = top ++ (openScope (scope ++ ["extra"]) ++ ([""] ++
      (["const std::map<Path, InterfaceMap> objects = \x7b"] ++ objects.flatMap Object.lines ++
        ["\x7d;", ""])) ++ closeScope (scope ++ ["extra"])) := by
    simp only [headerLines, top, List.append_assoc, List.cons_append, List.nil_append]
  rw [header, hlines, unlines_append]
  exact ⟨htop.append hclosed, _, _, rfl, htop, habove, hscoped⟩

end Inventory

/-- Both headers are closed, for all units that a description has and for any objects. The namespaces
of the scope are opened in its order and closed innermost first, each with its name. -/
theorem headers_are_closed {scope : List String} (hscope : Scope.Accepted scope) :
    (∀ policy t frus, (Fru.listOfTree policy t).result = .ok frus →
      IsClosed (Fru.header scope frus) ∧ IsScoped scope (Fru.header scope frus)) ∧
    ∀ objects, IsClosed (Inventory.header scope objects) ∧
      IsScoped (scope ++ ["extra"]) (Inventory.header scope objects) :=
  ⟨fun _ _ _ h => Fru.header_isClosed hscope.isValid (Fru.isPlain_of_listOfTree h)
      (Fru.isFree_of_listOfTree h),
    fun objects => Inventory.header_isClosed objects hscope.isValid⟩

/-- A property whose name has the looks of comments, of brackets and of the end of a namespace. -/
def unclosed : Tree :=
  .mapping [(.string "BOARD", .mapping [(.string "xyz./*.\x7dItem", .mapping
    [(.string "\"; // ([\n\x7d // namespace vpd\\", .string "VINI,SN")])])]

theorem unclosed_headers_are_closed :
    Scope.Accepted ["openpower", "vpd"] ∧
      (∃ frus, (Fru.listOfTree .reject unclosed).result = .ok frus ∧
        IsClosed (Fru.header ["openpower", "vpd"] frus) ∧
        IsScoped ["openpower", "vpd"] (Fru.header ["openpower", "vpd"] frus)) ∧
      IsScoped ["openpower", "vpd", "extra"]
        (Inventory.header ["openpower", "vpd"] Inventory.catalogue) := by
  have hscope : Scope.Accepted ["openpower", "vpd"] := .spec (rfl : Scope.parse "openpower::vpd" = _)
  obtain ⟨frus, hfrus⟩ : ∃ frus, (Fru.listOfTree .reject unclosed).result = .ok frus := ⟨_, rfl⟩
  obtain ⟨hunits, hobjects⟩ := headers_are_closed hscope
  exact ⟨hscope, ⟨frus, hfrus, hunits _ _ _ hfrus⟩, (hobjects Inventory.catalogue).2⟩

end VpdHeaders
