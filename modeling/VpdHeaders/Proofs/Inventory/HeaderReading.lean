import VpdHeaders.Proofs.Cpp.Frame
import VpdHeaders.Proofs.Inventory.Expression
import VpdHeaders.Proofs.Scope
import VpdHeaders.Proofs.Traced

/-! # Reading an inventory header back

The header denotes its objects: nested braces are lists, and each value has its kind and its value in
C++. A reader gets all of it from the text alone. -/
namespace VpdHeaders.Inventory
open Cpp

def keyed? {α : Type} (read : List Node → Option α) : List Node → Option (String × List α)
  | [.leaf (.literal name), .leaf (.symbol ','), .group .brace inside] => do
    return (name, ← (← entries? inside).mapM read)
  | _ => none

def Property.ofNodes? : List Node → Option Property
  | .leaf (.literal name) :: .leaf (.symbol ',') :: value =>
    (Literal.ofNodes? value).map fun l => ⟨name, l⟩
  | _ => none

def Interface.ofNodes? (ns : List Node) : Option Interface :=
  (keyed? Property.ofNodes? ns).map fun i => ⟨i.1, i.2⟩

def Object.ofNodes? (ns : List Node) : Option Object :=
  (keyed? Interface.ofNodes? ns).map fun o => ⟨o.1, o.2⟩

def top : List String := preamble ["types.hpp"] ["map", "string"]

def read? (text : String) : Option (List String × List Object) := do
  let ts ← tokens? text
  let ts ← after? (tokens (Text.unlines top)) ts
  let (scope, inner) ← enclosed? ts
  let initializer ← after? (tokens "const std::map<Path, InterfaceMap> objects =") inner
  let [.group .brace inside, .leaf (.symbol ';')] ← nodes? initializer | none
  return (scope, ← (← entries? inside).mapM Object.ofNodes?)

private theorem nests_name (name : String) :
    Nests [.literal name, .symbol ','] [.leaf (.literal name), .leaf (.symbol ',')] :=
  (nests_leaf rfl).append (nests_leaf rfl)

namespace Property

def spelling (p : Property) : List Token :=
  .symbol '\x7b' :: ([.literal p.name, .symbol ','] ++ p.value.spelling) ++ [.symbol '\x7d'] ++
    [.symbol ',']

def inside (p : Property) : List Node :=
  [.leaf (.literal p.name), .leaf (.symbol ',')] ++ p.value.nodes

theorem ofNodes?_inside (p : Property) : ofNodes? p.inside = some p := by
  simp [ofNodes?, inside, Literal.ofNodes?_nodes]

theorem nests_spelling (p : Property) :
    Nests p.spelling [.group .brace p.inside, .leaf (.symbol ',')] :=
  ((nests_name p.name).append p.value.nests_spelling).braces.append (nests_leaf rfl)

theorem reads_line (p : Property) : Reads (Text.unlines [p.line]) p.spelling := by
  have hopen : Reads "            \x7b" [.symbol '\x7b'] := reads_ofList rfl
  have hcomma : Reads ", " [.symbol ','] := reads_ofList rfl
  have hclose : Reads ("\x7d," ++ "\n") [.symbol '\x7d', .symbol ','] := Cpp.reads_line rfl
  have hstop : StopsWord ("\x7d," ++ "\n") := (stopsWord_ofList rfl).append "\n"
  have hvalue := p.value.reads_expression hclose hstop
  have hline := ((hopen.append (reads_literal p.name)).append hcomma).append hvalue
  have hassoc (a b c d e f : String) : a ++ b ++ c ++ d ++ e ++ f = a ++ b ++ c ++ (d ++ (e ++ f)) := by
    simp only [String.append_assoc]
  have hparts : p.line ++ "\n" = "            \x7b" ++ Cpp.literal p.name ++ ", " ++
      (p.value.expression ++ ("\x7d," ++ "\n")) := hassoc _ _ _ _ _ _
  have hread : Reads (p.line ++ "\n") p.spelling := by
    rw [hparts]
    simpa [spelling] using hline
  simpa using hread.line reads_noLines

end Property

def keyedTokens (name : String) (items : List Token) : List Token :=
  .symbol '\x7b' :: ([.literal name, .symbol ','] ++ (.symbol '\x7b' :: items ++ [.symbol '\x7d'])) ++
    [.symbol '\x7d'] ++ [.symbol ',']

def keyedNodes (name : String) (items : List Node) : List Node :=
  [.leaf (.literal name), .leaf (.symbol ','), .group .brace items]

private theorem nests_keyed {items : List Token} {ns : List Node} (name : String)
    (h : Nests items ns) :
    Nests (keyedTokens name items) [.group .brace (keyedNodes name ns), .leaf (.symbol ',')] :=
  ((nests_name name).append h.braces).braces.append (nests_leaf rfl)

private theorem keyed?_keyedNodes {α : Type} {read : List Node → Option α} {inside : α → List Node}
    (h : ∀ a, read (inside a) = some a) (name : String) (l : List α) :
    keyed? read (keyedNodes name (l.flatMap fun a => [.group .brace (inside a), .leaf (.symbol ',')])) =
      some (name, l) := by
  have hitems := mapM_map_eq_some fun a (_ : a ∈ l) => h a
  rw [List.map_id'] at hitems
  rw [keyedNodes, keyed?, entries?_flatMap]
  exact bind_eq_some rfl (bind_eq_some hitems rfl)

private theorem reads_keyed {first last : List Char} {items : List String} {ts : List Token}
    (hfirst : run .between first = ([.symbol '\x7b'], .between)) (name : String)
    (h : Reads (Text.unlines items) ts)
    (hlast : run .between (last ++ ['\n']) = ([.symbol '\x7d', .symbol '\x7d', .symbol ','], .between)) :
    Reads (Text.unlines ([String.ofList first ++ Cpp.literal name ++ ",\x7b"] ++ items ++
      [String.ofList last])) (keyedTokens name ts) := by
  have hopen : Reads ",\x7b" [.symbol ',', .symbol '\x7b'] := reads_ofList rfl
  have hhead := (((reads_ofList hfirst).append (reads_literal name)).append hopen).append reads_newline
  have hall := ((hhead.line reads_noLines).lines h).lines ((Cpp.reads_line hlast).line reads_noLines)
  simpa [keyedTokens] using hall

namespace Interface

def spelling (i : Interface) : List Token :=
  keyedTokens i.name (i.properties.flatMap Property.spelling)

def inside (i : Interface) : List Node :=
  keyedNodes i.name (i.properties.flatMap fun p => [.group .brace p.inside, .leaf (.symbol ',')])

theorem ofNodes?_inside (i : Interface) : ofNodes? i.inside = some i := by
  rw [ofNodes?, inside, keyed?_keyedNodes Property.ofNodes?_inside]
  rfl

theorem nests_spelling (i : Interface) :
    Nests i.spelling [.group .brace i.inside, .leaf (.symbol ',')] :=
  nests_keyed i.name (nests_flatMap Property.nests_spelling)

theorem reads_lines (i : Interface) : Reads (Text.unlines i.lines) i.spelling := by
  have hproperties := reads_flatMap fun p (_ : p ∈ i.properties) => p.reads_line
  rw [← List.map_eq_flatMap] at hproperties
  exact reads_keyed rfl i.name hproperties rfl

end Interface

namespace Object

def spelling (o : Object) : List Token :=
  keyedTokens o.path (o.interfaces.flatMap Interface.spelling)

def inside (o : Object) : List Node :=
  keyedNodes o.path (o.interfaces.flatMap fun i => [.group .brace i.inside, .leaf (.symbol ',')])

theorem ofNodes?_inside (o : Object) : ofNodes? o.inside = some o := by
  rw [ofNodes?, inside, keyed?_keyedNodes Interface.ofNodes?_inside]
  rfl

theorem nests_spelling (o : Object) :
    Nests o.spelling [.group .brace o.inside, .leaf (.symbol ',')] :=
  nests_keyed o.path (nests_flatMap Interface.nests_spelling)

theorem reads_lines (o : Object) : Reads (Text.unlines o.lines) o.spelling :=
  reads_keyed rfl o.path (reads_flatMap fun i _ => i.reads_lines) rfl

end Object

variable {scope scope₁ scope₂ : List String} {objects objects₁ objects₂ : List Object}

def definition (objects : List Object) : List Token :=
  tokens "const std::map<Path, InterfaceMap> objects =" ++
    (.symbol '\x7b' :: objects.flatMap Object.spelling ++ [.symbol '\x7d', .symbol ';'])

theorem head_tokens : tokens "const std::map<Path, InterfaceMap> objects =" =
    [.word "const", .word "std", .symbol ':', .symbol ':', .word "map", .symbol '<', .word "Path",
      .symbol ',', .word "InterfaceMap", .symbol '>', .word "objects", .symbol '='] :=
  tokens_ofList rfl

private theorem nests_initializer (objects : List Object) :
    Nests (.symbol '\x7b' :: objects.flatMap Object.spelling ++ [.symbol '\x7d', .symbol ';'])
      [.group .brace (objects.flatMap fun o => [.group .brace o.inside, .leaf (.symbol ',')]),
        .leaf (.symbol ';')] := by
  have hbraces := (nests_flatMap (l := objects) Object.nests_spelling).braces
  have hend : Nests [.symbol ';'] [.leaf (.symbol ';')] := nests_leaf rfl
  simpa using hbraces.append hend

theorem reads_definition (objects : List Object) :
    Reads (Text.unlines (["const std::map<Path, InterfaceMap> objects = \x7b"] ++
      objects.flatMap Object.lines ++ ["\x7d;", ""])) (definition objects) := by
  have hhead : Reads ("const std::map<Path, InterfaceMap> objects = \x7b" ++ "\n")
      [.word "const", .word "std", .symbol ':', .symbol ':', .word "map", .symbol '<', .word "Path",
        .symbol ',', .word "InterfaceMap", .symbol '>', .word "objects", .symbol '=', .symbol '\x7b'] :=
    Cpp.reads_line rfl
  have hend : Reads ("\x7d;" ++ "\n") [.symbol '\x7d', .symbol ';'] := Cpp.reads_line rfl
  have hobjects := reads_flatMap fun o (_ : o ∈ objects) => o.reads_lines
  have hall := ((hhead.line reads_noLines).lines hobjects).lines (hend.line reads_blankLine)
  simpa [definition, head_tokens] using hall

theorem reads_top : Reads (Text.unlines top) (preambleTokens ["types.hpp"] ["map", "string"]) :=
  reads_preamble (by decide +kernel) (by decide +kernel)

theorem isValid_inner (hs : ∀ segment ∈ scope, Identifier.isValid segment = true) :
    ∀ segment ∈ scope ++ ["extra"], Identifier.isValid segment = true := by
  intro segment hsegment
  rcases List.mem_append.mp hsegment with hsegment | hsegment
  · exact hs segment hsegment
  · rw [List.mem_singleton.mp hsegment]
    decide

private theorem reads_header (hs : ∀ segment ∈ scope, Identifier.isValid segment = true) :
    Reads (header scope objects)
      (preambleTokens ["types.hpp"] ["map", "string"] ++
        (((scope ++ ["extra"]).flatMap fun segment => [.word "namespace", .word segment, .symbol '\x7b']) ++
          (definition objects ++
            List.replicate (scope ++ ["extra"]).length (.symbol '\x7d')))) := by
  have hinner := isValid_inner hs
  have hall := reads_top.lines <| (reads_openScope hinner).lines <| reads_blankLine.lines <|
    (reads_definition objects).lines (reads_closeScope hinner)
  rw [List.nil_append] at hall
  have hlines : headerLines scope objects = top ++ (openScope (scope ++ ["extra"]) ++ ([""] ++
      ((["const std::map<Path, InterfaceMap> objects = \x7b"] ++ objects.flatMap Object.lines ++
        ["\x7d;", ""]) ++ closeScope (scope ++ ["extra"])))) := by
    simp only [headerLines, top, List.append_assoc, List.cons_append, List.nil_append]
  rw [header, hlines]
  exact hall

theorem read?_header (hs : ∀ segment ∈ scope, Identifier.isValid segment = true) :
    read? (header scope objects) = some (scope ++ ["extra"], objects) := by
  have htop (ts : List Token) : after? (tokens (Text.unlines top))
      (preambleTokens ["types.hpp"] ["map", "string"] ++ ts) = some ts := by
    rw [reads_top.tokens_eq]
    exact after?_append _ ts
  have hhead : (definition objects).head? = some (.word "const") := by
    rw [definition, head_tokens]
    rfl
  have hitems := mapM_map_eq_some fun o (_ : o ∈ objects) => Object.ofNodes?_inside o
  rw [List.map_id'] at hitems
  rw [read?]
  refine bind_eq_some (reads_header hs).tokens?_eq (bind_eq_some (htop _) ?_)
  refine bind_eq_some (enclosed?_eq hhead (by decide) _) (bind_eq_some (after?_append _ _) ?_)
  refine bind_eq_some (nests_initializer objects).nodes?_eq ?_
  exact bind_eq_some (entries?_flatMap objects Object.inside) (bind_eq_some hitems rfl)

theorem render_eq_ok {policy : EmptyPolicy} {t : Tree} {text : String}
    (h : (render scope policy t).result = .ok text) :
    ∃ objects, (listOfTree policy t).result = .ok objects ∧ text = header scope objects := by
  obtain ⟨objects, hobjects, h⟩ := Traced.result_bind_eq_ok.mp h
  obtain ⟨-, -, h⟩ := Traced.result_bind_eq_ok.mp h
  exact ⟨objects, hobjects, (Except.ok.inj h).symm⟩

section Numbers

/-! The numbers of a header are those of its integers. -/

private theorem isInRange_keyedTokens {name : String} {items : List Token}
    (h : ∀ t ∈ items, t.IsInRange) : ∀ t ∈ keyedTokens name items, t.IsInRange := by
  simpa [keyedTokens, or_imp, forall_and] using h

private theorem isInRange_flatMap {α : Type} {l : List α} {f : α → List Token}
    (h : ∀ a, ∀ t ∈ f a, t.IsInRange) : ∀ t ∈ l.flatMap f, t.IsInRange := by
  intro t ht
  obtain ⟨a, -, ht⟩ := List.mem_flatMap.mp ht
  exact h a t ht

private theorem isInRange_object (o : Object) : ∀ t ∈ o.spelling, t.IsInRange := by
  refine isInRange_keyedTokens (isInRange_flatMap fun i => ?_)
  refine isInRange_keyedTokens (isInRange_flatMap fun p => ?_)
  simpa [Property.spelling, or_imp, forall_and] using p.value.isInRange_spelling

private theorem isInRange_of_fixed {ts : List Token} (h : ∀ t ∈ ts, t.isNumber = false) :
    ∀ t ∈ ts, t.IsInRange := by
  intro t ht hnumber
  simp [h t ht] at hnumber

private theorem isInRange_definition (objects : List Object) :
    ∀ t ∈ definition objects, t.IsInRange := by
  have hobjects : ∀ t ∈ objects.flatMap Object.spelling, t.IsInRange :=
    isInRange_flatMap isInRange_object
  have hhead : ∀ t ∈ tokens "const std::map<Path, InterfaceMap> objects =", t.IsInRange := by
    rw [head_tokens]
    exact isInRange_of_fixed (by decide)
  refine List.forall_mem_append.mpr ⟨hhead, ?_⟩
  simpa [or_imp, forall_and] using hobjects

theorem isInRange_header (hs : ∀ segment ∈ scope, Identifier.isValid segment = true) :
    ∀ t ∈ tokens (header scope objects), t.IsInRange := by
  have hsegment (segment : String) (h : Identifier.isValid segment = true) :
      ∀ t ∈ [Token.word "namespace", .word segment, .symbol '\x7b'], t.IsInRange := by
    have hkeyword : (Token.word "namespace").IsInRange := Token.isInRange_of_isValid (by decide)
    simp [hkeyword, Token.isInRange_of_isValid h]
  rw [(reads_header hs).tokens_eq]
  intro t ht
  rcases List.mem_append.mp ht with htop | ht
  · exact isInRange_of_fixed (by decide +kernel) t htop
  rcases List.mem_append.mp ht with hopen | ht
  · obtain ⟨segment, hin, hopen⟩ := List.mem_flatMap.mp hopen
    exact hsegment segment (isValid_inner hs segment hin) t hopen
  rcases List.mem_append.mp ht with hmap | hclose
  · exact isInRange_definition objects t hmap
  · rw [List.eq_of_mem_replicate hclose]
    exact Token.isInRange_symbol _

end Numbers

/-- The header of any objects denotes just these objects, each value with its kind and in full, and
all its numbers are in range. No two lists of objects have the same header. -/
theorem header_denotes_objects {spec : String} (hscope : Scope.parse spec = .ok scope)
    (objects : List Object) :
    read? (header scope objects) = some (scope ++ ["extra"], objects) ∧
      (∀ t ∈ tokens (header scope objects), t.isNumber = true →
        ∃ text n, t = .word text ∧ numeral? text = some n ∧ n ≤ 0x7FFFFFFFFFFFFFFF) ∧
      ∀ spec' scope' objects', Scope.parse spec' = .ok scope' →
        header scope objects = header scope' objects' → scope = scope' ∧ objects = objects' := by
  have hread : read? (header scope objects) = some (scope ++ ["extra"], objects) :=
    read?_header (Scope.isValid_of_parse hscope)
  refine ⟨hread, isInRange_header (Scope.isValid_of_parse hscope), ?_⟩
  intro spec' scope' objects' hscope' heq
  rw [heq, read?_header (Scope.isValid_of_parse hscope')] at hread
  obtain ⟨hs, ho⟩ := Prod.mk.inj (Option.some.inj hread)
  exact ⟨(List.append_cancel_right hs).symm, ho.symm⟩

/-- Objects with the same path, lists that are empty, and values of all kinds. -/
def catalogue : List Object :=
  [⟨"/system", [⟨"", [⟨"least", .integer Int64.minValue⟩, ⟨"minus", .integer (-3)⟩,
      ⟨"quoted", .string "true\"\x7d\x7d,\n"⟩, ⟨"true", .boolean true⟩]⟩, ⟨"", []⟩]⟩,
    ⟨"/system", []⟩]

theorem catalogue_header_denotes_objects :
    Scope.parse "openpower::vpd" = .ok ["openpower", "vpd"] ∧
      read? (header ["openpower", "vpd"] catalogue) =
        some (["openpower", "vpd", "extra"], catalogue) := by
  have hscope : Scope.parse "openpower::vpd" = .ok ["openpower", "vpd"] := rfl
  exact ⟨hscope, (header_denotes_objects hscope catalogue).1⟩

end VpdHeaders.Inventory
