import VpdHeaders.Fru.Header
import VpdHeaders.Proofs.Cpp.Frame
import VpdHeaders.Proofs.Cpp.Parts

/-! # Reading an accessor header back

A reader knows the fixed text of a header. It takes the scope, the unit names and the statements
from what stands in between, and refuses everything else. -/
namespace VpdHeaders
open Cpp

structure Reference.IsPlain (r : Reference) : Prop where
  record : Identifier.isValid r.record = true
  keyword : Identifier.isValid r.keyword = true

def Reference.ofTokens? (ts : List Token) : Option Reference := do
  let ts ← after? (tokens "vpdStore.get<Record::") ts
  let .word record :: ts := ts | none
  let ts ← after? (tokens ", record::Keyword::") ts
  let .word keyword :: ts := ts | none
  if ts = tokens ">()" then some ⟨record, keyword⟩ else none

def Statement.ofTokens? : List Token → Option Statement
  | [.word "Inner", .word container] => some (.declare container)
  | .word container :: .symbol '[' :: .literal key :: .symbol ']' :: .symbol '=' :: ts =>
    (Reference.ofTokens? ts).map (.assign container key)
  | .word "object" :: .symbol '.' :: .word "emplace" :: .symbol '(' :: .literal key :: ts => do
    let ts ← after? (tokens ", std::move(") ts
    let .word container :: ts := ts | none
    if ts = tokens "))" then some (.emplace key container) else none
  | _ => none

def Reference.spelling (r : Reference) : List Token :=
  [.word "vpdStore", .symbol '.', .word "get", .symbol '<', .word "Record", .symbol ':', .symbol ':',
    .word r.record, .symbol ',', .word "record", .symbol ':', .symbol ':', .word "Keyword", .symbol ':',
    .symbol ':', .word r.keyword, .symbol '>', .symbol '(', .symbol ')']

theorem Reference.ofTokens?_spelling (r : Reference) : ofTokens? r.spelling = some r := by
  have hget : tokens "vpdStore.get<Record::" =
    [.word "vpdStore", .symbol '.', .word "get", .symbol '<', .word "Record", .symbol ':',
      .symbol ':'] := tokens_ofList rfl
  have hkeyword : tokens ", record::Keyword::" = [.symbol ',', .word "record", .symbol ':',
    .symbol ':', .word "Keyword", .symbol ':', .symbol ':'] := tokens_ofList rfl
  have hcall : tokens ">()" = [.symbol '>', .symbol '(', .symbol ')'] := tokens_ofList rfl
  simp [ofTokens?, spelling, hget, hkeyword, hcall, after?]

namespace Statement

/-- How a statement is written, up to its semicolon. -/
def spelling : Statement → List Token
  | .declare container => [.word "Inner", .word container]
  | .assign container key value =>
    [.word container, .symbol '[', .literal key, .symbol ']', .symbol '='] ++ value.spelling
  | .emplace key container =>
    [.word "object", .symbol '.', .word "emplace", .symbol '(', .literal key, .symbol ',',
      .word "std", .symbol ':', .symbol ':', .word "move", .symbol '(', .word container,
      .symbol ')', .symbol ')']

theorem ofTokens?_spelling (s : Statement) : ofTokens? s.spelling = some s := by
  cases s with
  | declare container => rfl
  | assign container key value =>
    simp [ofTokens?, spelling, Reference.ofTokens?_spelling]
  | emplace key container =>
    have hmove : tokens ", std::move(" = [.symbol ',', .word "std", .symbol ':', .symbol ':',
      .word "move", .symbol '('] := tokens_ofList rfl
    have hend : tokens "))" = [.symbol ')', .symbol ')'] := tokens_ofList rfl
    simp [ofTokens?, spelling, hmove, hend, after?]

/-- All names in a statement are identifiers. -/
def IsPlain : Statement → Prop
  | .declare container => Identifier.isValid container = true
  | .assign container _ value => Identifier.isValid container = true ∧ value.IsPlain
  | .emplace _ container => Identifier.isValid container = true

end Statement

namespace Fru

/-- A specialization of the accessor, with what it does between its first and its last line. -/
structure Specialization where
  unit : String
  body : List Statement
  deriving DecidableEq, Repr

def specialization? (ts : List Token) : Option Specialization := do
  let ts ← after? (tokens "template <> inline void writeFru<Fru::") ts
  let .word unit :: ts := ts | none
  let ts ← after? (tokens ">(const Store& vpdStore, const std::string& path) \x7b Outer object;") ts
  let sentences ← ended? (.symbol ';') ts
  if sentences.getLast? = some (tokens "print(std::move(object), path)") then
    return ⟨unit, ← sentences.dropLast.mapM Statement.ofTokens?⟩
  else none

def top : List String := preamble ["defines.hpp", "store.hpp"] ["iostream", "map"]

def units? (scope : List String) (parts : List (List Token)) : Option (List Specialization) :=
  let count := parts.length - scope.length
  if parts.drop count = List.replicate scope.length [] then
    (parts.take count).mapM specialization?
  else none

def read? (text : String) : Option (List String × List Specialization) := do
  let ts ← tokens? text
  let ts ← after? (tokens (Text.unlines top)) ts
  let inner ← after? (tokens (Text.unlines prelude)) (openings ts).2
  let parts ← ended? (.symbol '\x7d') inner
  let units ← units? (openings ts).1 parts
  return ((openings ts).1, units)

end Fru

namespace Statement

private theorem reads_declare {container : String} (h : Identifier.isValid container = true) :
    Reads (Text.unlines (declare container).lines) ((declare container).spelling ++ [.symbol ';']) := by
  have hinner : Reads "    Inner " [.word "Inner"] := reads_ofList rfl
  have hend : Reads ";" [.symbol ';'] := reads_ofList rfl
  have hline := (hinner.name h hend (stopsWord_ofList rfl)).append reads_newline
  exact hline.line reads_noLines

private theorem reads_lookup {r : Reference} (h : r.IsPlain) :
    Reads r.lookup r.spelling := by
  have hget : Reads "vpdStore.get<Record::"
    [.word "vpdStore", .symbol '.', .word "get", .symbol '<', .word "Record", .symbol ':',
      .symbol ':'] := reads_ofList rfl
  have hkeyword : Reads ", record::Keyword::" [.symbol ',', .word "record", .symbol ':', .symbol ':',
    .word "Keyword", .symbol ':', .symbol ':'] := reads_ofList rfl
  have hcall : Reads ">()" [.symbol '>', .symbol '(', .symbol ')'] := reads_ofList rfl
  have hrecord := hget.name h.record hkeyword (stopsWord_ofList rfl)
  exact hrecord.name h.keyword hcall (stopsWord_ofList rfl)

private theorem reads_assign {container key : String} {r : Reference}
    (h : Identifier.isValid container = true) (hr : r.IsPlain) :
    Reads (Text.unlines (assign container key r).lines)
      ((assign container key r).spelling ++ [.symbol ';']) := by
  have hblank : Reads "    " [] := reads_ofList rfl
  have hopen : Reads "[" [.symbol '['] := reads_ofList rfl
  have hclose : Reads "] =" [.symbol ']', .symbol '='] := reads_ofList rfl
  have hindent : Reads "        " [] := reads_ofList rfl
  have hend : Reads ";" [.symbol ';'] := reads_ofList rfl
  have hkey := ((hblank.name h hopen (stopsWord_ofList rfl)).append (reads_literal key)).append hclose
  have hvalue := ((hindent.append (reads_lookup hr)).append hend).append reads_newline
  exact (hkey.append reads_newline).line (hvalue.line reads_noLines)

private theorem reads_emplace {key container : String} (h : Identifier.isValid container = true) :
    Reads (Text.unlines (emplace key container).lines)
      ((emplace key container).spelling ++ [.symbol ';']) := by
  have hobject : Reads "    object.emplace("
    [.word "object", .symbol '.', .word "emplace", .symbol '('] := reads_ofList rfl
  have hmove : Reads ", std::move(" [.symbol ',', .word "std", .symbol ':', .symbol ':',
    .word "move", .symbol '('] := reads_ofList rfl
  have hend : Reads "));" [.symbol ')', .symbol ')', .symbol ';'] := reads_ofList rfl
  have hkey := (hobject.append (reads_literal key)).append hmove
  have hline := (hkey.name h hend (stopsWord_ofList rfl)).append reads_newline
  exact hline.line reads_noLines

theorem reads_lines {s : Statement} (h : s.IsPlain) :
    Reads (Text.unlines s.lines) (s.spelling ++ [.symbol ';']) := by
  cases s with
  | declare container => exact reads_declare h
  | assign container key value => exact reads_assign h.1 h.2
  | emplace key container => exact reads_emplace h

end Statement

namespace Fru

/-- What a specialization does: it fills one container for each interface, then hands them over. -/
def body (f : Fru) : List Statement :=
  f.interfaces.flatMap Interface.statements ++ f.interfaces.map Interface.emplacement

theorem mem_body_of_statements {f : Fru} {i : Interface} (hi : i ∈ f.interfaces) {s : Statement}
    (hs : s ∈ i.statements) : s ∈ f.body :=
  List.mem_append_left _ (List.mem_flatMap.mpr ⟨i, hi, hs⟩)

theorem emplacement_mem_body {f : Fru} {i : Interface} (hi : i ∈ f.interfaces) :
    i.emplacement ∈ f.body :=
  List.mem_append_right _ (List.mem_map_of_mem hi)

/-- What holds of all statements of a body: they come from its interfaces and their properties. -/
theorem forall_mem_body {f : Fru} {P : Statement → Prop}
    (declare : ∀ i ∈ f.interfaces, P (.declare i.identifier))
    (assign : ∀ i ∈ f.interfaces, ∀ b ∈ i.properties, P (.assign i.identifier b.name b.reference))
    (emplace : ∀ i ∈ f.interfaces, P (.emplace i.name i.identifier)) : ∀ s ∈ f.body, P s := by
  intro s hs
  rcases List.mem_append.mp hs with hs | hs
  · obtain ⟨i, hi, hs⟩ := List.mem_flatMap.mp hs
    rcases List.mem_cons.mp hs with rfl | hs
    · exact declare i hi
    · obtain ⟨b, hb, rfl⟩ := List.mem_map.mp hs
      exact assign i hi b hb
  · obtain ⟨i, hi, rfl⟩ := List.mem_map.mp hs
    exact emplace i hi

def spelling (f : Fru) : List Token :=
  tokens "template <> inline void writeFru<Fru::" ++ .word f.name ::
    (tokens ">(const Store& vpdStore, const std::string& path) \x7b Outer object;" ++
      (f.body.flatMap (fun s => s.spelling ++ [.symbol ';']) ++
        (tokens "print(std::move(object), path)" ++ [.symbol ';'])))

structure IsPlain (f : Fru) : Prop where
  unit : Identifier.isValid f.name = true
  body : ∀ s ∈ f.body, s.IsPlain

theorem head_tokens : tokens "template <> inline void writeFru<Fru::" =
    [.word "template", .symbol '<', .symbol '>', .word "inline", .word "void", .word "writeFru",
      .symbol '<', .word "Fru", .symbol ':', .symbol ':'] := tokens_ofList rfl

theorem parameter_tokens :
    tokens ">(const Store& vpdStore, const std::string& path) \x7b Outer object;" =
    [.symbol '>', .symbol '(', .word "const", .word "Store", .symbol '&', .word "vpdStore",
      .symbol ',', .word "const", .word "std", .symbol ':', .symbol ':', .word "string", .symbol '&',
      .word "path", .symbol ')', .symbol '\x7b', .word "Outer", .word "object", .symbol ';'] :=
  tokens_ofList rfl

theorem print_tokens : tokens "print(std::move(object), path)" =
    [.word "print", .symbol '(', .word "std", .symbol ':', .symbol ':', .word "move", .symbol '(',
      .word "object", .symbol ')', .symbol ',', .word "path", .symbol ')'] := tokens_ofList rfl

section Writing

variable {f : Fru}

private theorem reads_signature (h : f.IsPlain) :
    Reads (Text.unlines f.signature)
      ([.word "template", .symbol '<', .symbol '>', .word "inline", .word "void", .word "writeFru",
        .symbol '<', .word "Fru", .symbol ':', .symbol ':', .word f.name, .symbol '>', .symbol '(',
        .word "const", .word "Store", .symbol '&', .word "vpdStore", .symbol ',', .word "const",
        .word "std", .symbol ':', .symbol ':', .word "string", .symbol '&', .word "path",
        .symbol ')']) := by
  have hcomment : Reads ("// Specialization of " ++ f.name ++ "\n") [] :=
    reads_comment h.unit (scan_ofList _)
  have htemplate : Reads ("template <>" ++ "\n") [.word "template", .symbol '<', .symbol '>'] :=
    reads_line rfl
  have hinline : Reads "inline void writeFru<Fru::" [.word "inline", .word "void",
    .word "writeFru", .symbol '<', .word "Fru", .symbol ':', .symbol ':'] := reads_ofList rfl
  have hopen : Reads ">(" [.symbol '>', .symbol '('] := reads_ofList rfl
  have hstore : Reads "const Store& vpdStore," [.word "const", .word "Store", .symbol '&',
    .word "vpdStore", .symbol ','] := reads_ofList rfl
  have hpath : Reads "const std::string& path)" [.word "const", .word "std", .symbol ':',
    .symbol ':', .word "string", .symbol '&', .word "path", .symbol ')'] := reads_ofList rfl
  have hhead := (hinline.name h.unit hopen (stopsWord_ofList rfl)).append hstore
  have hsecond (n : Nat) := (((reads_indent n).append hpath).append reads_newline).line reads_noLines
  exact hcomment.line (htemplate.line ((hhead.append reads_newline).line (hsecond _)))

private theorem reads_opening :
    Reads (Text.unlines
      ["\x7b",
       "    Outer object;",
       "",
       "    // Inventory manager needs object path, list of interface names to be",
       "    // implemented, and property:value pairs contained in said interfaces"])
      [.symbol '\x7b', .word "Outer", .word "object", .symbol ';'] := by
  have hopen : Reads ("\x7b" ++ "\n") [.symbol '\x7b'] := reads_line rfl
  have hobject : Reads ("    Outer object;" ++ "\n") [.word "Outer", .word "object", .symbol ';'] :=
    reads_line rfl
  have hblank : Reads ("" ++ "\n") [] := reads_line rfl
  have hneeds : Reads ("    // Inventory manager needs object path, list of interface names to be" ++ "\n") [] :=
    reads_line (by decide +kernel)
  have hpairs : Reads ("    // implemented, and property:value pairs contained in said interfaces" ++ "\n") [] :=
    reads_line (by decide +kernel)
  exact hopen.line (hobject.line (hblank.line (hneeds.line (hpairs.line reads_noLines))))

private theorem reads_fill {i : Interface} (h : ∀ s ∈ i.statements, s.IsPlain) :
    Reads (Text.unlines ("" :: i.lines))
      (i.statements.flatMap fun s => s.spelling ++ [.symbol ';']) :=
  (reads_line rfl : Reads ("" ++ "\n") []).line (reads_flatMap fun s hs => Statement.reads_lines (h s hs))

private theorem reads_body (h : ∀ s ∈ f.body, s.IsPlain) :
    Reads (Text.unlines (f.interfaces.flatMap (fun i => "" :: i.lines) ++
        (if f.interfaces.isEmpty then [] else [""]) ++
        f.interfaces.flatMap (fun i => i.emplacement.lines)))
      (f.body.flatMap fun s => s.spelling ++ [.symbol ';']) := by
  have hfill := reads_flatMap (l := f.interfaces) fun i hi => reads_fill fun s hs =>
    h s (mem_body_of_statements hi hs)
  have hblank : Reads (Text.unlines (if f.interfaces.isEmpty then [] else [""])) [] := by
    split
    · exact reads_empty
    · exact reads_blankLine
  have hgive := reads_flatMap (l := f.interfaces) fun i hi => Statement.reads_lines <|
    h i.emplacement (emplacement_mem_body hi)
  have hall := (hfill.lines hblank).lines hgive
  simpa [body, List.flatMap_append, List.flatMap_assoc, List.flatMap_map] using hall

theorem reads_lines (h : f.IsPlain) :
    Reads (Text.unlines f.lines) (f.spelling ++ [.symbol '\x7d']) := by
  have hend : Reads (Text.unlines ["", "    print(std::move(object), path);", "\x7d"])
      [.word "print", .symbol '(', .word "std", .symbol ':', .symbol ':', .word "move", .symbol '(',
        .word "object", .symbol ')', .symbol ',', .word "path", .symbol ')', .symbol ';',
        .symbol '\x7d'] :=
    (reads_line rfl : Reads ("" ++ "\n") []).line <|
      (reads_line rfl : Reads ("    print(std::move(object), path);" ++ "\n") _).line <|
        (reads_line rfl : Reads ("\x7d" ++ "\n") _).line reads_noLines
  have hall := (((reads_signature h).lines reads_opening).lines (reads_body h.body)).lines hend
  simpa [lines, spelling, head_tokens, parameter_tokens, print_tokens] using hall

end Writing

section Reading

variable {f : Fru}

private theorem semicolon_not_mem_spelling (s : Statement) : Token.symbol ';' ∉ s.spelling := by
  cases s <;> simp [Statement.spelling, Reference.spelling]

/-- What is written for a unit is read as its specialization. -/
theorem specialization?_spelling (f : Fru) :
    specialization? f.spelling = some ⟨f.name, f.body⟩ := by
  have hended : ended? (.symbol ';') (f.body.flatMap (fun s => s.spelling ++ [.symbol ';']) ++
      (tokens "print(std::move(object), path)" ++ [.symbol ';'])) =
      some (f.body.map Statement.spelling ++ [tokens "print(std::move(object), path)"]) := by
    have h : ∀ ts ∈ f.body.map Statement.spelling ++ [tokens "print(std::move(object), path)"],
        Token.symbol ';' ∉ ts := by
      intro ts hts
      rcases List.mem_append.mp hts with hts | hts
      · obtain ⟨s, -, rfl⟩ := List.mem_map.mp hts
        exact semicolon_not_mem_spelling s
      · rw [List.mem_singleton.mp hts, print_tokens]
        simp
    simpa [List.flatMap_append, List.flatMap_map] using ended?_flatMap (f := id) h
  have hbody := mapM_map_eq_some fun s (_ : s ∈ f.body) => Statement.ofTokens?_spelling s
  rw [List.map_id'] at hbody
  rw [specialization?, spelling]
  generalize tokens "template <> inline void writeFru<Fru::" = head
  generalize tokens ">(const Store& vpdStore, const std::string& path) \x7b Outer object;" = parameters
  generalize tokens "print(std::move(object), path)" = print at hended ⊢
  simp only [after?_append, hended, Option.bind_eq_bind, Option.bind_some, List.getLast?_concat,
    List.dropLast_concat, hbody, if_true]
  rfl

private theorem brace_not_mem_spelling (f : Fru) : Token.symbol '\x7d' ∉ f.spelling := by
  have h (s : Statement) : Token.symbol '\x7d' ∉ s.spelling := by
    cases s <;> simp [Statement.spelling, Reference.spelling]
  simp [spelling, head_tokens, parameter_tokens, print_tokens, h]

theorem reads_prelude : Reads (Text.unlines prelude) (tokens (Text.unlines prelude)) ∧
    (tokens (Text.unlines prelude)).head? = some (.word "using") := by
  apply reads_of_toList
  · unfold prelude
    repeat apply toList_unlines_cons
    rfl
  · decide +kernel

private theorem reads_parts {frus : List Fru} {scope : List String}
    (hs : ∀ segment ∈ scope, Identifier.isValid segment = true) (hf : ∀ f ∈ frus, f.IsPlain) :
    Reads (Text.unlines (frus.flatMap (fun f => "" :: f.lines) ++ [""] ++ closeScope scope))
      ((frus.map spelling ++ List.replicate scope.length []).flatMap
        fun ts => ts ++ [Token.symbol '\x7d']) := by
  have hunits := reads_flatMap fun f h => reads_blankLine.lines (reads_lines (hf f h))
  have hall := (hunits.lines reads_blankLine).lines (reads_closeScope hs)
  simpa [List.flatMap_append, List.flatMap_map, List.flatMap_replicate] using hall

theorem reads_top : Reads (Text.unlines top) (tokens (Text.unlines top)) := by
  have h : Reads (Text.unlines top) (preambleTokens ["defines.hpp", "store.hpp"] ["iostream", "map"]) :=
    reads_preamble (by decide +kernel) (by decide +kernel)
  rw [h.tokens_eq]
  exact h

private theorem reads_header {scope : List String} {frus : List Fru}
    (hs : ∀ segment ∈ scope, Identifier.isValid segment = true) (hf : ∀ f ∈ frus, f.IsPlain) :
    Reads (header scope frus)
      (tokens (Text.unlines top) ++
        ((scope.flatMap fun segment => [.word "namespace", .word segment, .symbol '\x7b']) ++
          (tokens (Text.unlines prelude) ++
            (frus.map spelling ++ List.replicate scope.length []).flatMap
              fun ts => ts ++ [Token.symbol '\x7d']))) := by
  have hall := reads_top.lines <| (reads_openScope hs).lines <| reads_blankLine.lines <|
    reads_prelude.1.lines (reads_parts hs hf)
  rw [List.nil_append] at hall
  have hlines : headerLines scope frus = top ++ (openScope scope ++ ([""] ++ (prelude ++
      (frus.flatMap (fun f => "" :: f.lines) ++ [""] ++ closeScope scope)))) := by
    simp only [headerLines, top, List.append_assoc]
  rw [header, hlines]
  exact hall

private theorem units?_spelling (scope : List String) (frus : List Fru) :
    units? scope (frus.map spelling ++ List.replicate scope.length []) =
      some (frus.map fun f => ⟨f.name, f.body⟩) := by
  have hcount : (frus.map spelling ++ List.replicate scope.length []).length - scope.length =
      (frus.map spelling).length := by simp
  have hunits := mapM_map_eq_some fun f (_ : f ∈ frus) => specialization?_spelling f
  rw [units?, hcount, List.drop_left, List.take_left, if_pos rfl, hunits]

theorem read?_header {scope : List String} {frus : List Fru}
    (hs : ∀ segment ∈ scope, Identifier.isValid segment = true) (hf : ∀ f ∈ frus, f.IsPlain) :
    read? (header scope frus) = some (scope, frus.map fun f => ⟨f.name, f.body⟩) := by
  have hparts : ∀ ts ∈ frus.map spelling ++ List.replicate scope.length [],
      Token.symbol '\x7d' ∉ ts := by
    intro ts hts
    rcases List.mem_append.mp hts with hts | hts
    · obtain ⟨f, -, rfl⟩ := List.mem_map.mp hts
      exact brace_not_mem_spelling f
    · rw [List.eq_of_mem_replicate hts]
      exact List.not_mem_nil
  have hended := ended?_flatMap hparts
  rw [List.map_id'] at hended
  have hopen := openings_append scope (openings_of_head reads_prelude.2 (by decide)
    ((frus.map spelling ++ List.replicate scope.length []).flatMap
      fun ts => ts ++ [Token.symbol '\x7d']))
  rw [read?]
  refine bind_eq_some (reads_header hs hf).tokens?_eq (bind_eq_some (after?_append _ _) ?_)
  rw [hopen]
  refine bind_eq_some (after?_append _ _) (bind_eq_some hended ?_)
  exact bind_eq_some (units?_spelling scope frus) rfl

end Reading

end Fru

end VpdHeaders
