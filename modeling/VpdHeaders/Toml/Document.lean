import VpdHeaders.Toml.Number
import VpdHeaders.Toml.Quotation
import VpdHeaders.Toml.Table

/-! # Reading a settings document -/
namespace VpdHeaders.Toml

/-- How many segments a key may have, and how deep values may be nested. -/
def maxDepth : Nat := 79

def simpleKey? (cs : List Char) : Option (String × List Char) :=
  match cs with
  | '"' :: _ | '\'' :: _ => quotation false cs
  | _ =>
    let word := cs.takeWhile isBareKey
    if word.isEmpty then none else some (String.ofList word, cs.drop word.length)

/-- A key of at most `limit` segments with points between them, and gaps around every one. -/
def key? : (limit : Nat) → List Char → Option (List String × List Char)
  | 0, _ => none
  | limit + 1, cs => do
    let (segment, rest) ← simpleKey? (skipGaps cs)
    match skipGaps rest with
    | '.' :: rest =>
      let (segments, rest) ← key? limit rest
      return (segment :: segments, rest)
    | rest => return ([segment], rest)

def pair? (value : List Char → Option (Value × List Char)) (cs : List Char) :
    Option ((List String × String × Value) × List Char) := do
  let (path, rest) ← key? maxDepth cs
  let name ← path.getLast?
  let (v, rest) ← value (skipGaps (← after? '=' rest))
  return ((path.dropLast, name, v), rest)

def items? (value : List Char → Option (Value × List Char)) :
    Nat → List Char → Option (List Value × List Char)
  | 0, _ => none
  | fuel + 1, cs => do
    match ← skipLines false cs with
    | ']' :: rest => return ([], rest)
    | cs =>
      let (v, rest) ← value cs
      match ← skipLines false rest with
      | ']' :: rest => return ([v], rest)
      | ',' :: rest =>
        let (vs, rest) ← items? value fuel rest
        return (v :: vs, rest)
      | _ => none

def moreEntries? (value : List Char → Option (Value × List Char)) :
    Nat → List Char → Option (List (List String × String × Value) × List Char)
  | 0, _ => none
  | fuel + 1, cs => do
    let (entry, rest) ← pair? value cs
    match skipGaps rest with
    | '}' :: rest => return ([entry], rest)
    | ',' :: rest =>
      let (entries, rest) ← moreEntries? value fuel rest
      return (entry :: entries, rest)
    | _ => none

/-- The entries of an inline table up to its closing brace; no comma may follow the last one. -/
def inlineEntries? (value : List Char → Option (Value × List Char)) (cs : List Char) :
    Option (List (List String × String × Value) × List Char) :=
  match skipGaps cs with
  | '}' :: rest => some ([], rest)
  | cs => moreEntries? value (cs.length + 1) cs

/-- A value with at most `depth` collections around one another. -/
def value? : (depth : Nat) → List Char → Option (Value × List Char)
  | depth, cs =>
    match cs with
    | '"' :: _ | '\'' :: _ => (quotation true cs).map fun r => (.string r.1, r.2)
    | '[' :: rest =>
      match depth with
      | 0 => none
      | depth + 1 =>
        (items? (value? depth) (rest.length + 1) rest).map fun r => (.array r.1, r.2)
    | '{' :: rest =>
      match depth with
      | 0 => none
      | depth + 1 => do
        let (pairs, rest) ← inlineEntries? (value? depth) rest
        let entries ← Entries.insertAll [] pairs
        return (.table (finishEntries entries), rest)
    | 't' :: 'r' :: 'u' :: 'e' :: rest => some (.boolean true, rest)
    | 'f' :: 'a' :: 'l' :: 's' :: 'e' :: rest => some (.boolean false, rest)
    | _ => (afterNumber? cs).map fun rest => (.number, rest)

/-- A part of a document: the header, and the settings below it. Those before every header belong
to the document itself. -/
inductive Header
  | document
  | table (path : List String)
  | element (path : List String)

structure Section where
  header : Header
  pairs : List (List String × String × Value)

def header? (cs : List Char) : Option (Header × List Char) :=
  match cs with
  | '[' :: '[' :: rest => do
    let (path, rest) ← key? maxDepth rest
    let rest ← after? ']' (← after? ']' rest)
    return (.element path, rest)
  | '[' :: rest => do
    let (path, rest) ← key? maxDepth rest
    return (.table path, ← after? ']' rest)
  | _ => none

/-- The sections of a text, the last one first. -/
def sections? (done : List Section) (current : Section) :
    Nat → List Char → Option (List Section)
  | 0, _ => none
  | fuel + 1, cs => do
    match ← skipLines false cs with
    | [] => return current :: done
    | '[' :: rest =>
      let (header, rest) ← header? ('[' :: rest)
      sections? (current :: done) ⟨header, []⟩ fuel (← lineEnd? rest)
    | cs =>
      let (pair, rest) ← pair? (value? maxDepth) cs
      sections? done { current with pairs := current.pairs ++ [pair] } fuel (← lineEnd? rest)

/-- Adds a section to the document. A header defines its table, which may only be implied before;
a double one adds a table to its array. -/
def Section.add (es : Entries) (s : Section) : Option Entries :=
  match s.header with
  | .document => Entries.insertAll es s.pairs
  | .table path => do
    let name ← path.getLast?
    Entries.alter false (fun _ es => do
      match es.lookup name with
      | none =>
        let inner ← Entries.insertAll [] s.pairs
        return es.set name (.table false false inner)
      | some (.table true false inner) =>
        let inner ← Entries.insertAll inner s.pairs
        return es.set name (.table false false inner)
      | _ => none) false path.dropLast es
  | .element path => do
    let name ← path.getLast?
    Entries.alter false (fun _ es => do
      let inner ← Entries.insertAll [] s.pairs
      match es.lookup name with
      | none => return es.set name (.tables [inner])
      | some (.tables elements) => return es.set name (.tables (elements ++ [inner]))
      | _ => none) false path.dropLast es

/-- The settings of a document; a byte order mark in front is no part of it. -/
def read (text : String) : Option (List (String × Value)) := do
  let cs := match text.toList with
    | '\uFEFF' :: rest => rest
    | cs => cs
  let found ← sections? [] ⟨.document, []⟩ (cs.length + 1) cs
  let entries ← found.reverse.foldlM Section.add []
  return finishEntries entries

end VpdHeaders.Toml
