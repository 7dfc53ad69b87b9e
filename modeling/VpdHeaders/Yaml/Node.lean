import VpdHeaders.Yaml.Scan

/-! # The nodes of a document, with aliases not yet replaced -/
namespace VpdHeaders.Yaml

/-- A node as it is written. An alias stands for what its anchor's number will stand for at the end
of the document. -/
inductive Node
  | alias (anchor : Nat)
  | scalar (tag : Option TagText) (text : String) (style : Style)
  | sequence (tag : Option TagText) (items : List Node)
  | mapping (tag : Option TagText) (entries : List (Node × Node))

/-- Anchors so far. A name gets as its number how many different names stand before it, so a name
used again shares a number; a number stands for the node that took it last. Nodes are known by
their serial numbers. -/
structure Anchors where
  names : List (String × Nat)
  owners : List (Nat × Nat)
  nodes : List (Nat × Node)

namespace Anchors

def empty : Anchors := ⟨[], [], []⟩

def node? (a : Anchors) (anchor : Nat) : Option Node :=
  (a.owners.lookup anchor).bind fun serial => a.nodes.lookup serial

def define (a : Anchors) (name : String) (serial : Nat) : Anchors :=
  let number := a.names.length
  { a with
    names := (name, number) :: a.names.filter (fun e => e.1 != name)
    owners := (number, serial) :: a.owners }

end Anchors

/-- What is left to read, the tag handles of the document, its anchors, and how many nodes and
collection ends were met. -/
structure Composer where
  tokens : List Token
  handles : List (String × TagText)
  anchors : Anchors
  size : Nat

abbrev Compose := StateT Composer Option

namespace Compose

def fail {α : Type} : Compose α := fun _ => none

def peek : Compose (Option Token) := return (← get).tokens.head?

def skip : Compose Unit := modify fun c => { c with tokens := c.tokens.drop 1 }

def accept (t : Token) : Compose Bool := do
  if (← peek) == some t then
    skip
    return true
  return false

def count (n : Nat) : Compose Unit := modify fun c => { c with size := c.size + n }

/-- An empty plain scalar, where a node is left out. -/
def nothing : Compose Node := do
  count 1
  return .scalar none "" .plain

/-- Anchor and tag in front of a node, each at most once and in either order. -/
def properties : Compose (Option String × Option (String × TagText)) := do
  match ← peek with
  | some (.anchor name) =>
    skip
    match ← peek with
    | some (.tag handle suffix) =>
      skip
      return (some name, some (handle, suffix))
    | _ => return (some name, none)
  | some (.tag handle suffix) =>
    skip
    match ← peek with
    | some (.anchor name) =>
      skip
      return (some name, some (handle, suffix))
    | _ => return (none, some (handle, suffix))
  | _ => return (none, none)

def resolveTag : Option (String × TagText) → Compose (Option TagText)
  | none => return none
  | some ("", suffix) => return some suffix
  | some (handle, suffix) => do
    match (← get).handles.lookup handle with
    | none => fail
    | some expansion => return some (expansion ++ suffix)

mutual

/-- A node. Block collections are allowed where `block` holds, and a sequence without indentation
of its own where `indentless` does. -/
def node : Nat → (block indentless : Bool) → Compose Node
  | 0, _, _ => fail
  | fuel + 1, block, indentless => do
    if let some (.alias name) := ← peek then
      skip
      count 1
      match (← get).anchors.names.lookup name with
      | none => fail
      | some anchor => return .alias anchor
    else
      let (anchor, tag) ← properties
      let tag ← resolveTag tag
      let serial := (← get).size
      if let some name := anchor then
        modify fun c => { c with anchors := c.anchors.define name serial }
      let bare := anchor.isNone && tag.isNone
      let made ← content fuel block indentless bare tag
      if anchor.isSome then
        modify fun c =>
          { c with anchors := { c.anchors with nodes := (serial, made) :: c.anchors.nodes } }
      return made

def content : Nat → (block indentless bare : Bool) → Option TagText → Compose Node
  | 0, _, _, _, _ => fail
  | fuel + 1, block, indentless, bare, tag => do
    match ← peek with
    | some (.scalar text style) =>
      skip
      count 1
      return .scalar tag text style
    | some .flowSequenceStart =>
      skip
      count 2
      return .sequence tag (← flowItems fuel true)
    | some .flowMappingStart =>
      skip
      count 2
      return .mapping tag (← flowEntries fuel true)
    | next =>
      if indentless && next == some .blockEntry then
        count 2
        return .sequence tag (← indentlessItems fuel)
      else if block && next == some .blockSequenceStart then
        skip
        count 2
        return .sequence tag (← blockItems fuel)
      else if block && next == some .blockMappingStart then
        skip
        count 2
        return .mapping tag (← blockEntries fuel)
      else if bare then fail
      else
        count 1
        return .scalar tag "" .plain

def nodeUnless : Nat → List Token → (block indentless : Bool) → Compose Node
  | 0, _, _, _ => fail
  | fuel + 1, ends, block, indentless => do
    if (← peek).any ends.contains then nothing else node fuel block indentless

def blockItems : Nat → Compose (List Node)
  | 0 => fail
  | fuel + 1 => do
    if ← accept .blockEntry then
      let item ← nodeUnless fuel [.blockEntry, .blockEnd] true false
      return item :: (← blockItems fuel)
    else if ← accept .blockEnd then return []
    else fail

def indentlessItems : Nat → Compose (List Node)
  | 0 => fail
  | fuel + 1 => do
    if ← accept .blockEntry then
      let item ← nodeUnless fuel [.blockEntry, .key, .value, .blockEnd] true false
      return item :: (← indentlessItems fuel)
    else return []

def blockEntries : Nat → Compose (List (Node × Node))
  | 0 => fail
  | fuel + 1 => do
    if ← accept .key then
      let key ← nodeUnless fuel [.key, .value, .blockEnd] true true
      let value ← if ← accept .value then nodeUnless fuel [.key, .value, .blockEnd] true true
        else nothing
      return (key, value) :: (← blockEntries fuel)
    else if ← accept .blockEnd then return []
    else fail

/-- The items of a flow sequence. A key among them makes a mapping with this one entry; if the key
is left out, what stands in its place is passed over. -/
def flowItems : Nat → Bool → Compose (List Node)
  | 0, _ => fail
  | fuel + 1, first => do
    if ← accept .flowSequenceEnd then return []
    if !first then
      if !(← accept .flowEntry) then fail
    if ← accept .key then
      count 2
      let key ← if (← peek).any [Token.value, .flowEntry, .flowSequenceEnd].contains then do
          skip
          nothing
        else node fuel false false
      let value ← if ← accept .value then nodeUnless fuel [.flowEntry, .flowSequenceEnd] false false
        else nothing
      return .mapping none [(key, value)] :: (← flowItems fuel false)
    if ← accept .flowSequenceEnd then return []
    let item ← node fuel false false
    return item :: (← flowItems fuel false)

def flowEntries : Nat → Bool → Compose (List (Node × Node))
  | 0, _ => fail
  | fuel + 1, first => do
    if ← accept .flowMappingEnd then return []
    if !first then
      if !(← accept .flowEntry) then fail
    if ← accept .key then
      let key ← nodeUnless fuel [.value, .flowEntry, .flowMappingEnd] false false
      let value ← if ← accept .value then nodeUnless fuel [.flowEntry, .flowMappingEnd] false false
        else nothing
      return (key, value) :: (← flowEntries fuel false)
    if ← accept .flowMappingEnd then return []
    let key ← node fuel false false
    let value ← nothing
    return (key, value) :: (← flowEntries fuel false)

end

/-- The directives in front of a document: one version at most, which must be 1.1 or 1.2, and each
tag handle at most once. -/
def directives (versioned : Bool) : Nat → Compose Unit
  | 0 => fail
  | fuel + 1 => do
    match ← peek with
    | some (.version major minor) =>
      if versioned || major != 1 || (minor != 1 && minor != 2) then fail
      skip
      directives true fuel
    | some (.tagHandle handle expansion) =>
      if (← get).handles.any (fun h => h.1 == handle) then fail
      modify fun c => { c with handles := c.handles ++ [(handle, expansion)] }
      skip
      directives versioned fuel
    | _ => return ()

/-- The handles that need no directive; a directive may redefine them. -/
def standardHandles : List (String × TagText) :=
  [("!", [Tag.octet '!']), ("!!", "tag:yaml.org,2002:".toList.map Tag.octet)]

def isDocumentToken : Token → Bool
  | .version .. | .tagHandle .. | .documentStart | .documentEnd => true
  | _ => false

/-- The only document of a stream. Without directives its start needs no marker. -/
def document (fuel : Nat) : Compose Node := do
  let explicit := match ← peek with
    | some (.version ..) | some (.tagHandle ..) | some .documentStart => true
    | _ => false
  if explicit then
    directives false fuel
    if !(← accept .documentStart) then fail
  modify fun c => { c with handles := c.handles ++ standardHandles }
  let left := (← peek).all isDocumentToken
  let root ← if explicit && left then nothing else node fuel true false
  modify fun c => { c with tokens := c.tokens.dropWhile (· == .documentEnd) }
  if (← peek).isSome then fail
  return root

end Compose

/-- The root of a document, its anchors and its size; an empty stream has no root. -/
def compose (ts : List Token) : Option (Option Node × Anchors × Nat) :=
  if ts.isEmpty then some (none, Anchors.empty, 0)
  else
    (Compose.document (4 * ts.length + 8) ⟨ts, [], Anchors.empty, 0⟩).map fun r =>
      (some r.1, r.2.anchors, r.2.size)

end VpdHeaders.Yaml
