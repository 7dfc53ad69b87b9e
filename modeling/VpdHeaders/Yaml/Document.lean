import VpdHeaders.Yaml.Node
import VpdHeaders.Yaml.Resolve

/-! # The value of a document -/
namespace VpdHeaders.Yaml

def maxDepth : Nat := 128

/-- How many aliases may be followed for every node and collection end of the document. -/
def aliasFactor : Nat := 100

abbrev Expansion := StateT Nat Option

namespace Expansion

def fail {α : Type} : Expansion α := fun _ => none

def ofOption {α : Type} (o : Option α) : Expansion α := fun n => o.map fun a => (a, n)

end Expansion

def tagText? (t : TagText) : Option String := String.fromUTF8? ⟨t.toArray⟩

/-- The name of a local tag: the text after its `!`, or the bare mark itself. -/
def localTag? : Option TagText → Option String
  | some (33 :: rest) => tagText? (if rest.isEmpty then [33] else rest)
  | _ => none

def isLocal : TagText → Bool
  | 33 :: _ => true
  | _ => false

def Node.tag : Node → Option TagText
  | .alias _ => none
  | .scalar tag .. | .sequence tag _ | .mapping tag _ => tag

/-- A scalar with a tag that is not local. The four tags of scalars convert the text however it is
written; any other makes it a string. -/
def taggedScalar (tag : TagText) (text : String) (style : Style) : Option Tree :=
  let named (s : String) : Bool := tag == ("tag:yaml.org,2002:" ++ s).toList.map Tag.octet
  if named "bool" then Resolve.boolean? text
  else if named "int" then
    match Resolve.integer text.toList with
    | .value n => some (.integer n)
    | _ => none
  else if named "float" then (Resolve.float? text).map .float
  else if named "null" then Resolve.null? text
  else if isLocal tag && style == .plain then Resolve.plain text
  else some (.string text)

/-- A scalar. Below a local tag its own tag says nothing. -/
def scalar (tagged : Bool) (tag : Option TagText) (text : String) (style : Style) : Option Tree :=
  match tag, tagged with
  | some tag, false => taggedScalar tag text style
  | _, _ => if style == .plain then Resolve.plain text else some (.string text)

def distinct (seen : List (Tree × Tree)) : List (Tree × Tree) → Option (List (Tree × Tree))
  | [] => some seen.reverse
  | e :: rest => if seen.any fun d => Tree.same d.1 e.1 then none else distinct (e :: seen) rest

/-- The node that an alias leads to, counted against the limit. -/
def follow (anchors : Anchors) (limit : Nat) (anchor : Nat) : Expansion Node := do
  let followed := (← get) + 1
  set followed
  if limit < followed then Expansion.fail
  Expansion.ofOption (anchors.node? anchor)

/-- The value of a node that is no alias, given how to read the nodes inside it, unless that would
be too deep. `tagged` holds below a local tag, for the node itself and for the keys in it. -/
def contentTree (inside : Option (Bool → Node → Expansion Tree)) (tagged : Bool) :
    Node → Expansion Tree
  | .alias _ => Expansion.fail
  | .scalar tag text style => Expansion.ofOption (scalar tagged tag text style)
  | .sequence _ items =>
    match inside with
    | none => Expansion.fail
    | some inside => return .sequence (← items.mapM (inside false))
  | .mapping _ entries =>
    match inside with
    | none => Expansion.fail
    | some inside => do
      let read ← entries.mapM fun e => do
        let key ← inside tagged e.1
        let value ← inside false e.2
        return (key, value)
      return .mapping (← Expansion.ofOption (distinct [] read))

def nodeTree (anchors : Anchors) (limit : Nat)
    (inside : Option (Bool → Node → Expansion Tree)) (tagged : Bool) (n : Node) :
    Expansion Tree := do
  let (tagged, n) ← match n with
    | .alias anchor => do pure (false, ← follow anchors limit anchor)
    | _ => pure (tagged, n)
  match localTag? n.tag, tagged with
  | some name, false => return .tagged name (← contentTree inside true n)
  | _, _ => contentTree inside tagged n

/-- The value of a node in which collections may still be nested `depth` deep. -/
def treeOf (anchors : Anchors) (limit : Nat) : Nat → Bool → Node → Expansion Tree
  | 0 => nodeTree anchors limit none
  | depth + 1 => nodeTree anchors limit (some (treeOf anchors limit depth))

/-- Reads the one document of a text. A text without any is null. -/
def read (text : String) : Option Tree := do
  let (root, anchors, size) ← compose (← tokens text)
  match root with
  | none => return .null
  | some root =>
    let (t, _) ← treeOf anchors (aliasFactor * size) maxDepth false root 0
    return t

end VpdHeaders.Yaml
