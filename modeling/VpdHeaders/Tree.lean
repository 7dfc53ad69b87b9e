import VpdHeaders.Decimal.Shortest

/-! # Description documents as trees of values -/
namespace VpdHeaders

/-- What a document says. A mapping keeps the order in which its entries were written. -/
inductive Tree where
  | null
  | boolean (value : Bool)
  | integer (value : Int)
  | float (value : Binary64)
  | string (value : String)
  | sequence (items : List Tree)
  | mapping (entries : List (Tree × Tree))
  | tagged (tag : String) (content : Tree)

namespace Tree

/-- A null, also beneath tags. -/
def isNull : Tree → Bool
  | .null => true
  | .tagged _ content => content.isNull
  | _ => false

/-- A signed 64-bit integer, also beneath tags. -/
def int64? : Tree → Option Int64
  | .integer n =>
    if Int64.minValue.toInt ≤ n ∧ n ≤ Int64.maxValue.toInt then some (Int64.ofInt n) else none
  | .tagged _ content => content.int64?
  | _ => none

def kind : Tree → String
  | .null => "null"
  | .boolean b => "boolean " ++ (if b then "true" else "false")
  | .integer n => "number " ++ toString n
  | .float x => "number " ++ x.text
  | .string s => "string '" ++ s ++ "'"
  | .sequence _ => "sequence"
  | .mapping _ => "mapping"
  | .tagged tag _ => "tagged value !" ++ tag

mutual

/-- Equality of values: numbers by value, mappings in any order. -/
def same : Tree → Tree → Bool
  | .null, .null => true
  | .boolean a, .boolean b => a == b
  | .integer a, .integer b => a == b
  | .float x, .float y => x.same y
  | .string s, .string t => s == t
  | .sequence xs, .sequence ys => sameItems xs ys
  | .mapping xs, .mapping ys => xs.length == ys.length && entriesWithin xs ys
  | .tagged s x, .tagged t y => s == t && same x y
  | _, _ => false

def sameItems : List Tree → List Tree → Bool
  | [], [] => true
  | x :: xs, y :: ys => same x y && sameItems xs ys
  | _, _ => false

/-- Every entry of the first list has an equal one in the second. -/
def entriesWithin : List (Tree × Tree) → List (Tree × Tree) → Bool
  | [], _ => true
  | (k, v) :: rest, ys =>
    ys.any (fun e => same k e.1 && same v e.2) && entriesWithin rest ys

end

end VpdHeaders.Tree
