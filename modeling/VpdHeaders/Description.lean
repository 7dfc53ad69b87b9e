import VpdHeaders.Text.Blank
import VpdHeaders.Traced

/-! # Reading a description level by level -/
namespace VpdHeaders.Description

/-- The entries of a mapping; a null stands for an empty one. -/
def entries (location : Location) (expected : Expectation) :
    Tree → Except Error (List (Tree × Tree))
  | .mapping entries => .ok entries
  | .null => .ok []
  | found => .error (.shape location expected found)

/-- The same entries, if all keys are strings; otherwise the first key that is none is refused. -/
def named (location : Location) : List (Tree × Tree) → Except Error (List (String × Tree))
  | [] => .ok []
  | (.string name, value) :: rest => (named location rest).map ((name, value) :: ·)
  | (key, _) :: _ => .error (.shape location .stringKey key)

def namedEntries (location : Location) (expected : Expectation) (t : Tree) :
    Traced (List (String × Tree)) :=
  Traced.lift (entries location expected t >>= named location)

/-- Whether the entry with this name is kept. A blank name is an error, or a warning where such
entries are skipped. -/
def keepsName (policy : EmptyPolicy) (kind : EntryKind) (location : Location) (name : String) :
    Traced Bool :=
  if !Text.isBlankText name then Traced.ok true
  else match policy with
    | .reject => Traced.fail (.emptyName location kind)
    | .skip => do
      Traced.log (.skippedName location kind)
      return false

/-- Reads entries one after the other and collects what they give. The reader of an entry knows what
the earlier ones gave. -/
def collect {α : Type} (read : List α → String → Tree → Traced (Option α)) (earlier : List α) :
    List (String × Tree) → Traced (List α)
  | [] => return []
  | (name, value) :: rest => do
    let first ← read earlier name value
    let others ← collect read (earlier ++ first.toList) rest
    return first.toList ++ others

end VpdHeaders.Description
