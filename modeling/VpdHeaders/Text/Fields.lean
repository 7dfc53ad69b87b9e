/-! # Cutting a text at a separator and joining the parts again -/
namespace VpdHeaders.Text

/-- The parts of `cs` between occurrences of `sep`; there is always at least one part. -/
def fields (sep : Char) : List Char → List (List Char)
  | [] => [[]]
  | c :: cs => if c = sep then [] :: fields sep cs else (fields sep cs).modifyHead (c :: ·)

/-- The parts of a text between pairs of colons; the leftmost pair is taken first. -/
def colonFields : List Char → List (List Char)
  | [] => [[]]
  | [c] => [[c]]
  | c :: d :: cs =>
    if c = ':' ∧ d = ':' then [] :: colonFields cs
    else (colonFields (d :: cs)).modifyHead (c :: ·)

def fieldsOf (sep : Char) (s : String) : List String := (fields sep s.toList).map String.ofList

def joined (sep : String) : List String → String
  | [] => ""
  | [s] => s
  | s :: t :: rest => s ++ sep ++ joined sep (t :: rest)

end VpdHeaders.Text
