import VpdHeaders.Text.Fields

/-! # Texts made of lines -/
namespace VpdHeaders.Text

def unlines (lines : List String) : String := String.join (lines.map (· ++ "\n"))

/-- The lines of a text; a line feed at the very end starts no further line. -/
def linesOf (s : String) : List String :=
  let parts := fieldsOf '\n' s
  if parts.getLast? = some "" then parts.dropLast else parts

end VpdHeaders.Text
