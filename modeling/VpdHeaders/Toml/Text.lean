/-! # Characters, blanks and comments of a settings document -/
namespace VpdHeaders.Toml

def isGap (c : Char) : Bool := c == ' ' || c == '\t'

/-- A character that may stand in a comment or, quotation marks and backslashes apart, in a quoted
text: a tab, or no control character. -/
def isShown (c : Char) : Bool := c == '\t' || (0x20 ≤ c.toNat && c.toNat ≠ 0x7F)

def isBareKey (c : Char) : Bool := c.isAlphanum || c == '_' || c == '-'

def skipGaps (cs : List Char) : List Char := cs.dropWhile isGap

def afterBreak? : List Char → Option (List Char)
  | '\n' :: rest => some rest
  | '\r' :: '\n' :: rest => some rest
  | _ => none

def skipComment : List Char → List Char
  | '#' :: rest => rest.dropWhile isShown
  | cs => cs

/-- The rest of a line that holds nothing more than blanks and a comment. -/
def lineEnd? (cs : List Char) : Option (List Char) :=
  match skipComment (skipGaps cs) with
  | [] => some []
  | rest => afterBreak? rest

/-- Skips blanks, comments and line breaks; `inComment` holds after a number sign. Nothing is left
of a text in which a comment holds a control character or a carriage return stands alone. -/
def skipLines (inComment : Bool) : List Char → Option (List Char)
  | [] => some []
  | c :: rest =>
    if c == '\n' then skipLines false rest
    else if c == '\r' then if rest.head? == some '\n' then skipLines false rest else none
    else if inComment then if isShown c then skipLines true rest else none
    else if isGap c then skipLines false rest
    else if c == '#' then skipLines true rest
    else some (c :: rest)

def after? (c : Char) : List Char → Option (List Char)
  | d :: rest => if d == c then some rest else none
  | [] => none

end VpdHeaders.Toml
