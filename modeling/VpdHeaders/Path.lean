import VpdHeaders.Text.Fields

/-! # Paths: texts whose fields stand between slashes -/
namespace VpdHeaders.Path

def fields (path : String) : List String := Text.fieldsOf '/' path

def isAbsolute (path : String) : Bool := path.toList.head? == some '/'

/-- A field that names something, unlike an empty one or a single dot. -/
def isName (field : String) : Bool := field != "" && field != "."

/-- What a path starts from: the root, a dot of its own, or nothing that is written. -/
inductive Start | root | dot | bare
  deriving DecidableEq, Repr

namespace Start

def text : Start → String
  | .root => "/"
  | .dot => "."
  | .bare => ""

/-- The paths that are left when every field is gone. -/
def chain : Start → List String
  | .root => ["/"]
  | .dot => [".", ""]
  | .bare => [""]

end Start

/-- The start of a path and the fields that follow it. -/
def parts (path : String) : Start × List String :=
  match fields path with
  | "" :: rest@(_ :: _) => (.root, rest)
  | "." :: rest => (.dot, if rest.isEmpty then [] else "" :: rest)
  | all => (.bare, all)

/-- A path with this start whose fields, last one first, are these; behind it, nearest first, the
paths of the directories that it lies in. Fields at the end that name nothing are dropped. -/
def chainFrom (start : Start) : List String → List String
  | [] => start.chain
  | field :: rest =>
    if isName field then
      (start.text ++ Text.joined "/" (field :: rest).reverse) :: chainFrom start rest
    else chainFrom start rest

/-- The path and those of the directories that it lies in, up to the root or the empty path. -/
def chain (path : String) : List String :=
  let (start, fields) := parts path
  chainFrom start fields.reverse

/-- The paths of the directories that a path lies in, nearest first. -/
def ancestors (path : String) : List String := (chain path).drop 1

/-- The directory that a path lies in. The root lies in none, and neither does the empty path. -/
def parent? (path : String) : Option String := (ancestors path).head?

/-- The last field of a path and those before it. Slashes at the end do not count. -/
def lastField? (path : String) : Option (List String × String) :=
  match (fields path).reverse.dropWhile (· == "") with
  | [] => none
  | last :: before => some (before.reverse, last)

def endsInSlash (path : String) : Bool := path.toList.getLast? == some '/'

end VpdHeaders.Path
