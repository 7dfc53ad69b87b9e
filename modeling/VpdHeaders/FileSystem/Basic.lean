/-! # Files and directories as a value -/
namespace VpdHeaders

/-- The names that lead from the root to a file or directory. -/
abbrev Place := List String

structure File where
  contents : List UInt8
  mode : Nat
  deriving DecidableEq

inductive Entry
  | file (file : File)
  | directory
  deriving DecidableEq

/-- What lies where, and the place that paths without a slash in front start from. The root is a
directory without an entry. -/
structure FileSystem where
  entries : List (Place × Entry)
  workingDirectory : Place

namespace FileSystem

def ofName (workingDirectory : String) : FileSystem :=
  ⟨[([workingDirectory], .directory)], [workingDirectory]⟩

def find? (fs : FileSystem) (place : Place) : Option Entry :=
  if place = [] then some .directory else fs.entries.lookup place

def isDirectory (fs : FileSystem) (place : Place) : Bool := fs.find? place == some .directory

def put (fs : FileSystem) (place : Place) (entry : Entry) : FileSystem :=
  { fs with entries := (place, entry) :: fs.entries.filter (·.1 != place) }

def erase (fs : FileSystem) (place : Place) : FileSystem :=
  { fs with entries := fs.entries.filter (·.1 != place) }

/-- Without the entry at a place and everything below it. -/
def eraseTree (fs : FileSystem) (place : Place) : FileSystem :=
  { fs with entries := fs.entries.filter fun e => !place.isPrefixOf e.1 }

def namesIn (fs : FileSystem) (directory : Place) : List String :=
  fs.entries.filterMap fun e =>
    match e.1.getLast? with
    | some name => if e.1.dropLast = directory then some name else none
    | none => none

end VpdHeaders.FileSystem
