import VpdHeaders.FileSystem.Basic
import VpdHeaders.Text.Fields

/-! # What lies below the working directory, and what changed there -/
namespace VpdHeaders.FileSystem

def relative? (fs : FileSystem) (place : Place) : Option String :=
  if fs.workingDirectory.isPrefixOf place && place != fs.workingDirectory then
    some (Text.joined "/" (place.drop fs.workingDirectory.length))
  else none

/-- The paths of all that lies below the working directory, in byte order; directories end in a
slash. -/
def listing (fs : FileSystem) : List String :=
  let shown (e : Place × Entry) : Option String :=
    (fs.relative? e.1).map fun path => if e.2 = .directory then path ++ "/" else path
  (fs.entries.filterMap shown).mergeSort fun a b => decide (a ≤ b)

/-- The files below the working directory that `old` does not have just like this, in the byte order
of their paths. -/
def changesSince (fs old : FileSystem) : List (String × File) :=
  let changed (e : Place × Entry) : Option (String × File) :=
    match fs.relative? e.1, e.2 with
    | some path, .file file => if old.find? e.1 = some e.2 then none else some (path, file)
    | _, _ => none
  (fs.entries.filterMap changed).mergeSort fun a b => decide (a.1 ≤ b.1)

end VpdHeaders.FileSystem
