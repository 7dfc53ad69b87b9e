import VpdHeaders.FileSystem.Basic
import VpdHeaders.OsError
import VpdHeaders.Path

/-! # What can be done with the files and directories that paths lead to -/
namespace VpdHeaders.FileSystem

/-- A name may have fewer bytes than this. -/
def nameLimit : Nat := 256

def pathLimit : Nat := 4096

/-- The place that a name has in a directory, whether or not anything is there. -/
def placeIn (directory : Place) (name : String) : Except OsError Place :=
  if nameLimit ≤ name.utf8ByteSize then .error .nameTooLong else .ok (directory ++ [name])

/-- Goes along one field of a path. Only a directory can be gone through. -/
def step (fs : FileSystem) (place : Place) (field : String) : Except OsError Place :=
  if !fs.isDirectory place then .error .notDirectory
  else if !Path.isName field then .ok place
  else if field = ".." then .ok place.dropLast
  else do
    let next ← placeIn place field
    if (fs.find? next).isNone then .error .notFound
    return next

/-- Goes along fields, from the root or from the working directory. -/
def follow (fs : FileSystem) (path : String) (fields : List String) : Except OsError Place :=
  if path.isEmpty then .error .notFound
  else if pathLimit ≤ path.utf8ByteSize then .error .nameTooLong
  else fields.foldlM fs.step (if Path.isAbsolute path then [] else fs.workingDirectory)

def locate (fs : FileSystem) (path : String) : Except OsError Place :=
  fs.follow path (Path.fields path)

/-- The place that a path names in a directory, whether or not anything is there; nothing for a path
that ends in no name. -/
def slot (fs : FileSystem) (path : String) : Except OsError (Option Place) :=
  match Path.lastField? path with
  | none => (fs.follow path []).map fun _ => none
  | some (before, last) => do
    let directory ← fs.follow path before
    if !fs.isDirectory directory then .error .notDirectory
    if last = "." ∨ last = ".." then return none
    return some (← placeIn directory last)

def readText (fs : FileSystem) (path : String) : Except FileFault String :=
  if path.toList.contains '\x00' then .error .nulInPath
  else do
    let place ← (fs.locate path).mapError .system
    match fs.find? place with
    | some (.file file) =>
      match String.fromUTF8? ⟨file.contents.toArray⟩ with
      | some text => return text
      | none => .error .notText
    | _ => .error (.system .isDirectory)

def makeDirectory (fs : FileSystem) (path : String) : Except FileFault FileSystem :=
  if path.toList.contains '\x00' then .error .nulInPath
  else do
    match ← (fs.slot path).mapError .system with
    | none => .error (.system .alreadyExists)
    | some place =>
      if (fs.find? place).isSome then .error (.system .alreadyExists)
      return fs.put place .directory

def leadsToDirectory (fs : FileSystem) (path : String) : Bool :=
  match fs.locate path with
  | .ok place => fs.isDirectory place
  | .error _ => false

/-- A name that is longer than any in use in a directory, so that it is free. -/
def freshName (fs : FileSystem) (directory : Place) : String :=
  ".tmp" ++ String.join (fs.namesIn directory)

/-- A new empty file in the directory that a path leads to, open to its owner only. -/
def createTemporary (fs : FileSystem) (path : String) : Except FileFault (Place × FileSystem) := do
  let directory ← (fs.locate path).mapError .system
  if !fs.isDirectory directory then .error (.system .notDirectory)
  let place := directory ++ [fs.freshName directory]
  return (place, fs.put place (.file ⟨[], 0o600⟩))

def modify (fs : FileSystem) (place : Place) (change : File → File) : FileSystem :=
  match fs.find? place with
  | some (.file file) => fs.put place (.file (change file))
  | _ => fs

/-- Moves the file at a place to where a path leads; a file that was there is replaced. -/
def rename (fs : FileSystem) (source : Place) (path : String) : Except FileFault FileSystem :=
  if path.toList.contains '\x00' then .error (.system .invalid)
  else do
    match ← (fs.slot path).mapError .system with
    | none => .error (.system .busy)
    | some place =>
      if Path.endsInSlash path then .error (.system .notDirectory)
      if fs.isDirectory place then .error (.system .isDirectory)
      match fs.find? source with
      | some entry => return (fs.erase source).put place entry
      | none => .error (.system .notFound)

end VpdHeaders.FileSystem
