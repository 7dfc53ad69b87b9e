import VpdHeaders.Disk.Basic
import VpdHeaders.FileSystem.Access

/-! # A disk that is a value, with faults where one wants them -/
namespace VpdHeaders.FileSystem

inductive Operation
  | makeDirectory (path : String)
  | createTemporary
  | writeText
  | synchronize
  | setMode
  | rename
  deriving DecidableEq, Repr

/-- Which operations fail whatever the files are. -/
abbrev Faults := Operation → Option FileFault

def noFaults : Faults := fun _ => none

abbrev Action (α : Type) := ExceptT FileFault (StateM FileSystem) α

/-- Does nothing but fail if a fault is due. -/
def guarded {α : Type} (fault? : Option FileFault) (action : Action α) : Action α :=
  match fault? with
  | some fault => throw fault
  | none => action

/-- Takes the new files of a change that succeeds; one that fails leaves all as it is. -/
def change (f : FileSystem → Except FileFault FileSystem) : Action Unit := do
  match f (← get) with
  | .ok fs => set fs
  | .error fault => throw fault

/-- A disk on which a temporary file is known by its place. -/
def disk (faults : Faults) : Disk (StateM FileSystem) Place where
  readText path := do
    match (← get).readText path with
    | .ok text => return text
    | .error fault => throw fault
  makeDirectory path := guarded (faults (.makeDirectory path)) (change (·.makeDirectory path))
  isDirectory path := return (← get).leadsToDirectory path
  createTemporary path := guarded (faults .createTemporary) do
    match (← get).createTemporary path with
    | .ok (place, fs) =>
      set fs
      return place
    | .error fault => throw fault
  temporaryPath place := "/" ++ Text.joined "/" place
  writeText place text := guarded (faults .writeText) (change fun fs =>
    .ok (fs.modify place fun file => { file with contents := text.toUTF8.toList }))
  synchronize _ := guarded (faults .synchronize) (pure ())
  setMode place mode := guarded (faults .setMode) (change fun fs =>
    .ok (fs.modify place fun file => { file with mode := mode }))
  rename place path := guarded (faults .rename) (change (·.rename place path))
  remove place := modifyGet fun fs => ((), fs.erase place)

end VpdHeaders.FileSystem
