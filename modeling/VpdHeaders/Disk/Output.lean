import VpdHeaders.Disk.Basic
import VpdHeaders.Error
import VpdHeaders.Path

/-! # Writing a file all at once -/
namespace VpdHeaders.Disk

variable {m : Type → Type} [Monad m] {Temporary : Type}

/-- Lets a fault pass where there is a directory after all. -/
def unlessDirectory (disk : Disk m Temporary) (path : String) (fault : FileFault) :
    ExceptT FileFault m Unit := do
  if !(← disk.isDirectory path) then throw fault

/-- Creates the first of these directories. Each lies in the next, which is created before it if it
is missing; the empty path needs nothing. -/
def createDirectories (disk : Disk m Temporary) : List String → ExceptT FileFault m Unit
  | [] => throw (.system .notFound)
  | path :: above =>
    if path.isEmpty then pure ()
    else tryCatch (disk.makeDirectory path) fun fault =>
      if fault = .system .notFound then do
        disk.createDirectories above
        tryCatch (disk.makeDirectory path) (disk.unlessDirectory path)
      else disk.unlessDirectory path fault

/-- The directory that a file goes to; the working directory for a bare name. -/
def directoryOf (path : String) : String :=
  match Path.parent? path with
  | some parent => if parent.isEmpty then "." else parent
  | none => "."

def headerMode : Nat := 0o644

def fill (disk : Disk m Temporary) (temporary : Temporary) (path text : String) :
    ExceptT Error m Unit := do
  ExceptT.adapt (.write (disk.temporaryPath temporary)) do
    disk.writeText temporary text
    disk.synchronize temporary
    disk.setMode temporary headerMode
  ExceptT.adapt (.write path) (disk.rename temporary path)

/-- Makes `text` what the file at `path` holds. The text goes to a temporary file in the same
directory first, so the file never holds a part of it; a failure removes the temporary file. -/
def writeOutput (disk : Disk m Temporary) (path text : String) : ExceptT Error m Unit := do
  let directory := directoryOf path
  if Path.ancestors path ≠ [] then
    ExceptT.adapt (.write directory) (disk.createDirectories (Path.ancestors path))
  let temporary ← ExceptT.adapt (.write directory) (disk.createTemporary directory)
  tryCatch (disk.fill temporary path text) fun error => do
    disk.remove temporary
    throw error

end VpdHeaders.Disk
