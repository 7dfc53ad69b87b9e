import VpdHeaders.OsError

/-! # What a run asks of a disk -/
namespace VpdHeaders

/-- The operations on files that a run needs. They may act on a disk or on a model of one; a
temporary file is known by a handle. -/
structure Disk (m : Type → Type) (Temporary : Type) where
  readText : String → ExceptT FileFault m String
  makeDirectory : String → ExceptT FileFault m Unit
  isDirectory : String → m Bool
  /-- A new file in a directory, which only its owner may read. -/
  createTemporary : String → ExceptT FileFault m Temporary
  temporaryPath : Temporary → String
  writeText : Temporary → String → ExceptT FileFault m Unit
  synchronize : Temporary → ExceptT FileFault m Unit
  setMode : Temporary → Nat → ExceptT FileFault m Unit
  /-- Gives a temporary file the place that a path names, in one step. -/
  rename : Temporary → String → ExceptT FileFault m Unit
  remove : Temporary → m Unit

end VpdHeaders
