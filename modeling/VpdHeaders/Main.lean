import VpdHeaders.CommandLine.Help
import VpdHeaders.Log.Filter
import VpdHeaders.Run

/-! # The program: runs on the disk of the machine -/
namespace VpdHeaders

/-- The number of a failure; some operations give it with the sign turned. -/
def failureNumber (code : UInt32) : Nat := (min code (0 - code)).toNat

/-- The number and the text of a failure, as the system gives them. -/
def systemFailure : IO.Error → Nat × String
  | .alreadyExists _ code text | .interrupted _ code text | .noFileOrDirectory _ code text
  | .invalidArgument _ code text | .permissionDenied _ code text
  | .resourceExhausted _ code text | .inappropriateType _ code text
  | .noSuchThing _ code text => (failureNumber code, text)
  | .otherError code text | .resourceBusy code text | .resourceVanished code text
  | .unsupportedOperation code text | .hardwareFault code text
  | .unsatisfiedConstraints code text | .illegalOperation code text | .protocolError code text
  | .timeExpired code text => (failureNumber code, text)
  | .unexpectedEof => (0, "unexpected end of file")
  | .userError text => (0, text)

def onDisk {α : Type} (action : IO α) : ExceptT FileFault IO α :=
  ExceptT.mk do
    match ← action.toBaseIO with
    | .ok a => return .ok a
    | .error e =>
      let (code, text) := systemFailure e
      return .error (.system (.ofCode code text))

def accessRight (bits : Nat) : IO.AccessRight :=
  ⟨bits.testBit 2, bits.testBit 1, bits.testBit 0⟩

def fileRight (mode : Nat) : IO.FileRight :=
  ⟨accessRight (mode >>> 6), accessRight (mode >>> 3), accessRight mode⟩

def readFile (path : String) : ExceptT FileFault IO String := do
  match String.fromUTF8? (← onDisk (IO.FS.readBinFile path)) with
  | some text => return text
  | none => throw .notText

/-- The disk of the machine. A temporary file is known by its path. -/
def machineDisk : Disk IO String where
  readText := readFile
  makeDirectory path := onDisk (IO.FS.createDir path)
  isDirectory path := do
    return match ← (readFile path).run with
      | .error (.system .isDirectory) => true
      | _ => false
  createTemporary directory := do
    let path := directory ++ "/.tmp" ++ toString (← IO.rand 0 999999999999)
    onDisk do
      let _ ← IO.FS.Handle.mk path .writeNew
      IO.setAccessRights path (fileRight 0o600)
    return path
  temporaryPath path := path
  writeText path text := onDisk (IO.FS.writeFile path text)
  synchronize _ := pure ()
  setMode path mode := onDisk (IO.setAccessRights path (fileRight mode))
  rename temporary path := onDisk (IO.FS.rename temporary path)
  remove path := do
    let _ ← (IO.FS.removeFile path).toBaseIO

def showReports (filter : Log.Filter) (reports : List Report) : IO Unit :=
  reports.forM fun r => do
    match r with
    | .event e => if filter.shows e then IO.eprintln e.logLine
    | _ => pure ()
    IO.print r.output
    IO.eprint r.errorOutput

end VpdHeaders

open VpdHeaders in
def main (words : List String) : IO UInt32 := do
  let (filter, faults) := Log.Filter.ofRequest (← IO.getEnv "FRU_CODEGEN_LOG")
  faults.forM fun f => IO.eprintln (Log.Filter.faultLine f.1 f.2)
  match CommandLine.read words with
  | .error reply =>
    IO.print reply.output
    IO.eprint reply.errorOutput
    return reply.exitCode.toUInt32
  | .ok invocation =>
    let onTerminal ← (← IO.getStderr).isTty
    let (reports, succeeded) ← machineDisk.perform invocation onTerminal
    showReports filter reports
    return (Run.exitCode succeeded).toUInt32
