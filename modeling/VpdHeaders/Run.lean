import VpdHeaders.CommandLine.Reading
import VpdHeaders.Config.File
import VpdHeaders.Diff.Unified
import VpdHeaders.Disk.Output
import VpdHeaders.Fru.Header
import VpdHeaders.Inventory.Header
import VpdHeaders.Report
import VpdHeaders.Yaml.Document

/-! # Runs: settings, description, header, and what becomes of it -/
namespace VpdHeaders

/-- A computation that reports what it does and may fail. A failure keeps the reports. -/
abbrev Run (m : Type → Type) := ExceptT Failure (StateT (List Report) m)

namespace Run

variable {m : Type → Type} [Monad m] {α ε : Type}

def report (r : Report) : Run m Unit := modify (· ++ [r])

def log (e : Event) : Run m Unit := report (.event e)

def orFail (failure : ε → Failure) (r : Except ε α) : Run m α :=
  match r with
  | .ok a => pure a
  | .error e => throw (failure e)

def ofDisk (failure : ε → Failure) (action : ExceptT ε m α) : Run m α := do
  let r : Except ε α ← (action.run : m (Except ε α))
  orFail failure r

def ofTraced (t : Traced α) : Run m α := do
  t.events.forM log
  orFail .error t.result

def exitCode (succeeded : Bool) : Nat := if succeeded then 0 else 1

end Run

namespace Config

/-- The command line over the settings. Of the paths, only those of the chosen header are concerned;
a namespace that cannot be read is a fault. -/
def withFlags (c : Config) (flags : Invocation) : Except Scope.Fault Config := do
  let paths := c.paths flags.target
  let c := c.withPaths ⟨flags.input.getD paths.input, flags.output.getD paths.output⟩ flags.target
  let scope ← match flags.scope with
    | none => pure c.scope
    | some spec => Scope.parse spec
  return { c with scope := scope, policy := if flags.lenient then .skip else c.policy }

end Config

def render (config : Config) : Target → Tree → Traced String
  | .writeFru => Fru.render config.scope config.policy
  | .extraProperties => Inventory.render config.scope config.policy

namespace Disk

variable {m : Type → Type} [Monad m] {Temporary : Type}

def loadConfig (disk : Disk m Temporary) (path : String) : Run m Config := do
  let failure (fault : ConfigFault) : Failure := .error (.config path fault)
  let text ← Run.ofDisk (fun fault => failure (.unreadable fault)) (disk.readText path)
  Run.orFail failure (Config.ofText text)

def loadDescription (disk : Disk m Temporary) (path : String) : Run m Tree := do
  let text ← Run.ofDisk (fun fault => .error (.load path fault)) (disk.readText path)
  Run.log (.loaded path text.utf8ByteSize)
  match Yaml.read text with
  | some t => return t
  | none => throw (.error (.malformed path))

/-- The command line over the settings file, if there is one, over the standard settings. -/
def resolveConfig (disk : Disk m Temporary) (flags : Invocation) : Run m Config := do
  let base ← match flags.config with
    | some path => disk.loadConfig path
    | none => pure Config.standard
  let config ← Run.orFail .scope (base.withFlags flags)
  Run.log (.resolvedConfig config)
  return config

/-- Compares a header with the file that should hold it. On a terminal, the difference is coloured. -/
def checkHeader (disk : Disk m Temporary) (onTerminal : Bool) (path header : String) :
    Run m Unit := do
  let unread (fault : FileFault) : Failure :=
    if fault = .system .notFound then .missing path else .unreadable path fault
  let existing ← Run.ofDisk unread (disk.readText path)
  if existing = header then Run.log (.upToDate path)
  else do
    match Diff.unified? path existing header onTerminal with
    | some text => Run.report (.difference text)
    | none => pure ()
    throw (.stale path)

def writeHeader (disk : Disk m Temporary) (path header : String) : Run m Unit := do
  Run.ofDisk .error (disk.writeOutput path header)
  Run.log (.wroteHeader path header.utf8ByteSize)

def generate (disk : Disk m Temporary) (flags : Invocation) (onTerminal : Bool) : Run m Unit := do
  let config ← disk.resolveConfig flags
  let paths := config.paths flags.target
  let header ← Run.ofTraced (render config flags.target (← disk.loadDescription paths.input))
  if flags.check then disk.checkHeader onTerminal paths.output header
  else do
    disk.writeHeader paths.output header
    Run.log (.generated paths.output)
    Run.report (.generated paths.output)

/-- All that a run reports, and whether it succeeds. A failure is reported last. The run is told
whether its errors go to a terminal. -/
def perform (disk : Disk m Temporary) (flags : Invocation) (onTerminal : Bool := false) :
    m (List Report × Bool) := do
  let (result, reports) ← (disk.generate flags onTerminal).run.run []
  match result with
  | .ok () => return (reports, true)
  | .error failure =>
    return (reports ++ [.event (.failed flags.target failure.message), .failure failure], false)

end VpdHeaders.Disk
