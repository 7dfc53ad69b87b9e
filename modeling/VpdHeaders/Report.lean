import VpdHeaders.Error
import VpdHeaders.Event

/-! # What a run shows -/
namespace VpdHeaders

inductive Failure
  | error (error : Error)
  | scope (fault : Scope.Fault)
  | unreadable (path : String) (fault : FileFault)
  | stale (path : String)
  | missing (path : String)

def Failure.message : Failure → String
  | .error e => e.message
  | .scope fault => fault.message
  | .unreadable path fault => "Failed to read " ++ path ++ ": " ++ fault.message
  | .stale path => path ++ " is out of date"
  | .missing path => path ++ " does not exist"

/-- What a run shows: events for the log, the path of a header that it wrote, a difference, and the
reason for which it failed. -/
inductive Report
  | event (event : Event)
  | generated (path : String)
  | difference (text : String)
  | failure (failure : Failure)

namespace Report

def output : Report → String
  | .generated path => "generated " ++ path ++ "\n"
  | _ => ""

/-- What goes to the standard error output, the log apart. -/
def errorOutput : Report → String
  | .difference text => text
  | .failure f => f.message ++ "\n"
  | _ => ""

end VpdHeaders.Report
