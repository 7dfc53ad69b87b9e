import VpdHeaders.Config
import VpdHeaders.Location

/-! # Log events -/
namespace VpdHeaders

inductive Level | error | warn | info | debug | trace
  deriving DecidableEq, Repr

def Level.name : Level → String
  | .error => "ERROR"
  | .warn => "WARN"
  | .info => "INFO"
  | .debug => "DEBUG"
  | .trace => "TRACE"

/-- How much a level lets through: an event passes if its own rank is no greater. -/
def Level.rank : Level → Nat
  | .error => 1
  | .warn => 2
  | .info => 3
  | .debug => 4
  | .trace => 5

inductive Event
  | resolvedConfig (config : Config)
  | loaded (path : String) (size : Nat)
  | skippedName (location : Location) (kind : EntryKind)
  | skippedValue (target : Target) (location : Location)
  | builtFru (name : String) (interfaces properties : Nat)
  | builtObject (path : String) (interfaces : Nat)
  | builtFrus (frus properties : Nat)
  | builtObjects (objects : Nat)
  | wroteHeader (path : String) (size : Nat)
  | generated (path : String)
  | upToDate (path : String)
  | failed (target : Target) (message : String)
  deriving DecidableEq, Repr

namespace Event

def level : Event → Level
  | .skippedName .. | .skippedValue .. => .warn
  | .builtFrus .. | .builtObjects .. | .generated .. | .upToDate .. => .info
  | .failed .. => .error
  | _ => .debug

def source : Event → String
  | .resolvedConfig .. | .generated .. | .upToDate .. | .failed .. => "fru_codegen_cli::generate"
  | .loaded .. => "fru_codegen_core::loader"
  | .skippedName .. => "fru_codegen_core::model::tree"
  | .skippedValue .writeFru _ | .builtFru .. => "fru_codegen_core::model::fru"
  | .skippedValue .extraProperties _ | .builtObject .. => "fru_codegen_core::model::extra"
  | .builtFrus .. | .builtObjects .. | .wroteHeader .. => "fru_codegen_core::generate"

def message : Event → String
  | .resolvedConfig .. => "Resolved configuration."
  | .loaded .. => "Loaded description document."
  | .skippedName .. => "Skipping entry with empty name."
  | .skippedValue .. => "Skipping property without a value."
  | .builtFru .. => "Built FRU."
  | .builtObject .. => "Built extra object."
  | .builtFrus .. => "Built FRU model."
  | .builtObjects .. => "Built extra-properties model."
  | .wroteHeader .. => "Wrote generated header."
  | .generated .. => "Generated header."
  | .upToDate .. => "Header is up to date."
  | .failed .. => "Generation failed."

/-- A field's value: shown as it is, or as a text that a log line puts in quotation marks. -/
inductive Value
  | plain (text : String)
  | quotable (text : String)
  deriving DecidableEq, Repr

def count (n : Nat) : Value := .plain (toString n)

def fields : Event → List (String × Value)
  | .resolvedConfig config => [("config", .plain config.text)]
  | .loaded path size => [("path", .plain path), ("len", count size)]
  | .skippedName location kind =>
    [("location", .plain location.text), ("kind", .quotable kind.name)]
  | .skippedValue _ location => [("location", .plain location.text)]
  | .builtFru name interfaces properties =>
    [("fru", .plain name), ("interfaces", count interfaces), ("properties", count properties)]
  | .builtObject path interfaces => [("path", .quotable path), ("interfaces", count interfaces)]
  | .builtFrus frus properties => [("frus", count frus), ("properties", count properties)]
  | .builtObjects objects => [("objects", count objects)]
  | .wroteHeader path size => [("path", .plain path), ("len", count size)]
  | .generated path => [("output", .plain path)]
  | .upToDate path => [("output", .plain path)]
  | .failed target message => [("target", .plain target.name), ("error", .plain message)]

/-- The level, the message and the fields, with every text as it is. -/
def summary (e : Event) : String :=
  let shown : String × Value → String
    | (name, .plain text) => " " ++ name ++ "=" ++ text
    | (name, .quotable text) => " " ++ name ++ "=" ++ text
  e.level.name ++ " " ++ e.message ++ String.join (e.fields.map shown)

/-- A line of the log, without the time. -/
def logLine (e : Event) : String :=
  let shown : String × Value → String
    | (name, .plain text) => " " ++ name ++ "=" ++ text
    | (name, .quotable text) => " " ++ name ++ "=" ++ Text.quoted text
  e.level.name ++ " " ++ e.source ++ ": " ++ e.message ++ String.join (e.fields.map shown)

end VpdHeaders.Event
