import VpdHeaders.Config
import VpdHeaders.Error
import VpdHeaders.Toml.Document

/-! # Settings from a file -/
namespace VpdHeaders.Config

structure PathSettings where
  input : Option String
  output : Option String
  deriving DecidableEq, Repr

structure Settings where
  scope : Option (List String)
  lenient : Option Bool
  writeFru : PathSettings
  extraProperties : PathSettings
  deriving DecidableEq, Repr

namespace Settings

def string? : Toml.Value → Option String
  | .string s => some s
  | _ => none

def boolean? : Toml.Value → Option Bool
  | .boolean b => some b
  | _ => none

def strings? : Toml.Value → Option (List String)
  | .array items => items.mapM string?
  | _ => none

/-- Nothing if the value is missing; a value of the wrong kind is refused. -/
def optional {α : Type} (read : Toml.Value → Option α) : Option Toml.Value → Option (Option α)
  | none => some none
  | some v => (read v).map some

/-- Paths are a table, or an array of input and output; what follows in the array is ignored. -/
def paths? : Option Toml.Value → Option PathSettings
  | none => some ⟨none, none⟩
  | some (.table entries) => do
    if !entries.all fun e => ["input", "output"].contains e.1 then none
    let input ← optional string? (entries.lookup "input")
    let output ← optional string? (entries.lookup "output")
    return ⟨input, output⟩
  | some (.array items) => do
    return ⟨← optional string? items.head?, ← optional string? (items.drop 1).head?⟩
  | some _ => none

/-- The settings in a document, which may hold nothing else. -/
def ofDocument? (entries : List (String × Toml.Value)) : Option Settings := do
  if !entries.all fun e =>
    ["namespace", "lenient", "writefru", "extra_properties"].contains e.1 then none
  return {
    scope := ← optional strings? (entries.lookup "namespace")
    lenient := ← optional boolean? (entries.lookup "lenient")
    writeFru := ← paths? (entries.lookup "writefru")
    extraProperties := ← paths? (entries.lookup "extra_properties") }

end Settings

def PathSettings.over (s : PathSettings) (p : Paths) : Paths :=
  ⟨s.input.getD p.input, s.output.getD p.output⟩

/-- The settings over the standard configuration. Namespace segments are taken as they are. -/
def ofSettings (s : Settings) : Except Scope.Fault Config := do
  let scope ← match s.scope with
    | none => pure standard.scope
    | some segments => Scope.check segments
  return {
    writeFru := s.writeFru.over standard.writeFru
    extraProperties := s.extraProperties.over standard.extraProperties
    scope := scope
    policy := (s.lenient.map EmptyPolicy.ofLenient).getD standard.policy }

def ofText (text : String) : Except ConfigFault Config :=
  match (Toml.read text).bind Settings.ofDocument? with
  | none => .error .malformed
  | some s => (ofSettings s).mapError .scope

end VpdHeaders.Config
