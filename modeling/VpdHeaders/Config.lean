import VpdHeaders.Scope
import VpdHeaders.Text.Quoted

/-! # Generator settings -/
namespace VpdHeaders

/-- What happens to an entry with an empty name or value: an error, or dropped with a warning. -/
inductive EmptyPolicy | reject | skip
  deriving DecidableEq, Repr

def EmptyPolicy.ofLenient (lenient : Bool) : EmptyPolicy := if lenient then .skip else .reject

def EmptyPolicy.name : EmptyPolicy → String
  | .reject => "Reject"
  | .skip => "Skip"

inductive Target | writeFru | extraProperties
  deriving DecidableEq, Repr

def Target.name : Target → String
  | .writeFru => "WriteFru"
  | .extraProperties => "ExtraProperties"

structure Paths where
  input : String
  output : String
  deriving DecidableEq, Repr

def Paths.text (p : Paths) : String :=
  "Paths \x7b input: " ++ Text.quoted p.input ++ ", output: " ++ Text.quoted p.output ++ " \x7d"

structure Config where
  writeFru : Paths
  extraProperties : Paths
  scope : List String
  policy : EmptyPolicy
  deriving DecidableEq, Repr

namespace Config

def standard : Config where
  writeFru := ⟨"writefru.yaml", "writefru.hpp"⟩
  extraProperties := ⟨"extra-properties.yaml", "extra-properties.hpp"⟩
  scope := ["openpower", "vpd", "inventory"]
  policy := .reject

def paths (c : Config) : Target → Paths
  | .writeFru => c.writeFru
  | .extraProperties => c.extraProperties

def withPaths (c : Config) (p : Paths) : Target → Config
  | .writeFru => { c with writeFru := p }
  | .extraProperties => { c with extraProperties := p }

def text (c : Config) : String :=
  "GeneratorConfig \x7b writefru: " ++ c.writeFru.text ++ ", extra_properties: " ++
    c.extraProperties.text ++ ", namespace: [" ++ Text.joined ", " (c.scope.map Text.quoted) ++
    "], empty_policy: " ++ c.policy.name ++ " \x7d"

end VpdHeaders.Config
