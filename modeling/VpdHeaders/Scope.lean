import VpdHeaders.Identifier
import VpdHeaders.Text.Blank

/-! # Scopes: the nested C++ namespaces around generated code -/
namespace VpdHeaders.Scope

inductive Fault
  | notIdentifier (segment : String)
  | reserved (segment : String) (reservation : Identifier.Reservation)
  deriving DecidableEq, Repr

def Fault.message : Fault → String
  | .notIdentifier segment => "'" ++ segment ++ "' is not a valid namespace name"
  | .reserved segment r => "namespace '" ++ segment ++ "' " ++ r.reason

def segmentFault? (segment : String) : Option Fault :=
  if !Identifier.isValid segment then some (.notIdentifier segment)
  else (Identifier.reservation? segment).map (.reserved segment)

/-- Accepts segments that are all usable; otherwise names the first that is not. -/
def check (segments : List String) : Except Fault (List String) :=
  match segments.findSome? segmentFault? with
  | some fault => .error fault
  | none => .ok segments

/-- Reads `a::b::c`. Blanks around a segment are ignored; a blank text is the empty scope. -/
def parse (spec : String) : Except Fault (List String) :=
  if Text.isBlankText spec then .ok []
  else check ((Text.colonFields spec.toList).map fun cs => String.ofList (Text.trimChars cs))

end VpdHeaders.Scope
