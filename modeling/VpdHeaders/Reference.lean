import VpdHeaders.Identifier
import VpdHeaders.Text.Blank

/-! # Value references: `record,keyword` addresses into the VPD store -/
namespace VpdHeaders

/-- Where a property's value is found: a record of the store and a keyword in it. -/
structure Reference where
  record : String
  keyword : String
  deriving DecidableEq, Repr

namespace Reference

inductive Role | record | keyword
  deriving DecidableEq, Repr

def Role.name : Role → String
  | .record => "record"
  | .keyword => "keyword"

inductive Fault
  | tokenCount (count : Nat)
  | empty (role : Role)
  | notIdentifier (role : Role) (token : String)
  | reserved (role : Role) (token : String) (reservation : Identifier.Reservation)
  deriving DecidableEq, Repr

def Fault.message : Fault → String
  | .tokenCount count => "expected exactly two comma-separated tokens, found " ++ toString count
  | .empty role => role.name ++ " is empty"
  | .notIdentifier role token => role.name ++ " '" ++ token ++ "' is not a valid identifier"
  | .reserved role token r => role.name ++ " '" ++ token ++ "' " ++ r.reason

def tokenFault? (role : Role) (token : String) : Option Fault :=
  if token.isEmpty then some (.empty role)
  else if !Identifier.isValid token then some (.notIdentifier role token)
  else (Identifier.reservation? token).map (.reserved role token)

/-- Reads `record,keyword`. Blanks around either token are ignored. -/
def parse (raw : String) : Except Fault Reference :=
  match (Text.fieldsOf ',' raw).map Text.trim with
  | [record, keyword] =>
    match tokenFault? .record record with
    | some fault => .error fault
    | none =>
      match tokenFault? .keyword keyword with
      | some fault => .error fault
      | none => .ok ⟨record, keyword⟩
  | tokens => .error (.tokenCount tokens.length)

/-- The normal form: the two tokens with a comma between them. -/
def text (r : Reference) : String := r.record ++ "," ++ r.keyword

end VpdHeaders.Reference
