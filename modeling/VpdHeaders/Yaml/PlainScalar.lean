import VpdHeaders.Yaml.Fold

/-! # Scalars without quotation marks -/
namespace VpdHeaders.Yaml

def isFlowIndicator (c : Char) : Bool :=
  c == ',' || c == '[' || c == ']' || c == '{' || c == '}'

namespace PlainScalar

/-- The text so far, backwards, and the white space after it where there is any. -/
structure State where
  text : List Char
  fold : Option Fold

inductive Step
  | fail
  | stop
  | next (state : State)

/-- Where the scalar stands: inside flow collections or not, and the least column that a line which
continues it may start in. -/
structure Place where
  inFlow : Bool
  indent : Int

/-- A character of a word. A colon ends the scalar before a separator, and in flow collections is
refused before an indicator. -/
def wordStep (place : Place) (text : List Char) (c following : Char) : Step :=
  if c == endMark then .stop
  else if place.inFlow && c == ':' &&
      (isFlowIndicator following || following == '?') then .fail
  else if c == ':' && isSeparator following then .stop
  else if place.inFlow && isFlowIndicator c then .stop
  else .next ⟨c :: text, none⟩

def step (place : Place) (state : State) (s : Spot) (here : List Spot) : Step :=
  match state.fold with
  | none =>
    if isBreak s.char then .next { state with fold := some (Fold.empty.addBreak s.char) }
    else if isGap s.char then .next { state with fold := some (Fold.empty.addGap s.char) }
    else wordStep place state.text s.char (peek here 1)
  | some fold =>
    if isBreak s.char then .next { state with fold := some (fold.addBreak s.char) }
    else if isGap s.char then
      if fold.broken && (s.column : Int) < place.indent && s.char == '\t' then .fail
      else .next { state with fold := some (fold.addGap s.char) }
    else if !place.inFlow && (s.column : Int) < place.indent then .stop
    else if atDocumentMarker here || s.char == '#' then .stop
    else wordStep place (fold.close state.text) s.char (peek here 1)

def scan (place : Place) (state : State) : List Spot → Option (State × List Spot)
  | [] => some (state, [])
  | s :: rest =>
    match step place state s (s :: rest) with
    | .fail => none
    | .stop => some (state, s :: rest)
    | .next state => scan place state rest

end PlainScalar

/-- Reads a plain scalar; also tells whether a line break was passed after its last word. -/
def plainScalar (inFlow : Bool) (indent : Int) (text : List Spot) :
    Option (String × Bool × List Spot) :=
  (PlainScalar.scan ⟨inFlow, indent⟩ ⟨[], none⟩ text).map fun r =>
    (String.ofList r.1.text.reverse, (r.1.fold.map Fold.broken).getD false, r.2)

end VpdHeaders.Yaml
