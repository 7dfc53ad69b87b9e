import VpdHeaders.Yaml.BlockScalar
import VpdHeaders.Yaml.PlainScalar
import VpdHeaders.Yaml.Tag

/-! # The tokens of a text -/
namespace VpdHeaders.Yaml

/-- A place where a key may have begun without a `?`: the number of its first token and where it
stands. It is required where no other token could start the line. -/
structure Candidate where
  required : Bool
  token : Nat
  start : Spot

/-- What has been read so far: the tokens, latest first, and their number; the indentation of the
open block collections, innermost first; a possible key for every open flow collection, innermost
first, and for the block around them; and whether a key may begin here. -/
structure Scanner where
  tokens : List Token
  count : Nat
  indent : Int
  outer : List Int
  candidates : List (Option Candidate)
  keyAllowed : Bool

namespace Scanner

def start : Scanner := ⟨[], 0, -1, [], [none], true⟩

def inFlow (s : Scanner) : Bool := 1 < s.candidates.length

def push (s : Scanner) (t : Token) : Scanner :=
  { s with tokens := t :: s.tokens, count := s.count + 1 }

def insertAt (s : Scanner) (n : Nat) (t : Token) : Scanner :=
  let later := s.count - n
  { s with tokens := s.tokens.take later ++ t :: s.tokens.drop later, count := s.count + 1 }

/-- Opens a block collection if `column` is further in than the present one. Its first token goes
in front of token `n`, or to the end. -/
def openCollection (s : Scanner) (column : Nat) (n : Option Nat) (t : Token) : Scanner :=
  if s.inFlow || (column : Int) ≤ s.indent then s
  else
    let s := { s with outer := s.indent :: s.outer, indent := column }
    match n with
    | some n => s.insertAt n t
    | none => s.push t

/-- Closes every block collection that is further in than `column`, given those around the
present one. -/
def closeFrom (s : Scanner) (column : Int) : List Int → Scanner
  | [] => s
  | i :: outer =>
    if s.indent ≤ column then s
    else closeFrom { s.push .blockEnd with indent := i, outer := outer } column outer

def close (s : Scanner) (column : Int) : Scanner :=
  if s.inFlow then s else s.closeFrom column s.outer

/-- A key candidate lapses on the next line or 1024 characters on; a required one must not. -/
def lapse (here : Spot) : Option Candidate → Option (Option Candidate)
  | none => some none
  | some c =>
    if c.start.line < here.line || c.start.index + 1024 < here.index then
      if c.required then none else some none
    else some (some c)

/-- Drops the candidates that lapsed. -/
def dropLapsed (s : Scanner) (here : Spot) : Option Scanner :=
  (s.candidates.mapM (lapse here)).map fun cs => { s with candidates := cs }

/-- Gives up the innermost candidate, unless it is required. -/
def dropCandidate (s : Scanner) : Option Scanner :=
  match s.candidates with
  | some c :: rest => if c.required then none else some { s with candidates := none :: rest }
  | _ => some s

/-- Notes that a key may begin with the token that comes next. -/
def noteCandidate (s : Scanner) (here : Spot) : Option Scanner :=
  if !s.keyAllowed then some s
  else do
    let s ← s.dropCandidate
    let required := !s.inFlow && s.indent == (here.column : Int)
    return { s with candidates := some ⟨required, s.count, here⟩ :: s.candidates.drop 1 }

def allowKey (s : Scanner) (b : Bool) : Scanner := { s with keyAllowed := b }

def keyed (s : Scanner) (here : Spot) (t : Token) : Option Scanner := do
  let s ← s.noteCandidate here
  return (s.push t).allowKey false

def openFlow (s : Scanner) (here : Spot) (t : Token) : Option Scanner := do
  let s ← s.noteCandidate here
  return ({ s with candidates := none :: s.candidates }.push t).allowKey true

def closeFlow (s : Scanner) (t : Token) : Option Scanner := do
  let s ← s.dropCandidate
  let s := if s.inFlow then { s with candidates := s.candidates.drop 1 } else s
  return (s.push t).allowKey false

/-- A directive or document marker: it closes all block collections. -/
def topLevel (s : Scanner) (t : Token) : Option Scanner := do
  let s ← (s.close (-1)).dropCandidate
  return (s.push t).allowKey false

/-- A block indicator stands where a collection may begin or go on. -/
def openBlock (s : Scanner) (here : Spot) (t : Token) : Option Scanner :=
  if s.inFlow then some s
  else if s.keyAllowed then some (s.openCollection here.column none t)
  else none

def blockEntry (s : Scanner) (here : Spot) : Option Scanner := do
  let s ← s.openBlock here .blockSequenceStart
  let s ← s.dropCandidate
  return (s.push .blockEntry).allowKey true

def flowEntry (s : Scanner) : Option Scanner := do
  let s ← s.dropCandidate
  return (s.push .flowEntry).allowKey true

def key (s : Scanner) (here : Spot) : Option Scanner := do
  let s ← s.openBlock here .blockMappingStart
  let s ← s.dropCandidate
  return (s.push .key).allowKey (!s.inFlow)

/-- A colon: it turns the candidate before it into a key, if there is one. -/
def value (s : Scanner) (here : Spot) : Option Scanner :=
  match s.candidates with
  | some c :: rest =>
    let s := { s with candidates := none :: rest }.insertAt c.token .key
    let s := s.openCollection c.start.column (some c.token) .blockMappingStart
    some ((s.push .value).allowKey false)
  | _ => do
    let s ← s.openBlock here .blockMappingStart
    return (s.push .value).allowKey (!s.inFlow)

/-- A plain scalar may start with these only if a word follows at once. -/
def startsPlain (inFlow : Bool) (c following : Char) : Bool :=
  let reserved := "-?:,[]\x7b\x7d#&*!|>'\"%@\x60".toList
  (!isSeparator c && !reserved.contains c) || (c == '-' && !isGap following) ||
    (!inFlow && (c == '?' || c == ':') && !isSeparator following)

/-- Reads the token at the head of `text`, which is no space. -/
def token (s : Scanner) (here : Spot) (text : List Spot) : Option (Scanner × List Spot) :=
  let c := here.char
  let next := peek text 1
  let one (r : Option Scanner) : Option (Scanner × List Spot) := r.map fun s => (s, text.drop 1)
  if here.column == 0 && c == '%' then do
    let (t, rest) ← Directive.token (text.drop 1)
    return (← s.topLevel t, rest)
  else if here.column == 0 && startsMarker '-' text then
    (s.topLevel .documentStart).map fun s => (s, text.drop 3)
  else if here.column == 0 && startsMarker '.' text then
    (s.topLevel .documentEnd).map fun s => (s, text.drop 3)
  else if c == '[' then one (s.openFlow here .flowSequenceStart)
  else if c == '{' then one (s.openFlow here .flowMappingStart)
  else if c == ']' then one (s.closeFlow .flowSequenceEnd)
  else if c == '}' then one (s.closeFlow .flowMappingEnd)
  else if c == ',' then one s.flowEntry
  else if c == '-' && isSeparator next then one (s.blockEntry here)
  else if c == '?' && (s.inFlow || isSeparator next) then one (s.key here)
  else if c == ':' && (s.inFlow || isSeparator next) then one (s.value here)
  else if c == '*' || c == '&' then do
    let (word, rest) ← name (text.drop 1)
    return (← s.keyed here (if c == '*' then .alias word else .anchor word), rest)
  else if c == '!' then do
    let (t, rest) ← Tag.token s.inFlow text
    return (← s.keyed here t, rest)
  else if (c == '|' || c == '>') && !s.inFlow then do
    let s ← s.dropCandidate
    let (content, rest) ← BlockScalar.scan (c == '>') s.indent (text.drop 1)
    return ((s.push (.scalar content .other)).allowKey true, rest)
  else if c == '\'' || c == '"' then do
    let (content, rest) ← quotedScalar (c == '\'') (text.drop 1)
    return (← s.keyed here (.scalar content .other), rest)
  else if startsPlain s.inFlow c next then do
    let (content, broken, rest) ← plainScalar s.inFlow (s.indent + 1) text
    let s ← s.keyed here (.scalar content .plain)
    return (s.allowKey broken, rest)
  else none

end Scanner

/-- Skips spaces, comments and line breaks, and tabs where no key may begin. After a line break in
block context a key may begin again. -/
def skipSpace (block : Bool) (comment keyAllowed : Bool) : List Spot → Bool × List Spot
  | [] => (keyAllowed, [])
  | s :: rest =>
    if isBreak s.char then skipSpace block false (keyAllowed || block) rest
    else if comment && s.char != endMark then skipSpace block true keyAllowed rest
    else if s.char == ' ' || (s.char == '\t' && (!block || !keyAllowed)) then
      skipSpace block false keyAllowed rest
    else if s.char == '#' then skipSpace block true keyAllowed rest
    else if s.index == 0 && s.char == '\uFEFF' then skipSpace block false keyAllowed rest
    else (keyAllowed, s :: rest)

/-- Reads tokens until the end of the text. Each one takes a character at least, so a text has no
more tokens to read than characters. -/
def scanTokens : Nat → Scanner → List Spot → Option (List Token)
  | 0, _, _ => none
  | fuel + 1, s, text => do
    let (keyAllowed, text) := skipSpace (!s.inFlow) false s.keyAllowed text
    let here ← text.head?
    let s ← (s.allowKey keyAllowed).dropLapsed here
    let s := s.close here.column
    if here.char == endMark then
      let s ← (s.close (-1)).dropCandidate
      return s.tokens.reverse
    let (s, text) ← s.token here text
    scanTokens fuel s text

def tokens (text : String) : Option (List Token) :=
  let chars := text.toList
  if chars.all isPrintable then scanTokens (chars.length + 1) Scanner.start (spots chars) else none

end VpdHeaders.Yaml
