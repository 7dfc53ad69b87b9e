import VpdHeaders.Event
import VpdHeaders.Text.Blank
import VpdHeaders.Text.Fields

/-! # Which events the log shows -/
namespace VpdHeaders.Log

/-- How much a directive lets through: nothing, or the events up to a level. -/
abbrev Threshold := Option Level

/-- Decimal digits, after a plus sign or without one. -/
def natural? (cs : List Char) : Option Nat :=
  let digits := match cs with
    | '+' :: rest => rest
    | _ => cs
  if digits.isEmpty ∨ !digits.all Char.isDigit then none
  else some (digits.foldl (fun n c => 10 * n + (c.toNat - '0'.toNat)) 0)

/-- A level by number or by name; case does not matter, and no name at all means errors. -/
def threshold? (cs : List Char) : Option Threshold :=
  match natural? cs, String.ofList (cs.map Char.toLower) with
  | some 0, _ | _, "off" => some none
  | some 1, _ | _, "" | _, "error" => some (some .error)
  | some 2, _ | _, "warn" => some (some .warn)
  | some 3, _ | _, "info" => some (some .info)
  | some 4, _ | _, "debug" => some (some .debug)
  | some 5, _ | _, "trace" => some (some .trace)
  | _, _ => none

/-- A part of a filter: the events it is about, by the beginning of their source and by a field that
they have, and how much of them it lets through. What is restricted to spans is about no event. -/
structure Directive where
  source : Option String
  field : Option String
  spansOnly : Bool
  threshold : Threshold
  deriving DecidableEq, Repr

inductive Fault | directive | level
  deriving DecidableEq, Repr

def Fault.message : Fault → String
  | .directive => "invalid filter directive"
  | .level =>
    "error parsing level filter: expected one of \"off\", \"error\", \"warn\", \"info\", " ++
      "\"debug\", \"trace\", or a number 0-5"

namespace Directive

/-- A character that may stand first where a source or a level is expected. -/
def mayStart (c : Char) : Bool :=
  c.isAlphanum || c == '-' || c == ':' || c == '_' || 128 ≤ c.toNat

/-- The level behind an equals sign; nothing at all lets everything through. -/
def level (cs : List Char) : Except Fault Threshold :=
  if cs.isEmpty then .ok (some .trace)
  else match threshold? cs with
    | some t => .ok t
    | none => .error .level

/-- What follows the closing bracket of a span. `seen` is cut at the ends, `text` is not. -/
def afterSpan (source field : Option String) (spansOnly : Bool) (seen text : List Char) :
    Except Fault Directive :=
  match seen with
  | [] => .ok ⟨source, field, spansOnly, some .trace⟩
  | '=' :: _ => do return ⟨source, field, spansOnly, ← level (text.drop 1)⟩
  | _ => .error .directive

/-- A span in brackets, with a field in braces. A field with a value is about spans only. -/
def span (source : Option String) (seen text : List Char) : Except Fault Directive :=
  let name := seen.takeWhile fun c => c != ']' && c != '\x7b'
  match seen.drop name.length with
  | ']' :: rest => afterSpan source none true rest (text.drop (name.length + 1))
  | '\x7b' :: rest =>
    let field := rest.takeWhile (· != '\x7d')
    let after := rest.drop field.length
    if field.isEmpty then .error .directive
    else match after with
      | '\x7d' :: ']' :: after =>
        afterSpan source (some (String.ofList field)) (!name.isEmpty || field.contains '=') after
          (text.drop (name.length + field.length + 3))
      | _ => .error .directive
  | _ => .error .directive

/-- Reads one directive. Blanks at the ends are not looked at, but those in front shift the places at
which the text is cut. -/
def read (text : List Char) : Except Fault Directive :=
  let seen := Text.trimChars text
  match seen with
  | [] => .error .directive
  | '[' :: rest => span none rest (text.drop 1)
  | c :: _ =>
    if !mayStart c then .error .directive
    else
      let word := seen.takeWhile fun c => c != '=' && c != '['
      let source := text.take word.length
      match seen.drop word.length with
      | '=' :: _ => do
        return ⟨some (String.ofList source), none, false, ← level (text.drop (word.length + 1))⟩
      | '[' :: rest => span (some (String.ofList source)) rest (text.drop (word.length + 1))
      | _ =>
        match threshold? text with
        | some t => .ok ⟨none, none, false, t⟩
        | none => .ok ⟨some (String.ofList text), none, false, some .trace⟩

def isAbout (d : Directive) (e : Event) : Bool :=
  !d.spansOnly && (d.source.all fun s => s.toList.isPrefixOf e.source.toList) &&
    d.field.all fun f => f == "message" || (e.fields.map Prod.fst).contains f

/-- How precisely a directive says what it is about: first by the length of the source, then by the
field. -/
def precision (d : Directive) : Nat × Option String :=
  (match d.source with
    | none => 0
    | some s => s.utf8ByteSize + 1, d.field)

/-- Whether a directive is less precise than another. -/
def yields (d e : Directive) : Bool :=
  let (n, f) := d.precision
  let (m, g) := e.precision
  n < m || n == m && match f, g with
    | none, none | some _, none => false
    | none, some _ => true
    | some f, some g => decide (f < g)

end Directive

abbrev Filter := List Directive

namespace Filter

/-- The directive that decides about an event: the most precise one, and of equals the last. -/
def deciding? (filter : Filter) (e : Event) : Option Directive :=
  (filter.filter (·.isAbout e)).foldl (fun best d => match best with
    | none => some d
    | some b => if d.yields b then some b else some d) none

def shows (filter : Filter) (e : Event) : Bool :=
  match filter.deciding? e with
  | some ⟨_, _, _, some level⟩ => e.level.rank ≤ level.rank
  | _ => false

/-- The filter that a text describes, and the parts of the text that are left out. Without any
directive, errors are shown. -/
def parse (text : String) : Filter × List (String × Fault) :=
  let parts := (Text.fields ',' text.toList).filter (!·.isEmpty)
  let read := parts.map fun part => (String.ofList part, Directive.read part)
  let directives := read.filterMap fun r => r.2.toOption
  let faults := read.filterMap fun r => match r.2 with
    | .error fault => some (r.1, fault)
    | .ok _ => none
  (if directives.isEmpty then [⟨none, none, false, some .error⟩] else directives, faults)

/-- A filter that shows the events of this program up to the level with this name. -/
def levelText (name : String) : String := "fru_codegen_core=" ++ name ++ ",fru_codegen_cli=" ++ name

/-- The filter that is asked for: a bare level is one for this program; so is `info` if nothing is
asked for. -/
def ofRequest (request? : Option String) : Filter × List (String × Fault) :=
  match request? with
  | none => parse (levelText "info")
  | some request =>
    if ["trace", "debug", "info", "warn", "error"].contains request.toLower then
      parse (levelText request)
    else parse request

def faultLine (part : String) (fault : Fault) : String :=
  "ignoring " ++ "\x60" ++ part ++ "\x60: " ++ fault.message

end VpdHeaders.Log.Filter
