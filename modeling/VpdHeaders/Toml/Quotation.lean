import VpdHeaders.Decimal.Reading
import VpdHeaders.Toml.Text

/-! # Quoted texts of a settings document -/
namespace VpdHeaders.Toml

def escaped? : Char → Option Char
  | 'b' => some '\x08'
  | 'f' => some '\x0C'
  | 'n' => some '\n'
  | 'r' => some '\r'
  | 't' => some '\t'
  | '"' => some '"'
  | '\\' => some '\\'
  | _ => none

namespace Quotation

/-- The four kinds: in single marks nothing is an escape; in three marks lines may break. -/
structure Form where
  single : Bool
  long : Bool

def Form.mark (f : Form) : Char := if f.single then '\'' else '"'

/-- What the next character is read as. In long texts some `marks` may just have been met, a
backslash at the end of a line swallows white space (`joining`, and `broken` after the break), and a
carriage return needs a line feed. -/
inductive Mode
  | text
  | marks (count : Nat)
  | escape
  | code (left value : Nat)
  | joining
  | joiningReturn
  | broken
  | brokenReturn
  | carriage

inductive Step
  | fail
  | stop (text : List Char)
  | next (text : List Char) (mode : Mode)

/-- A character that is neither in an escape nor after marks. -/
def textStep (f : Form) (text : List Char) (c : Char) : Step :=
  if c == f.mark then if f.long then .next text (.marks 1) else .stop text
  else if c == '\\' && !f.single then .next text .escape
  else if f.long && c == '\n' then .next ('\n' :: text) .text
  else if f.long && c == '\r' then .next text .carriage
  else if isShown c then .next (c :: text) .text
  else .fail

def escapeStep (f : Form) (text : List Char) (c : Char) : Step :=
  if c == 'u' then .next text (.code 4 0)
  else if c == 'U' then .next text (.code 8 0)
  else if f.long && isGap c then .next text .joining
  else if f.long && c == '\n' then .next text .broken
  else if f.long && c == '\r' then .next text .joiningReturn
  else match escaped? c with
    | some e => .next (e :: text) .text
    | none => .fail

def codeStep (text : List Char) (left value : Nat) (c : Char) : Step :=
  match Decimal.digitValue? c with
  | none => .fail
  | some d =>
    let value := value * 16 + d
    if 1 < left then .next text (.code (left - 1) value)
    else if value < 0xD800 || (0xDFFF < value && value ≤ 0x10FFFF) then
      .next (Char.ofNat value :: text) .text
    else .fail

def step (f : Form) (text : List Char) (mode : Mode) (c : Char) : Step :=
  match mode with
  | .text => textStep f text c
  | .marks count =>
    if c == f.mark then .next text (.marks (count + 1))
    else textStep f (List.replicate count f.mark ++ text) c
  | .escape => escapeStep f text c
  | .code left value => codeStep text left value c
  | .joining =>
    if isGap c then .next text .joining
    else if c == '\n' then .next text .broken
    else if c == '\r' then .next text .joiningReturn
    else .fail
  | .broken =>
    if isGap c || c == '\n' then .next text .broken
    else if c == '\r' then .next text .brokenReturn
    else textStep f text c
  | .joiningReturn | .brokenReturn => if c == '\n' then .next text .broken else .fail
  | .carriage => if c == '\n' then .next ('\n' :: text) .text else .fail

/-- Three marks end a long text. Up to two more right before them belong to it. -/
def scan (f : Form) (text : List Char) (mode : Mode) :
    List Char → Option (List Char × List Char)
  | [] =>
    match mode with
    | .marks count =>
      if 3 ≤ count then some (List.replicate (count - 3) f.mark ++ text, []) else none
    | _ => none
  | c :: rest =>
    let ended := match mode with
      | .marks count => count == 5 || (3 ≤ count && c != f.mark)
      | _ => false
    match ended, mode with
    | true, .marks count => some (List.replicate (count - 3) f.mark ++ text, c :: rest)
    | _, _ =>
      match step f text mode c with
      | .fail => none
      | .stop text => some (text, rest)
      | .next text mode => scan f text mode rest

end Quotation

/-- Reads a quoted text; the long forms only where `long` allows them. A line break right after
the opening marks of a long text is no part of it. -/
def quotation (long : Bool) (cs : List Char) : Option (String × List Char) :=
  let read (f : Quotation.Form) (rest : List Char) : Option (String × List Char) :=
    (Quotation.scan f [] .text rest).map fun r => (String.ofList r.1.reverse, r.2)
  let opened (single : Bool) (rest : List Char) : Option (String × List Char) :=
    match long, rest with
    | true, a :: b :: tail =>
      let f : Quotation.Form := ⟨single, true⟩
      if a == f.mark && b == f.mark then read f ((afterBreak? tail).getD tail)
      else read ⟨single, false⟩ rest
    | _, _ => read ⟨single, false⟩ rest
  match cs with
  | '"' :: rest => opened false rest
  | '\'' :: rest => opened true rest
  | _ => none

end VpdHeaders.Toml
