import VpdHeaders.CommandLine.Grammar
import VpdHeaders.Text.Fields

/-! # Reading a command line

An option is not settled when it is read but when the next one is, or when the words end: only then
is it known whether it got a value. A call for help or for the version is answered at once, and so
wins over what is wrong further on. -/
namespace VpdHeaders.CommandLine

inductive Reply | usage | help | version
  deriving DecidableEq, Repr

/-- What was read so far: settled options, and one that is not settled yet. -/
structure Progress where
  values : List (Parameter × String)
  switches : List Switch
  pending : Option (Parameter × Option String)
  deriving DecidableEq, Repr

namespace Progress

def start : Progress := ⟨[], [], none⟩

/-- Whether the next word is a value unless it looks like an option. -/
def awaitsValue (p : Progress) : Bool :=
  match p.pending with
  | some (_, none) => true
  | _ => false

/-- Gives an option its value. No option may be given twice, and a path may not be empty. -/
def assign (p : Progress) (parameter : Parameter) (value : String) : Except Reply Progress :=
  if (p.values.lookup parameter).isSome then .error .usage
  else if value.isEmpty ∧ parameter ≠ .scope then .error .usage
  else .ok { p with values := (parameter, value) :: p.values }

def settle (p : Progress) : Except Reply Progress :=
  match p.pending with
  | none => .ok p
  | some (_, none) => .error .usage
  | some (parameter, some value) => { p with pending := none }.assign parameter value

/-- An option, with the value that is written in the same word. -/
def option (p : Progress) (meaning : Meaning) (value? : Option String) : Except Reply Progress :=
  match meaning, value? with
  | .parameter parameter, some value => do (← p.settle).assign parameter value
  | .parameter parameter, none => do return { ← p.settle with pending := some (parameter, none) }
  | .switch switch, none => do
    let p ← p.settle
    if p.switches.contains switch then .error .usage
    return { p with switches := switch :: p.switches }
  | .help, none => do
    let _ ← p.settle
    .error .help
  | .version, none => do
    let _ ← p.settle
    .error .version
  | _, some _ => .error .usage

/-- The letters after a single dash. What follows the letter of an option with a value is that
value, with or without an equals sign. -/
def letters (options : List Spelling) (p : Progress) : List Char → Except Reply Progress
  | [] => .ok p
  | c :: rest =>
    match short? options c, rest with
    | none, _ => .error .usage
    | some (.parameter parameter), [] => p.option (.parameter parameter) none
    | some (.parameter parameter), '=' :: value =>
      p.option (.parameter parameter) (some (String.ofList value))
    | some (.parameter parameter), value =>
      p.option (.parameter parameter) (some (String.ofList value))
    | some meaning, rest => do (← p.option meaning none).letters options rest

def word (options : List Spelling) (p : Progress) (cs : List Char) : Except Reply Progress :=
  match long? options (String.ofList (cs.takeWhile (· != '='))) with
  | none => .error .usage
  | some meaning =>
    match cs.dropWhile (· != '=') with
    | [] => p.option meaning none
    | _ :: value => p.option meaning (some (String.ofList value))

end Progress

/-- Reads options until the words end or, where commands may stand, a command comes. -/
def options (spellings : List Spelling) (commands : String → Option Command) (p : Progress) :
    List String → Except Reply (Progress × Option (Command × List String))
  | [] => .ok (p, none)
  | text :: rest =>
    match if p.awaitsValue then none else commands text with
    | some command => .ok (p, some (command, rest))
    | none =>
      match text.toList, p.pending with
      | ['-', '-'], _ => if rest.isEmpty then .ok (p, none) else .error .usage
      | '-' :: '-' :: cs, _ => do options spellings commands (← p.word spellings cs) rest
      | '-' :: c :: cs, _ => do options spellings commands (← p.letters spellings (c :: cs)) rest
      | _, some (parameter, none) =>
        options spellings commands { p with pending := some (parameter, some text) } rest
      | _, _ => .error .usage

/-- What `help` is asked about: nothing, or one command. -/
def help : List String → Reply
  | [] => .help
  | [topic] => if (command? topic).isSome then .help else .usage
  | _ => .usage

end CommandLine

/-- What to generate, and what the command line says over the settings. -/
structure Invocation where
  target : Target
  config : Option String
  input : Option String
  output : Option String
  scope : Option String
  lenient : Bool
  check : Bool
  deriving DecidableEq, Repr

namespace CommandLine

/-- The options of both levels together. The settings file may be named on either; the name behind
the command counts. -/
def invocation (target : Target) (program command : Progress) : Invocation where
  target := target
  config := (command.values.lookup .config).or (program.values.lookup .config)
  input := command.values.lookup .input
  output := command.values.lookup .output
  scope := command.values.lookup .scope
  lenient := command.switches.contains .lenient
  check := command.switches.contains .check

/-- Reads the words of a command line. Without a command the accessor header is meant. -/
def read (words : List String) : Except Reply Invocation := do
  match ← options programOptions command? .start words with
  | (program, none) => return invocation .writeFru (← program.settle) .start
  | (_, some (.help, rest)) => .error (help rest)
  | (program, some (.generate target, rest)) =>
    let (command, _) ← options commandOptions (fun _ => none) .start rest
    let command ← command.settle
    return invocation target (← program.settle) command

end VpdHeaders.CommandLine
