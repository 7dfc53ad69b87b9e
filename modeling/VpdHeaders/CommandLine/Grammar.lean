import VpdHeaders.Config

/-! # The words that a command line may hold -/
namespace VpdHeaders.CommandLine

inductive Parameter | config | input | output | scope
  deriving DecidableEq, Repr

inductive Switch | lenient | check
  deriving DecidableEq, Repr

inductive Meaning
  | parameter (parameter : Parameter)
  | switch (switch : Switch)
  | help
  | version
  deriving DecidableEq, Repr

/-- An option and how it is written: with a letter after one dash, or a word after two. -/
structure Spelling where
  short : Option Char
  long : String
  meaning : Meaning

def programOptions : List Spelling :=
  [⟨some 'c', "config", .parameter .config⟩, ⟨some 'h', "help", .help⟩,
   ⟨some 'V', "version", .version⟩]

def commandOptions : List Spelling :=
  [⟨some 'i', "input", .parameter .input⟩, ⟨some 'o', "output", .parameter .output⟩,
   ⟨none, "namespace", .parameter .scope⟩, ⟨none, "lenient", .switch .lenient⟩,
   ⟨none, "check", .switch .check⟩, ⟨some 'c', "config", .parameter .config⟩,
   ⟨some 'h', "help", .help⟩]

def long? (options : List Spelling) (word : String) : Option Meaning :=
  (options.find? (·.long == word)).map Spelling.meaning

def short? (options : List Spelling) (letter : Char) : Option Meaning :=
  (options.find? (·.short == some letter)).map Spelling.meaning

inductive Command
  | generate (target : Target)
  | help
  deriving DecidableEq, Repr

def command? : String → Option Command
  | "writefru" => some (.generate .writeFru)
  | "extra-properties" => some (.generate .extraProperties)
  | "help" => some .help
  | _ => none

end VpdHeaders.CommandLine
