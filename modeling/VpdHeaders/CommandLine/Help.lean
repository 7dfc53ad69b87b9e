import VpdHeaders.CommandLine.Reading
import VpdHeaders.Text.Lines

/-! # What a command line gets for an answer when there is nothing to run -/
namespace VpdHeaders.CommandLine

def versionText : String := "fru-codegen 0.1.0\n"

def usageText : String := Text.unlines
  ["Usage: fru-codegen [OPTIONS] [COMMAND]",
   "",
   "For more information, try '--help'."]

def helpText : String := Text.unlines
  ["Generate VPD inventory accessor headers from FRU descriptions",
   "",
   "Usage: fru-codegen [OPTIONS] [COMMAND]",
   "",
   "Commands:",
   "  writefru          Generate the writeFru accessor header (the default command)",
   "  extra-properties  Generate the extra-properties header",
   "  help              Print this message",
   "",
   "Options:",
   "  -c, --config <FILE>   TOML configuration file; command-line flags take precedence over it",
   "  -h, --help            Print help",
   "  -V, --version         Print version",
   "",
   "Options of a command:",
   "  -i, --input <FILE>    Description document to read",
   "  -o, --output <FILE>   Header to write",
   "      --namespace <NS>  Namespace for generated code, e.g. openpower::vpd::inventory",
   "      --lenient         Skip entries with empty names or values instead of failing",
   "      --check           Compare with the existing header instead of writing it"]

namespace Reply

def output : Reply → String
  | .usage => ""
  | .help => helpText
  | .version => versionText

def errorOutput : Reply → String
  | .usage => usageText
  | _ => ""

def exitCode : Reply → Nat
  | .usage => 2
  | _ => 0

end VpdHeaders.CommandLine.Reply
