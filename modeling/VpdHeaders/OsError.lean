/-! # Failures that the operating system reports -/
namespace VpdHeaders

/-- The failures with a part in the rules of this library, and any other by its number and text. -/
inductive OsError
  | notFound
  | busy
  | alreadyExists
  | notDirectory
  | isDirectory
  | invalid
  | nameTooLong
  | other (code : Nat) (text : String)
  deriving DecidableEq, Repr

namespace OsError

def code : OsError → Nat
  | .notFound => 2
  | .busy => 16
  | .alreadyExists => 17
  | .notDirectory => 20
  | .isDirectory => 21
  | .invalid => 22
  | .nameTooLong => 36
  | .other code _ => code

def text : OsError → String
  | .notFound => "No such file or directory"
  | .busy => "Device or resource busy"
  | .alreadyExists => "File exists"
  | .notDirectory => "Not a directory"
  | .isDirectory => "Is a directory"
  | .invalid => "Invalid argument"
  | .nameTooLong => "File name too long"
  | .other _ text => text

/-- The failure with this number, which the system describes by this text. -/
def ofCode (code : Nat) (text : String) : OsError :=
  ([notFound, busy, alreadyExists, notDirectory, isDirectory, invalid, nameTooLong].find?
    (·.code == code)).getD (.other code text)

def message (e : OsError) : String := e.text ++ " (os error " ++ toString e.code ++ ")"

end OsError

/-- Why a file could not be read as text, or a path not be used at all. -/
inductive FileFault
  | system (error : OsError)
  | notText
  | nulInPath
  deriving DecidableEq, Repr

def FileFault.message : FileFault → String
  | .system error => error.message
  | .notText => "stream did not contain valid UTF-8"
  | .nulInPath => "file name contained an unexpected NUL byte"

end VpdHeaders
