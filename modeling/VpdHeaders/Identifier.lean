import VpdHeaders.Text.Fields

/-! # C++ identifiers: which names are valid, which are taken, and how a variable name is derived -/
namespace VpdHeaders.Identifier

def keywords : List String :=
  ["alignas", "alignof", "and", "and_eq", "asm", "auto", "bitand", "bitor", "bool", "break",
   "case", "catch", "char", "char16_t", "char32_t", "char8_t", "class", "co_await", "co_return",
   "co_yield", "compl", "concept", "const", "const_cast", "consteval", "constexpr", "constinit",
   "continue", "decltype", "default", "delete", "do", "double", "dynamic_cast", "else", "enum",
   "explicit", "export", "extern", "false", "float", "for", "friend", "goto", "if", "inline",
   "int", "long", "mutable", "namespace", "new", "noexcept", "not", "not_eq", "nullptr",
   "operator", "or", "or_eq", "private", "protected", "public", "register", "reinterpret_cast",
   "requires", "return", "short", "signed", "sizeof", "static", "static_assert", "static_cast",
   "struct", "switch", "template", "this", "thread_local", "throw", "true", "try", "typedef",
   "typeid", "typename", "union", "unsigned", "using", "virtual", "void", "volatile", "wchar_t",
   "while", "xor", "xor_eq"]

/-- The names that a generated accessor binds or relies on itself. -/
def generatedNames : List String :=
  ["object", "vpdStore", "path", "print", "Inner", "Outer", "std"]

def isLetter (c : Char) : Bool := ('a' ≤ c && c ≤ 'z') || ('A' ≤ c && c ≤ 'Z')

def isDigit (c : Char) : Bool := '0' ≤ c && c ≤ '9'

def isStart (c : Char) : Bool := isLetter c || c == '_'

def isPart (c : Char) : Bool := isStart c || isDigit c

/-- An ASCII letter or underscore followed by letters, digits and underscores. -/
def isValid (name : String) : Bool :=
  match name.toList with
  | [] => false
  | c :: cs => isStart c && cs.all isPart

/-- Who claims a well-formed identifier for itself. -/
inductive Reservation | keyword | implementation
  deriving DecidableEq, Repr

def Reservation.reason : Reservation → String
  | .keyword => "is a C++ keyword"
  | .implementation => "is reserved for the C++ implementation"

def hasDoubleUnderscore : List Char → Bool
  | c :: d :: cs => (c == '_' && d == '_') || hasDoubleUnderscore (d :: cs)
  | _ => false

def startsUnderscoreCapital : List Char → Bool
  | c :: d :: _ => c == '_' && ('A' ≤ d && d ≤ 'Z')
  | _ => false

/-- Keywords, names with `__` and names that start with `_` and a capital are reserved. -/
def reservation? (name : String) : Option Reservation :=
  if keywords.contains name then some .keyword
  else if hasDoubleUnderscore name.toList || startsUnderscoreCapital name.toList then
    some .implementation
  else none

/-- Reserved by the language, or already used by the generated code around it. -/
def isReserved (name : String) : Bool :=
  (reservation? name).isSome || generatedNames.contains name

/-- Puts an underscore in front of a text that is empty or starts with a digit. -/
def guardStart : List Char → List Char
  | [] => ['_']
  | c :: cs => if isDigit c then '_' :: c :: cs else c :: cs

/-- Replaces what an identifier cannot hold by underscores, one for one. -/
def sanitize (raw : String) : String :=
  String.ofList (guardStart (raw.toList.map fun c => if isPart c then c else '_'))

/-- The variable name of a dotted interface name: its first and last segment, made valid. -/
def ofInterface (interface : String) : String :=
  let segments := Text.fieldsOf '.' interface
  sanitize (segments.headD "" ++ segments.getLastD "")

end VpdHeaders.Identifier
