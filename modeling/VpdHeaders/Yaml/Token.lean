/-! # The tokens of a document -/
namespace VpdHeaders.Yaml

inductive Style | plain | other
  deriving DecidableEq, Repr

/-- The octets of a tag, or of a part of one. -/
abbrev TagText := List UInt8

inductive Token
  | version (major minor : Nat)
  | tagHandle (handle : String) (expansion : TagText)
  | documentStart | documentEnd
  | blockSequenceStart | blockMappingStart | blockEnd
  | flowSequenceStart | flowSequenceEnd | flowMappingStart | flowMappingEnd
  | blockEntry | flowEntry | key | value
  | alias (name : String)
  | anchor (name : String)
  | tag (handle : String) (suffix : TagText)
  | scalar (text : String) (style : Style)
  deriving DecidableEq, Repr

end VpdHeaders.Yaml
