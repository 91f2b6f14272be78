/-!
# Tokens of a data file

The structure of a data file shows in its tokens: indentation becomes the start and the end
of block collections, and a key that is recognised only by the colon after it has its `key`
token in front.
-/

namespace ThreatTree.Yaml

/-- A tag as written: a handle, if there is one, and what follows it. -/
structure TagName where
  handle : Option (List Char)
  suffix : List Char
  deriving DecidableEq, Repr

/-- A line that starts with a percent sign. -/
inductive Directive where
  /-- The version of the format; only its first number matters. -/
  | version (major : Nat)
  /-- What a tag handle stands for. -/
  | tag (handle start : List Char)
  | other
  deriving DecidableEq, Repr

inductive Token where
  | directive (d : Directive)
  | documentStart
  | documentEnd
  | blockSequenceStart
  | blockMappingStart
  | blockEnd
  | flowSequenceStart
  | flowSequenceEnd
  | flowMappingStart
  | flowMappingEnd
  | blockEntry
  | flowEntry
  | key
  | value
  | alias (name : List Char)
  | anchor (name : List Char)
  | tag (name : TagName)
  | scalar (text : List Char) (isPlain : Bool)
  | streamEnd
  deriving DecidableEq, Repr

end ThreatTree.Yaml
