import ThreatTree.Document.OfValue
import ThreatTree.Graph.Compile
import ThreatTree.Layout

/-!
# Failures of a render

A render reads, compiles and draws. Most of what can go wrong is reported to the user by its
message; a scalar that has the form of a number or a day and denotes none is not, and goes
past those who report.
-/

namespace ThreatTree

namespace Document.ReadError

/-- The message that is reported; none for a failure that is not reported. -/
def message? : ReadError → Option String
  | .unreadable (.malformed reason) => some ("YAML parse error: " ++ reason)
  | .unreadable _ => none
  | .refused (.malformed m) => some m.message
  | .refused .unwritable => none

end Document.ReadError

/-- Why a text is not rendered. -/
inductive Failure where
  | document (e : Document.ReadError)
  | graph (e : Graph.Error)
  | layout (e : Layout.Error)
  deriving DecidableEq, Repr

/-- The message that is reported; none for a failure that is not reported. -/
def Failure.message? : Failure → Option String
  | document e => e.message?
  | graph e => some e.message
  | layout e => some e.message

end ThreatTree
