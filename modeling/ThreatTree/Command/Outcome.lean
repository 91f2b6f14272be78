import ThreatTree.Command.Arguments
import ThreatTree.Failure
import ThreatTree.Settings
import ThreatTree.File.Folder
import ThreatTree.Location.Span
import ThreatTree.Text.Plain
import ThreatTree.Text.Surrogate

/-!
# Outcomes of commands

A command ends with an exit code, with what it printed, and with the files that it wrote. A
failure that is not reported ends it with exit code 1 and nothing printed about it.

A text with a surrogate in it can be neither printed nor written. The attempt to print it prints
nothing; the attempt to write it leaves an empty file behind. Arguments and the environment are
taken to have no surrogates.
-/

namespace ThreatTree.Command

/-- What a command runs in. `stamp` is the present time, as it is written on a page. -/
structure World where
  folder : File.Folder
  env : Settings.Environment
  engine : Layout.Engine
  stamp : String
  /-- The engine ends in a way that is no failure it reports: it may not be started, the source may
  have no UTF-8 form, or a drawing for a page may be no text. -/
  breaksDown : Layout.Request → Bool := fun _ => false

/-- A failure that is not reported. -/
inductive Unreported where
  | document (e : Document.ReadError)
  | settings (e : Settings.Error)
  | file (e : File.Error)
  | span (e : Span.Outside)
  /-- A text with a surrogate was to be printed or written. -/
  | encoding
  /-- The layout engine broke down. -/
  | engine
  deriving DecidableEq, Repr

/-- What a failure that is not reported was about. -/
def Unreported.summary : Unreported → String
  | document _ => "the document holds a value that does not exist"
  | settings _ => "the settings hold a name or a value that does not exist"
  | file _ => "a file cannot be read or written"
  | span _ => "a place in the text does not exist"
  | encoding => "a text cannot be printed or written"
  | engine => "the layout engine broke down"

/-- How a command ends early. -/
inductive Stop where
  /-- The command line is wrong. -/
  | usage (u : Usage)
  /-- A message on the error output. -/
  | failed (message : String)
  /-- A message on the output. -/
  | negative (message : String)
  | unreported (e : Unreported)
  deriving DecidableEq, Repr

/-- What a command has done: the lines it printed, and the files it wrote. -/
structure Done where
  lines : List String
  changes : List File.Folder.Change
  deriving DecidableEq, Repr

/-- A command, or a part of one. It may stop early; what it has done by then stays done. -/
abbrev Action := ExceptT Stop (StateM Done)

/-- How an action ends that starts after what was done before. -/
def Action.after {α : Type} (a : Action α) (d : Done) : Except Stop α × Done := a.run.run d

def echo (lines : List String) : Action Unit :=
  modify fun d => { d with lines := d.lines ++ lines }

/-- Print lines, if no surrogate stands in them. -/
def print (lines : List String) (hasSurrogate : Bool) : Action Unit :=
  if hasSurrogate then throw (.unreported .encoding) else echo lines

/-- Write a file, at the place that was found for it. The file is emptied first, and it stays empty
if a surrogate stands in the text. -/
def write (place : Except Stop (List String)) (text : String) (hasSurrogate : Bool) :
    Action Unit := do
  let parts ← place
  modify fun d => { d with changes := d.changes ++ [(parts, if hasSurrogate then "" else text)] }
  if hasSurrogate then throw (.unreported .encoding)

/-- What is left of a command. -/
structure Outcome where
  exitCode : Nat
  stdout : String
  stderr : String
  unreported : Option Unreported
  changes : List File.Folder.Change
  deriving DecidableEq, Repr

/-- What is printed for the given lines. -/
def printed (lines : List String) : String := String.ofList (Text.printed (lines.map String.toList))

/-- The outcome of a command that ended, or stopped, after what it had done. -/
def Outcome.of (result : Except Stop Unit) (d : Done) : Outcome :=
  match result with
  | .ok () => ⟨0, printed d.lines, "", none, d.changes⟩
  | .error (.usage u) => ⟨2, printed d.lines, printed ["Error: " ++ u.message], none, d.changes⟩
  | .error (.failed m) => ⟨1, printed d.lines, printed [m], none, d.changes⟩
  | .error (.negative m) => ⟨1, printed (d.lines ++ [m]), "", none, d.changes⟩
  | .error (.unreported e) => ⟨1, printed d.lines, "", some e, d.changes⟩

/-- Report a failure of the given action, if it is one that is reported. -/
def Stop.ofFailure (action : String) (f : Failure) : Stop :=
  match f with
  | .document e =>
    match e.message? with
    | some m => .failed (action ++ " failed: " ++ m)
    | none => .unreported (.document e)
  | .graph e => .failed (action ++ " failed: " ++ e.message)
  | .layout e => .failed (action ++ " failed: " ++ e.message)

def Stop.ofSettings (e : Settings.Error) : Stop :=
  match e.message? with
  | some m => .failed ("Loading settings failed: " ++ m)
  | none => .unreported (.settings e)

end ThreatTree.Command
