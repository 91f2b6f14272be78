import ThreatTree.Text.Lines

/-!
# Command lines

Options start with a hyphen. A long option has two hyphens and may have its value after an
equals sign; a short one is a single letter, and its value may follow without a gap. An
argument of two hyphens ends the options. The value of an option is taken as it is, even if
it looks like an option.
-/

namespace ThreatTree.Command

/-- An option: its name, the long and the short way to write it, and whether it has a value. -/
structure Opt where
  name : String
  long : String
  short : Option Char
  takesValue : Bool
  deriving DecidableEq, Repr

/-- What is wrong with a command line. -/
inductive Usage where
  | unknownOption (arg : String)
  | noValue (option : String)
  | needlessValue (option : String)
  | missingArgument
  | extraArgument (arg : String)
  | missingCommand
  | unknownCommand (name : String)
  | noSuchFile (path : String)
  | isFolder (path : String)
  | notChoice (value : String)
  deriving DecidableEq, Repr

def Usage.message : Usage → String
  | unknownOption arg => "No such option: " ++ arg
  | noValue option => "Option " ++ option ++ " requires an argument."
  | needlessValue option => "Option " ++ option ++ " does not take a value."
  | missingArgument => "Missing argument."
  | extraArgument arg => "Got unexpected extra argument (" ++ arg ++ ")"
  | missingCommand => "Missing command."
  | unknownCommand name => "No such command '" ++ name ++ "'."
  | noSuchFile path => "Path '" ++ path ++ "' does not exist."
  | isFolder path => "File '" ++ path ++ "' is a directory."
  | notChoice value => "'" ++ value ++ "' is not one of the choices."

/-- Options that were given, in order, with their values, and the other arguments. -/
structure Parsed where
  options : List (String × String)
  arguments : List String
  deriving DecidableEq, Repr

namespace Parsed

def addOption (p : Parsed) (name value : String) : Parsed :=
  { p with options := (name, value) :: p.options }

def addArgument (p : Parsed) (arg : String) : Parsed :=
  { p with arguments := arg :: p.arguments }

/-- The value of an option, the last one given. -/
def value? (p : Parsed) (name : String) : Option String := p.options.reverse.lookup name

def has (p : Parsed) (name : String) : Bool := p.options.any fun o => o.1 = name

/-- The argument that names a file, for the commands that have one. -/
def file (p : Parsed) : String := p.arguments.head?.getD ""

end Parsed

/-- What one argument says: options with their values, and perhaps one whose value is the next
argument. -/
structure Reading where
  options : List (String × String)
  open? : Option Opt

/-- An argument with two hyphens. -/
def readLong (opts : List Opt) (arg : String) : Except Usage Reading :=
  let (name, value) := arg.toList.span (· ≠ '=')
  match opts.find? fun o => o.long.toList = name with
  | none => .error (.unknownOption arg)
  | some o =>
    match value, o.takesValue with
    | [], true => .ok ⟨[], some o⟩
    | [], false => .ok ⟨[(o.name, "")], none⟩
    | _ :: v, true => .ok ⟨[(o.name, String.ofList v)], none⟩
    | _ :: _, false => .error (.needlessValue o.long)

/-- The letters after a single hyphen. -/
def readShort (opts : List Opt) (arg : String) : List Char → Except Usage Reading
  | [] => .ok ⟨[], none⟩
  | c :: rest =>
    match opts.find? fun o => o.short = some c with
    | none => .error (.unknownOption arg)
    | some o =>
      if o.takesValue then
        if rest.isEmpty then .ok ⟨[], some o⟩ else .ok ⟨[(o.name, String.ofList rest)], none⟩
      else (readShort opts arg rest).map fun r =>
        { r with options := (o.name, "") :: r.options }

def readOption (opts : List Opt) (arg : String) : Except Usage Reading :=
  if arg.startsWith "--" then readLong opts arg else readShort opts arg (arg.toList.drop 1)

/-- The argument starts an option. -/
def isOption (arg : String) : Bool := arg.toList.head? == some '-' && arg.length > 1

/-- Read a command line. Options may stand between the other arguments if `mixed` is set, and
else only before them. -/
def parse (opts : List Opt) (mixed : Bool) : List String → Except Usage Parsed
  | [] => .ok ⟨[], []⟩
  | arg :: rest =>
    if arg = "--" then .ok ⟨[], rest⟩
    else if isOption arg then
      match readOption opts arg with
      | .error e => .error e
      | .ok r =>
        let add := fun (p : Parsed) => { p with options := r.options ++ p.options }
        match r.open? with
        | none => (parse opts mixed rest).map add
        | some o =>
          match rest with
          | [] => .error (.noValue o.long)
          | value :: rest => (parse opts mixed rest).map fun p => add (p.addOption o.name value)
    else if mixed then (parse opts mixed rest).map (·.addArgument arg)
    else .ok ⟨[], arg :: rest⟩

end ThreatTree.Command
