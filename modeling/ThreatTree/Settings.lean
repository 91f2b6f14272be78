import ThreatTree.Record.Field
import ThreatTree.Theme.Builtin
import ThreatTree.Layout
import ThreatTree.Yaml.Load

/-!
# Settings

A setting comes from its environment variable if that is set and not empty, else from the
settings file if the file has it, else from its default.
-/

namespace ThreatTree

open Value (Entries)

structure Settings where
  defaultTheme : String
  layoutEngine : String
  outputFormat : String
  deriving DecidableEq, Repr

namespace Settings

/-- The settings file that is read if no other is given. -/
def fileName : String := "attacktree.yaml"

/-- Why there are no settings. `file` is the settings file as it is named to the user. -/
inductive Error where
  | noFile (file : String)
  | unreadable (file : String) (e : Yaml.Error)
  | notMapping (file : String)
  | notFields
  | invalid (problems : List Record.Problem)
  deriving DecidableEq, Repr

/-- The message that is reported; none for an error that is not reported. -/
def Error.message? : Error → Option String
  | noFile file => some ("Settings file does not exist: " ++ file)
  | unreadable file (.malformed reason) =>
    some ("YAML parse error in " ++ file ++ ": " ++ reason)
  | unreadable _ _ => none
  | notMapping file => some (file ++ " must contain a mapping")
  | notFields => none
  | invalid ps => some ("Settings validation error: " ++ toString ps.length ++ " invalid")

/-- Environment variables and the settings they override. -/
def overrides : List (String × String) :=
  [("ATTACKTREE_DEFAULT_THEME", "default_theme"), ("ATTACKTREE_LAYOUT_ENGINE", "layout_engine"),
    ("ATTACKTREE_OUTPUT_FORMAT", "output_format")]

/-- An environment: names and values. -/
abbrev Environment := List (String × String)

/-- The entries of a settings file; an empty file has none. -/
def fileEntries (file text : String) : Except Error Entries :=
  match Yaml.load text.toList with
  | .error e => .error (.unreadable file e)
  | .ok .null => .ok []
  | .ok (.mapping entries) => .ok entries
  | .ok _ => .error (.notMapping file)

/-- The value of an environment variable, if it is set and not empty. -/
def valueOf? (env : Environment) (name : String) : Option String :=
  (env.lookup name).filter fun v => !v.isEmpty

/-- Entries with those that the environment overrides. -/
def override (env : Environment) (entries : Entries) : Entries :=
  overrides.foldl (fun es v =>
    match valueOf? env v.1 with
    | some value => Entries.set (.str v.2) (.str value) es
    | none => es) entries

def isText : Value → Bool
  | .str _ => true
  | _ => false

def formatOf? (s : String) : Option String := if s ∈ Layout.formats then some s else none

/-- Check the fields. Their names must be texts. -/
def ofEntries (entries : Entries) : Except Error Settings :=
  if entries.all fun e => isText e.1 then
    (Settings.mk
      <$> Record.optional entries "default_theme" Theme.defaultName Record.text
      <*> Record.optional entries "layout_engine" "dot" Record.text
      <*> Record.optional entries "output_format" "svg"
        (Record.choice formatOf? .notChoice)).toExcept.mapError .invalid
  else .error .notFields

/-- Settings from the text of a file, if there is one, and the environment. -/
def ofText (file : Option (String × String)) (env : Environment) : Except Error Settings := do
  let entries ← match file with
    | none => .ok []
    | some (name, text) => fileEntries name text
  ofEntries (override env entries)

end Settings

end ThreatTree
