import ThreatTree.Command.Run
import Std.Time.DateTime
import Std.Time.Zoned.TimeZone

/-!
# The program

The command line program. Beforehand it looks at the files that the arguments may name; the
command itself is `Command.run`, a function of what was found. Afterwards the output is
printed, and the files are written. The error output shows a surrogate as an escape.
-/

namespace ThreatTree.Program

open File (Folder)

/-- The texts in the arguments that may name a file: an argument, what follows its first equals
sign, and what follows a short option. -/
def candidates (args : List String) : List String :=
  args.flatMap fun arg =>
    let s := arg.toList
    [arg, String.ofList ((s.dropWhile (· ≠ '=')).drop 1), String.ofList (s.drop 2)]

/-- The written form of a place. -/
def written (parts : List String) : String := File.Path.text ⟨1, parts⟩

/-- Look at a place. -/
def look (f : Folder) (parts : List String) : IO Folder := do
  try
    let bytes ← IO.FS.readBinFile (written parts)
    let content := match String.fromUTF8? bytes with
      | some text => .text text
      | none => .bytes bytes.toList
    return { f with files := assocSet parts content f.files }
  catch
    | .inappropriateType .. => return { f with folders := parts :: f.folders }
    | _ => return f

/-- Look at the place to which a path leads and at the folders on the way to it. -/
def lookAlong (f : Folder) (name : String) : IO Folder :=
  ((Folder.segments (f.full (.ofString name))).map Folder.resolve).foldlM
    (fun f parts => if parts.isEmpty then pure f else look f parts) f

/-- The working folder, with nothing known of its files. -/
def workingFolder : IO Folder := do
  let parts := File.Path.partsOf (toString (← IO.currentDir))
  return { files := [], here := parts.filter (· ≠ ".."), here_isPlain := by simp }

/-- The present time, as it is written on a page. -/
def stamp : IO String := do
  let t := Std.Time.PlainDateTime.ofWallTime
    (.ofTimestamp (← Std.Time.Timestamp.now) Std.Time.TimeZone.UTC.offset)
  let date : Calendar.Date :=
    ⟨t.date.year.toInt.toNat, t.date.month.val.toNat, t.date.day.val.toNat⟩
  let moment : Calendar.Moment :=
    ⟨date, t.time.hour.val.toNat, t.time.minute.val.toNat, t.time.second.val.toNat, 0, none⟩
  return moment.text ++ " UTC"

/-- The environment variables that are settings. -/
def environment : IO Settings.Environment :=
  Settings.overrides.filterMapM fun v => do
    return (← IO.getEnv v.1).map fun value => (v.1, value)

/-- An engine for a place where no layout program can be started. -/
def engine : Layout.Engine := fun _ request =>
  .error (.notInstalled ("failed to execute '" ++ request.program
    ++ "', make sure the Graphviz executables are on your systems' PATH"))

def world (args : List String) : IO Command.World := do
  let folder ← (Settings.fileName :: candidates args).foldlM lookAlong (← workingFolder)
  return { folder, env := ← environment, engine, stamp := ← stamp }

/-- Write a file, and make the folders above it. -/
def save (c : Folder.Change) : IO Unit := do
  IO.FS.createDirAll (written c.1.dropLast)
  IO.FS.writeFile (written c.1) c.2

/-- A text as the error output shows it. -/
def shown (s : String) : String :=
  String.ofList <| s.toList.flatMap fun c =>
    if Text.isStandIn c then "\\u".toList ++ Nat.toDigits 16 (Text.surrogateOf c) else [c]

/-- Print the output of a command and write its files. -/
def finish (o : Command.Outcome) : IO UInt32 := do
  o.changes.forM save
  (← IO.getStdout).putStr o.stdout
  (← IO.getStderr).putStr (shown o.stderr)
  if let some e := o.unreported then IO.eprintln ("Error: " ++ e.summary)
  return o.exitCode.toUInt32

end ThreatTree.Program

def main (args : List String) : IO UInt32 := do
  ThreatTree.Program.finish (ThreatTree.Command.run (← ThreatTree.Program.world args) args)
