import ThreatTree.Command.Outcome
import ThreatTree.Location.Index
import ThreatTree.Page.Preview
import ThreatTree.Yaml.Writing

/-!
# The commands

`validate`, `compile`, `locate`, `themes`, `new` and `preview`. Settings are loaded before a
command's own arguments are looked at. A command writes at most one file. When it does, nothing
can fail any more but the writing itself.
-/

namespace ThreatTree.Command

/-! ## Settings and files -/

def orFileError {α : Type} (x : Except File.Error α) : Except Stop α :=
  x.mapError fun e => .unreported (.file e)

/-- The settings file: the one given, or the one in the working folder if there is one. -/
def settingsFile (w : World) (path : Option String) :
    Except (Settings.Error ⊕ File.Error) (Option (String × String)) :=
  let given := path.filter fun p => !p.isEmpty
  let file := given.elim ⟨1, w.folder.here ++ [Settings.fileName]⟩ File.Path.ofString
  if w.folder.has file.text then
    match w.folder.read file.text with
    | .ok text => .ok (some (file.text, text))
    | .error e => .error (.inr e)
  else if file.isTooLong then .error (.inr .tooLong)
  else if given.isSome then .error (.inl (.noFile file.text))
  else .ok none

/-- The settings, from a file and the environment. -/
def loadSettings (w : World) (path : Option String) :
    Except (Settings.Error ⊕ File.Error) Settings := do
  let file ← settingsFile w path
  (Settings.ofText file w.env).mapError .inl

/-- Settings that were loaded, and what they are with the surrogates of their file masked. -/
def maskSettings (w : World) (path : Option String) (s : Settings) : Twice Settings :=
  match settingsFile w path with
  | .ok (some (name, text)) =>
    (Twice.read (fun text => Settings.ofText (some (name, text)) w.env) text).toOption.getD ⟨s, s⟩
  | _ => ⟨s, s⟩

/-- The settings as commands have them. -/
def readSettings (w : World) (path : Option String) :
    Except (Settings.Error ⊕ File.Error) (Twice Settings) :=
  (loadSettings w path).map (maskSettings w path)

/-- An argument that is the path of a file. -/
def checkPath (arg : String) : Except Stop Unit :=
  if (File.Path.ofString arg).holdsNul then .error (.unreported (.file .holdsNul)) else .ok ()

/-- An argument that must name a file. -/
def existingFile (w : World) (arg : String) : Except Stop Unit := do
  checkPath arg
  match w.folder.at? arg with
  | none => .error (.usage (.noSuchFile arg))
  | some (.folder _) => .error (.usage (.isFolder arg))
  | some (.file _ _) => .ok ()

/-- The text of a tree file, and its document. -/
def loadDocument (w : World) (action : String) (file : String) :
    Except Stop (String × Twice Document) := do
  let text ← orFileError (w.folder.read file)
  let d ← (Twice.read Document.ofText text).mapError fun e => Stop.ofFailure action (.document e)
  return (text, d)

def compileDocument (action : String) (theme : Option String) (d : Document) :
    Except Stop Graph :=
  (d.compile .builtin theme).mapError fun e => Stop.ofFailure action (.graph e)

/-- The theme for a drawing: the first of these that is there and not empty. -/
def chooseTheme (option : Option String) (d : Document) (s : Settings) : String :=
  ((option.filter fun t => !t.isEmpty) <|> (d.theme.filter fun t => !t.isEmpty)).getD
    s.defaultTheme

/-! ## Commands -/

def validate (w : World) (file : String) : Action Unit := do
  let (_, d) ← loadDocument w "Validation" file
  let g ← compileDocument "Validation" none d.plain
  echo ["Validation successful!"]
  print ["  Title: " ++ d.plain.title] (d.hasSurrogate (·.title))
  echo ["  Facts: " ++ toString d.plain.facts.length,
    "  Attacks: " ++ toString d.plain.attacks.length,
    "  Mitigations: " ++ toString d.plain.mitigations.length,
    "  Goals: " ++ toString d.plain.goals.length,
    "  Edges: " ++ toString g.edges.length]

/-- The source of the drawing of a document, if it has one. -/
def source (theme : String) (d : Document) : String :=
  match d.compile .builtin (some theme) with
  | .ok g => g.dot
  | .error _ => ""

/-- The drawing of a graph that was asked of the engine. -/
def draw (w : World) (l : Layout) (g : Graph) (format : String) :
    Except Stop (Except Layout.Error String) :=
  if w.breaksDown ⟨l.program, format, g.dot⟩ then .error (.unreported .engine)
  else .ok (l.render w.engine 0 g.dot format)

/-- The path of a drawing without the suffix that the engine adds. -/
def drawingStem (file : String) (output : Option String) (format : String) : File.Path :=
  match output with
  | none => (File.Path.ofString file).withSuffix ""
  | some o =>
    let p := File.Path.ofString o
    if p.suffix = "." ++ format then p.withSuffix "" else p

def compile (w : World) (s : Twice Settings) (file : String)
    (theme format output : Option String) : Action Unit := do
  let format := format.getD s.plain.outputFormat
  let output := output.filter fun o => !o.isEmpty
  let (_, d) ← loadDocument w "Compile" file
  let theme := chooseTheme theme d.plain s.plain
  let g ← compileDocument "Compile" (some theme) d.plain
  if format = "dot" then
    let hasSurrogate := d.hasSurrogate (source theme)
    match output with
    | none => print [g.dot] hasSurrogate
    | some o =>
      write (orFileError (w.folder.target (File.Path.ofString o))) g.dot hasSurrogate
      echo ["Attack tree compiled: " ++ o]
  else
    let refuse := fun e => Stop.ofFailure "Compile" (.layout e)
    let l ← (Layout.of? s.plain.layoutEngine).mapError refuse
    let drawing ← (← draw w l g format).mapError refuse
    let name := Layout.fileName (drawingStem file output format).text format
    write (orFileError (w.folder.targetMakingFolders (File.Path.ofString name))) drawing false
    echo ["Attack tree rendered: " ++ name]

def locate (w : World) (file id : String) (source : Option String) : Action Unit := do
  let (text, d) ← loadDocument w "Locate" file
  let index := Location.Index.build text.toList d.plain
  let source := source.filter fun p => !p.isEmpty
  let span := source.elim (index.node? id) fun p => index.edge? p id
  match span with
  | none =>
    throw (.negative ("No source location for " ++ source.elim id fun p => p ++ "->" ++ id))
  | some span =>
    let excerpt ← (span.excerpt text.toList).mapError fun e => Stop.unreported (.span e)
    echo [file ++ ":" ++ toString (span.line + 1) ++ ":" ++ toString (span.column + 1) ++ ": "
      ++ String.ofList excerpt]

def themes (s : Settings) : Action Unit :=
  echo (Registry.builtin.names.map fun name =>
    if name = s.defaultTheme then name ++ " (default)" else name)

/-- The text of a new tree file with a title. -/
def newText (title : String) : String :=
  String.ofList (Text.replaceFirst "title: New Attack Tree".toList
    (Yaml.Writing.entry "title" title.toList) Document.seed.toList)

def new (w : World) (file title : String) : Action Unit := do
  let path := File.Path.ofString file
  if w.folder.has path.text then throw (.failed ("File already exists: " ++ file))
  else
    -- The title is written with escapes for all surrogates.
    write (orFileError (w.folder.targetMakingFolders path)) (newText title) false
    echo ["Attack tree created!",
      "  Location: " ++ path.text,
      "",
      "Next steps:",
      "  1. Edit the facts, attacks, mitigations and goals in " ++ path.name,
      "  2. Run: attacktree preview " ++ file]

/-- The drawing for a page, or the error that is shown in its place. -/
def drawPage (w : World) (s : Settings) (g : Graph) :
    Except Stop (Option String × Option String) := do
  match Layout.of? s.layoutEngine with
  | .error e => return (none, some e.message)
  | .ok l =>
    match ← draw w l g "svg" with
    | .ok svg => return (some svg, none)
    | .error e => return (none, some e.message)

/-- The path of a page. -/
def pagePath (file : String) (output : Option String) : File.Path :=
  (output.filter fun o => !o.isEmpty).elim ((File.Path.ofString file).withSuffix ".html")
    File.Path.ofString

def preview (w : World) (s : Twice Settings) (file : String) (theme output : Option String) :
    Action Unit := do
  let (text, d) ← loadDocument w "Preview" file
  let g ← compileDocument "Preview" (some (chooseTheme theme d.plain s.plain)) d.plain
  let index := Location.Index.build text.toList d.plain
  let (svg, error) ← drawPage w s.plain g
  let path := pagePath file output
  let html ← (Page.generate text.toList g index
    ⟨svg, (File.Path.ofString file).name, error, w.stamp⟩).mapError
      fun e => Stop.unreported (.span e)
  -- Of a document only the title is on the page as it is, and of the settings the name of an
  -- engine that does not exist.
  write (orFileError (w.folder.targetMakingFolders path)) html
    (d.hasSurrogate (·.title) || s.hasSurrogate (·.layoutEngine))
  let head := match error with
    | none => "Preview generated successfully!"
    | some e => "Preview generated without a diagram: " ++ e
  echo [head, "  Output: " ++ path.text]

/-! ## Command lines -/

def helpOption : Opt := ⟨"help", "--help", none, false⟩

def themeOption : Opt := ⟨"theme", "--theme", some 't', true⟩

def outputOption : Opt := ⟨"output", "--output", some 'o', true⟩

/-- The options that stand before the command. -/
def mainOptions : List Opt :=
  [⟨"version", "--version", none, false⟩, ⟨"config", "--config", none, true⟩,
    ⟨"verbose", "--verbose", some 'v', false⟩, helpOption]

/-- The commands, by name. -/
inductive Name where
  | validate
  | compile
  | locate
  | themes
  | new
  | preview
  deriving DecidableEq, Repr

namespace Name

def all : List (String × Name) :=
  [("validate", validate), ("compile", compile), ("locate", locate), ("themes", themes),
    ("new", new), ("preview", preview)]

def options : Name → List Opt
  | validate => [helpOption]
  | compile =>
    [themeOption, ⟨"format", "--format", some 'f', true⟩, outputOption, helpOption]
  | locate => [⟨"from", "--from", none, true⟩, helpOption]
  | themes => [helpOption]
  | new => [⟨"title", "--title", none, true⟩, helpOption]
  | preview => [themeOption, outputOption, helpOption]

/-- The number of arguments. -/
def arity : Name → Nat
  | themes => 0
  | locate => 2
  | _ => 1

end Name

def usageText : List String :=
  ["Usage: cli [OPTIONS] COMMAND [ARGS]...", "",
    "Commands: " ++ ", ".intercalate (Name.all.map (·.1))]

def orUsage {α : Type} (x : Except Usage α) : Except Stop α := x.mapError .usage

/-- Exactly `n` arguments. -/
def checkArity (n : Nat) (args : List String) : Except Stop Unit :=
  if args.length < n then .error (.usage .missingArgument)
  else match args.drop n with
    | [] => .ok ()
    | extra :: _ => .error (.usage (.extraArgument extra))

/-- A format that can be asked for. -/
def checkChoice (format : Option String) : Except Stop Unit :=
  match format with
  | none => .ok ()
  | some f => if f = "dot" || f ∈ Layout.formats then .ok () else .error (.usage (.notChoice f))

/-- The value of an option that was given. -/
def checkOption (p : Parsed) (name : String) : Except Stop Unit :=
  match name with
  | "format" => checkChoice (p.value? name)
  | "output" => checkPath ((p.value? name).getD "")
  | _ => .ok ()

/-- The options that were given, and the arguments. -/
def checkArguments (name : Name) (p : Parsed) : Except Stop Unit := do
  p.options.forM fun o => checkOption p o.1
  if name = .themes then .ok () else checkPath p.file
  checkArity name.arity p.arguments

/-- A command with its options and arguments. -/
def perform (w : World) (s : Twice Settings) (p : Parsed) : Name → Action Unit
  | .themes => themes s.plain
  | .new =>
    match w.folder.at? p.file with
    | some (.folder _) => throw (.usage (.isFolder p.file))
    | _ => new w p.file ((p.value? "title").getD "New Attack Tree")
  | .validate => do
    existingFile w p.file
    validate w p.file
  | .compile => do
    existingFile w p.file
    compile w s p.file (p.value? "theme") (p.value? "format") (p.value? "output")
  | .locate => do
    existingFile w p.file
    locate w p.file ((p.arguments.drop 1).head?.getD "") (p.value? "from")
  | .preview => do
    existingFile w p.file
    preview w s p.file (p.value? "theme") (p.value? "output")

/-- A command and what follows it, once the settings are loaded. -/
def dispatch (w : World) (s : Twice Settings) (name : Name) (args : List String) : Action Unit := do
  let p ← orUsage (parse name.options true args)
  if p.has "help" then echo usageText
  else
    checkArguments name p
    perform w s p name

/-- Everything after the options before the command. -/
def runCommand (w : World) (config : Option String) (args : List String) : Action Unit :=
  match args with
  | [] => throw (.usage .missingCommand)
  | word :: args =>
    match Name.all.lookup word with
    | none => throw (.usage (.unknownCommand word))
    | some name =>
      match readSettings w config with
      | .error (.inl e) => throw (Stop.ofSettings e)
      | .error (.inr e) => throw (.unreported (.file e))
      | .ok s => dispatch w s name args

/-- What the options before the command ask for instead of it. -/
def Parsed.notice? (p : Parsed) : Option (List String) :=
  (p.options.find? fun o => o.1 = "version" || o.1 = "help").map fun o =>
    if o.1 = "version" then ["cli, version 1.0.0"] else usageText

/-- What stands in the command's place and looks like an option is read as one, though only for
the notices. -/
def secondNotice? (args : List String) : Except Stop (Option (List String)) :=
  if args.head?.any isOption then
    (orUsage (parse mainOptions false args)).map Parsed.notice?
  else .ok none

/-- The settings file that was named, if one was. -/
def checkConfig (w : World) (config : Option String) : Except Stop Unit :=
  config.elim (.ok ()) (existingFile w)

/-- A whole command line. -/
def runLine (w : World) (args : List String) : Action Unit := do
  let p ← orUsage (parse mainOptions false args)
  match p.notice? with
  | some lines => echo lines
  | none =>
    checkConfig w (p.value? "config")
    match ← secondNotice? p.arguments with
    | some lines => echo lines
    | none => runCommand w (p.value? "config") p.arguments

/-- Run a command line. -/
def run (w : World) (args : List String) : Outcome :=
  let (result, d) := (runLine w args).after ⟨[], []⟩
  .of result d

end ThreatTree.Command
