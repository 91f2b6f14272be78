/-!
# The layout engine

An engine is given the source text of a graph and answers with a drawing in one of three
formats, or fails. It is a parameter of everything that draws: a function of the number of
the call and of the request, so that each call may end differently.
-/

namespace ThreatTree

namespace Layout

/-- The programs that lay out graphs. -/
def programs : List String :=
  ["dot", "neato", "twopi", "circo", "fdp", "sfdp", "patchwork", "osage"]

/-- The formats of drawings. -/
def formats : List String := ["svg", "png", "pdf"]

/-- What an engine is asked for. -/
structure Request where
  program : String
  format : String
  source : String
  deriving DecidableEq, Repr

/-- Why an engine gives no drawing. -/
inductive EngineFailure where
  | notInstalled (detail : String)
  | failed (detail : String)
  deriving DecidableEq, Repr

/-- What an engine answers to its calls, which are numbered from zero. -/
abbrev Engine := Nat → Request → Except EngineFailure String

/-- Why there is no drawing. -/
inductive Error where
  | unknownProgram (name : String)
  | unsupportedFormat (name : String)
  | notInstalled (detail : String)
  | failed (detail : String)
  deriving DecidableEq, Repr

def Error.message : Error → String
  | unknownProgram name => "Unknown Graphviz engine: " ++ name
  | unsupportedFormat name => "Unsupported output format: " ++ name
  | notInstalled detail => "Graphviz is not installed: " ++ detail
  | failed detail => "Graphviz failed to lay out the graph: " ++ detail

def EngineFailure.toError : EngineFailure → Error
  | notInstalled detail => .notInstalled detail
  | failed detail => .failed detail

end Layout

/-- A choice of one of the programs. -/
structure Layout where
  program : String
  program_mem : program ∈ Layout.programs
  deriving DecidableEq, Repr

namespace Layout

/-- The layout by the program with a name. -/
def of? (program : String) : Except Error Layout :=
  if h : program ∈ programs then .ok ⟨program, h⟩ else .error (.unknownProgram program)

def checkFormat (format : String) : Except Error Unit :=
  if format ∈ formats then .ok () else .error (.unsupportedFormat format)

/-- The drawing of a graph by call number `call`. Without a known format there is no call. -/
def render (l : Layout) (engine : Engine) (call : Nat) (source format : String) :
    Except Error String := do
  checkFormat format
  (engine call ⟨l.program, format, source⟩).mapError EngineFailure.toError

/-- The drawing of a graph for a web page. -/
def renderSvg (l : Layout) (engine : Engine) (call : Nat) (source : String) :
    Except Error String :=
  l.render engine call source "svg"

/-- The name of the file that holds a drawing. -/
def fileName (stem format : String) : String := stem ++ "." ++ format

end Layout

end ThreatTree
