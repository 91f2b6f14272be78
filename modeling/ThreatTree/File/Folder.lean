import ThreatTree.File.Path
import ThreatTree.Assoc

/-!
# Folders

What a command sees of the files: those below the root, by the parts of the path to each, the
folders, and the working folder, at which relative paths start. A file holds a text, or bytes that
are the UTF-8 form of none and so cannot be read. The root is the folder above itself.

Reading gives every line end as a line feed. Writing reports what was written rather than
changing the folder; `written` is the folder afterwards.
-/

namespace ThreatTree.File

/-- What a file holds. -/
inductive Content where
  | text (s : String)
  /-- Bytes that are no text in UTF-8. -/
  | bytes (b : List UInt8)
  deriving DecidableEq, Repr

/-- The files and the folders below the root, and the working folder. A folder with a file in it
need not be listed. -/
structure Folder where
  files : List (List String × Content)
  folders : List (List String) := []
  here : List String := []
  here_isPlain : ".." ∉ here := by decide
  deriving DecidableEq, Repr

/-- Why a file cannot be read or written. -/
inductive Error where
  | missing
  | isFolder
  | notFolder
  | alreadyExists
  /-- The file holds no text. -/
  | notText
  /-- The path holds a NUL. -/
  | holdsNul
  /-- A part of the path, or the path, is too long. -/
  | tooLong
  deriving DecidableEq, Repr

/-- What stands at a path. -/
inductive Kind where
  | file (parts : List String) (content : Content)
  | folder (parts : List String)
  deriving DecidableEq, Repr

namespace Folder

def file? (f : Folder) (parts : List String) : Option Content := f.files.lookup parts

/-- There is a folder with these parts. -/
def isFolder (f : Folder) (parts : List String) : Bool :=
  parts.isPrefixOf f.here || f.folders.any (fun d => parts.isPrefixOf d)
    || f.files.any fun e => parts.isPrefixOf e.1 && e.1.length > parts.length

/-! ## Places -/

/-- The folder at which a path starts. -/
def start (f : Folder) (p : Path) : List String := if p.isAbsolute then [] else f.here

/-- The parts of a path from the root on. -/
def full (f : Folder) (p : Path) : List String := f.start p ++ p.parts

/-- One step along a path into folders that need not exist: double dots go one folder up. -/
def step (done : List String) (part : String) : List String :=
  if part = ".." then done.dropLast else done ++ [part]

/-- Where parts lead, if every folder on the way exists. -/
def resolve (parts : List String) : List String := parts.foldl step []

/-- The place to which a path leads. -/
def place (f : Folder) (p : Path) : List String := resolve (f.full p)

/-- Follow the parts of a path, `done` being the parts so far. Each part before the last must
be a folder. -/
def follow (f : Folder) (done : List String) : List String → Option (List String)
  | [] => some done
  | part :: rest => if f.isFolder done then follow f (step done part) rest else none

/-- The written path names a folder by its end. -/
def namesFolder (s : String) : Bool :=
  match (Text.splitOn '/' s.toList).getLast? with
  | some last => last = [] || last = ['.']
  | none => false

/-- What stands at a written path. -/
def at? (f : Folder) (s : String) : Option Kind :=
  if s.isEmpty then none
  else match f.follow [] (f.full (Path.ofString s)) with
    | none => none
    | some parts =>
      match f.file? parts with
      | some content => if namesFolder s then none else some (.file parts content)
      | none => if f.isFolder parts then some (.folder parts) else none

def has (f : Folder) (s : String) : Bool := (f.at? s).isSome

/-- The text of a file. -/
def read (f : Folder) (s : String) : Except Error String :=
  match f.at? s with
  | some (.file _ (.text text)) => .ok (String.ofList (Text.unixLines text.toList))
  | some (.file _ (.bytes _)) => .error .notText
  | some (.folder _) => .error .isFolder
  | none => .error .missing

/-! ## Writing -/

/-- The initial segments of the parts, the shortest first. -/
def segments : List String → List (List String)
  | [] => [[]]
  | p :: ps => [] :: (segments ps).map (p :: ·)

/-- The first place on the way to a folder that is no folder. -/
def gap? (f : Folder) (done : List String) : List String → Option (List String)
  | [] => if f.isFolder done then none else some done
  | part :: rest => if f.isFolder done then gap? f (step done part) rest else some done

/-- Why nothing can be written below `parent`, a folder that does not exist. -/
def whyNoFolder (f : Folder) (p : Path) (parent : List String) : Error :=
  if (f.gap? [] parent).any fun gap => (f.file? gap).isSome then .notFolder
  else if p.isTooLong then .tooLong
  else .missing

/-- The parts at which a file can be written, in a folder that exists. -/
def target (f : Folder) (p : Path) : Except Error (List String) :=
  if p.holdsNul then .error .holdsNul
  else match f.follow [] (f.full p.parent) with
    | none => .error (f.whyNoFolder p (f.full p.parent))
    | some parent =>
      if !f.isFolder parent then .error (f.whyNoFolder p parent)
      else if p.isTooLong then .error .tooLong
      else if f.isFolder (f.place p) then .error .isFolder
      else .ok (f.place p)

/-- Follow the parts of a path, `done` being the parts so far, and make the folders that are
not there; `made` tells whether one was made. No folder can be made where a file stands. -/
def enter (f : Folder) (made : Bool) (done : List String) :
    List String → Except Error (List String)
  | [] => .ok done
  | part :: rest =>
    let next := step done part
    if part = ".." then enter f made next rest
    else if (f.file? next).isSome then
      .error (if made || rest.isEmpty then .alreadyExists else .notFolder)
    else enter f (made || !f.isFolder next) next rest

/-- The parts at which a file can be written, once the folders on the way are made. -/
def targetMakingFolders (f : Folder) (p : Path) : Except Error (List String) :=
  if p.holdsNul then .error .holdsNul
  else match f.enter false [] (f.full p.parent) with
    | .error e => .error e
    | .ok parent =>
      if p.isTooLong then .error .tooLong
      else match p.parts.getLast? with
        | none => .error .isFolder
        | some last =>
          if last = ".." || f.isFolder (parent ++ [last]) then .error .isFolder
          else .ok (parent ++ [last])

/-- A file and its text, as written. -/
abbrev Change := List String × String

/-- The folder after a file was written. -/
def written (f : Folder) (c : Change) : Folder :=
  { f with files := assocSet c.1 (.text c.2) f.files }

end Folder

end ThreatTree.File
