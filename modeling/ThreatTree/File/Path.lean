import ThreatTree.Text.Lines

/-!
# Names of files

A path is a list of parts, relative to the working folder, or to the root if slashes stand in
front. Empty parts and single dots do not count; double dots stay. Two slashes in front are kept
as they are; more of them are one.

The suffix of a name starts at its last dot, unless that dot is the first or the last
character of the name.
-/

namespace ThreatTree.File

/-- A path to a file or a folder: the number of slashes in front, and the parts. -/
structure Path where
  slashes : Nat
  parts : List String
  deriving DecidableEq, Repr

namespace Path

/-- The parts of a written path. -/
def partsOf (s : String) : List String :=
  ((Text.splitOn '/' s.toList).map String.ofList).filter fun p => p ≠ "" && p ≠ "."

/-- The slashes in front of a written path that count. -/
def slashesOf (s : String) : Nat :=
  let n := (s.toList.takeWhile (· == '/')).length
  if n ≤ 2 then n else 1

def ofString (s : String) : Path := ⟨slashesOf s, partsOf s⟩

/-- The path starts at the root. -/
def isAbsolute (p : Path) : Bool := p.slashes != 0

/-- The written form. The working folder is a dot. -/
def text (p : Path) : String :=
  if p.isAbsolute then String.ofList (List.replicate p.slashes '/') ++ "/".intercalate p.parts
  else if p.parts.isEmpty then "."
  else "/".intercalate p.parts

def name (p : Path) : String := p.parts.getLast?.getD ""

/-- The path to the folder above. -/
def parent (p : Path) : Path := { p with parts := p.parts.dropLast }

/-- The part of a name before its suffix, and the suffix. -/
def splitSuffix (name : String) : String × String :=
  let s := name.toList
  let after := (s.reverse.takeWhile (· ≠ '.')).length
  let stem := s.length - after - 1
  if after = 0 || s.length ≤ after + 1 then (name, "")
  else (String.ofList (s.take stem), String.ofList (s.drop stem))

def suffix (p : Path) : String := (splitSuffix p.name).2

/-- No file can have a NUL in its path. -/
def holdsNul (p : Path) : Bool := p.parts.any fun part => '\x00' ∈ part.toList

/-- A part can have 255 bytes at most, and a path 4095. -/
def isTooLong (p : Path) : Bool :=
  p.parts.any (fun part => part.utf8ByteSize > 255) || p.text.utf8ByteSize > 4095

/-- The path with another suffix, or with none. -/
def withSuffix (p : Path) (suffix : String) : Path :=
  match p.parts.getLast? with
  | none => p
  | some last => { p with parts := p.parts.dropLast ++ [(splitSuffix last).1 ++ suffix] }

end Path

end ThreatTree.File
