import ThreatTree.Proofs.Document.Title
import ThreatTree.Proofs.Command.Change
import ThreatTree.Proofs.Text.Returns

/-!
# Titles of new files

`new` writes the title as the entry of a data file, cuts off the white space at the ends of what
it has written, and puts this in the place of the title of the file that a new one starts with.
The file is then read as the same document, under the title that was asked for
(`new_keeps_title`): quotes, line ends and what looks like a number come back as they were.

Two kinds of titles are not kept. White space at the end of a title that is written without quotes
is cut off with the rest (`new_cuts_title`), and a next line character between single quotes is
read as a line end. `IsKept` leaves these out.
-/

namespace ThreatTree.Command

open Yaml.Writing
open File (Folder)

/-- The title does not end with white space if it is written without quotes, and has no next line
character if it is written in single quotes. -/
structure IsKept (title : String) : Prop where
  ends : Yaml.Writing.isPlain title.toList = true →
    ∀ c ∈ title.toList.getLast?, Text.isBlank c = false
  reads : IsReadBack title.toList

/-- The title that a new file is asked to have. -/
def Parsed.title (p : Parsed) : String := (p.value? "title").getD "New Attack Tree"

/-! ## The text of a new file -/

section Text

variable {title : String}

theorem newText_eq (h : IsKept title) :
    newText title = String.ofList (Document.titled title.toList Document.seedSections) := by
  have hkey : "title".toList = 't' :: "itle".toList := rfl
  have hpiece : Document.seed.toList
      = "title: New Attack Tree".toList ++ '\n' :: '\n' :: Document.seedSections := by
    rw [Document.seed_eq_titled]
    have hscalar : scalar Document.titleKey.length "New Attack Tree".toList
        = "New Attack Tree".toList := by decide +kernel
    rw [Document.titled, hscalar]
    rfl
  rw [newText, hpiece, Text.replaceFirst_append (by decide), entry_eq hkey rfl h.ends,
    Document.titled, List.append_assoc]
  rfl

/-- There is nothing in a new file that reading changes. -/
theorem unixLines_newText (h : IsKept title) :
    String.ofList (Text.unixLines (newText title).toList) = newText title := by
  have hdirect := Document.isDirect_titled title.toList
    (List.all_eq_true.mp Document.seedSections_spec.1)
  rw [newText_eq h, String.toList_ofList, Text.unixLines_of_not_mem]
  exact fun hmem => (isAllowed_of_isDirect (hdirect _ hmem)).2 rfl

theorem ofText_newText (h : IsKept title) :
    ∃ d, Document.ofText Document.seed = .ok d
      ∧ Document.ofText (String.ofList (Text.unixLines (newText title).toList))
        = .ok { d with title := title } := by
  obtain ⟨d, hseed, hd⟩ := Document.ofText_titled_seed h.reads
  refine ⟨d, hseed, ?_⟩
  rw [unixLines_newText h, newText_eq h, hd, String.ofList_toList]

end Text

/-! ## New files -/

variable {w : World} {args : List String} {s : Twice Settings} {p : Parsed} {parts : List String}

/-- A path at which there is nothing leads to no folder either. -/
theorem at?_ne_folder {f : Folder} {file : String}
    (h : f.has (File.Path.ofString file).text = false) (place : List String) :
    f.at? file ≠ some (.folder place) := by
  intro hat
  have hwritable := File.Path.isWritable_ofString file
  rw [Folder.has, Folder.at?, File.Path.ofString_text hwritable,
    File.Path.isEmpty_text hwritable] at h
  rw [Folder.at?] at hat
  split at hat
  · cases hat
  split at hat
  · cases hat
  next place' hfollow =>
  rw [hfollow] at h
  split at hat
  · split at hat <;> cases hat
  next hfile =>
  split at hat
  · next hfolder => simp [hfile, hfolder] at h
  · cases hat

/-- At a path where there is nothing, and a file can be written, `new` writes one file. -/
theorem run_new (h : Asks w args .new s p)
    (hfresh : w.folder.has (File.Path.ofString p.file).text = false)
    (hplace : w.folder.targetMakingFolders (File.Path.ofString p.file) = .ok parts) :
    (run w args).exitCode = 0 ∧ (run w args).changes = [(parts, newText p.title)] := by
  have hperform : runLine w args = new w p.file p.title := by
    rw [h.runLine_eq, perform]
    split
    · exact absurd ‹_› (at?_ne_folder hfresh _)
    · rfl
  rw [run, hperform, new]
  simp only [hfresh, hplace]
  exact ⟨rfl, rfl⟩

/-- **A new file has the title that was asked for.** Read with line feeds for all line ends, it is
the document that a new file starts with, but for the title. -/
theorem new_keeps_title (h : Asks w args .new s p)
    (hfresh : w.folder.has (File.Path.ofString p.file).text = false)
    (hplace : w.folder.targetMakingFolders (File.Path.ofString p.file) = .ok parts)
    (hkept : IsKept p.title) :
    (run w args).exitCode = 0
      ∧ ∃ text d, (w.after (run w args)).file? parts = some (.text text)
        ∧ Document.ofText Document.seed = .ok d
        ∧ Document.ofText (String.ofList (Text.unixLines text.toList))
          = .ok { d with title := p.title } := by
  obtain ⟨hexit, hchanges⟩ := run_new h hfresh hplace
  obtain ⟨d, hseed, hd⟩ := ofText_newText hkept
  refine ⟨hexit, newText p.title, d, ?_, hseed, hd⟩
  rw [World.after, hchanges]
  exact Folder.file?_written w.folder (parts, newText p.title)

/-- A folder with nothing in it. -/
def vacant : World where
  folder := { files := [] }
  env := []
  engine := fun _ _ => .error (.notInstalled "no program")
  stamp := "2000-01-01 00:00:00 UTC"

theorem asks_vacant {title : String}
    (h : parse Name.new.options true ["tree.yaml", "--title", title]
      = .ok ⟨[("title", title)], ["tree.yaml"]⟩)
    (hchecked : checkArguments .new ⟨[("title", title)], ["tree.yaml"]⟩ = .ok ()) :
    Asks vacant ["new", "tree.yaml", "--title", title] .new defaults
      ⟨[("title", title)], ["tree.yaml"]⟩ where
  line := by
    have hmain : parse mainOptions false ["new", "tree.yaml", "--title", title]
        = .ok ⟨[], ["new", "tree.yaml", "--title", title]⟩ := by
      rw [parse, if_neg (by decide), if_neg (by decide), if_neg (by decide)]
    have hsettings : readSettings vacant none = .ok defaults := by
      decide +kernel
    exact ⟨_, "new", ["tree.yaml", "--title", title], hmain, rfl, rfl, rfl, rfl, hsettings, h⟩
  no_help := rfl
  checked := hchecked

/-- A title with a colon, quotes and white space at its end is written in quotes. -/
theorem vacant_new_keeps_title :
    (run vacant ["new", "tree.yaml", "--title", "Plan: 'B'\u00a0"]).exitCode = 0
      ∧ ∃ text d, (vacant.after
          (run vacant ["new", "tree.yaml", "--title", "Plan: 'B'\u00a0"])).file? ["tree.yaml"]
          = some (.text text)
        ∧ Document.ofText Document.seed = .ok d
        ∧ Document.ofText (String.ofList (Text.unixLines text.toList))
          = .ok { d with title := "Plan: 'B'\u00a0" } := by
  have hquoted : Yaml.Writing.isPlain "Plan: 'B'\u00a0".toList = false := by decide +kernel
  have hkept : IsKept "Plan: 'B'\u00a0" := by
    constructor
    · intro hplain
      rw [hquoted] at hplain
      cases hplain
    · unfold IsReadBack
      decide +kernel
  have hasks := @asks_vacant "Plan: 'B'\u00a0" (by decide +kernel) (by decide +kernel)
  exact new_keeps_title hasks (by decide +kernel) (by decide +kernel) hkept

/-- White space at the end of a title is cut off with the rest, if the title is written without
quotes. -/
theorem new_cuts_title :
    (run vacant ["new", "tree.yaml", "--title", "x\u00a0"]).exitCode = 0
      ∧ ∃ text d, (vacant.after
          (run vacant ["new", "tree.yaml", "--title", "x\u00a0"])).file? ["tree.yaml"]
          = some (.text text)
        ∧ Document.ofText (String.ofList (Text.unixLines text.toList)) = .ok d
        ∧ d.title = "x" ∧ d.title ≠ "x\u00a0" := by
  have hasks := @asks_vacant "x\u00a0" (by decide +kernel) (by decide +kernel)
  have hplace : vacant.folder.targetMakingFolders (File.Path.ofString "tree.yaml")
      = .ok ["tree.yaml"] := by
    decide +kernel
  obtain ⟨hexit, hchanges⟩ := run_new hasks (by decide +kernel) hplace
  have htext : newText "x\u00a0" = newText "x" := by
    have hentry : entry "title" "x\u00a0".toList = entry "title" "x".toList := by decide +kernel
    rw [newText, newText, hentry]
  have hkept : IsKept "x" := by
    constructor
    · rintro - c ⟨⟩
      rfl
    · unfold IsReadBack
      decide +kernel
  obtain ⟨d, -, hd⟩ := ofText_newText hkept
  refine ⟨hexit, newText "x", { d with title := "x" }, ?_, hd, rfl, ?_⟩
  · rw [World.after, hchanges, ← htext]
    exact Folder.file?_written vacant.folder (["tree.yaml"], newText "x\u00a0")
  · show "x" ≠ "x\u00a0"
    decide +kernel

end ThreatTree.Command
