import ThreatTree.Proofs.Location.LineEnd
import ThreatTree.Proofs.Page.Safety

/-!
# Line ends do not matter

A text without carriage returns has the same index as the text with pairs for its line feeds
(`Location.Index.build_dosPairs`), and a page shows its text with line feeds only
(`generate_dosPairs`). So a file that is saved with either kind of line end has one index and one
page (`build_generate_lineEnds`).
-/

namespace ThreatTree.Page

open Location (Index)
open Text (dosPairs)

theorem generate_dosPairs {text : List Char} (h : '\r' ∉ text) (graph : Graph) (index : Index)
    (o : Options) : generate (dosPairs text) graph index o = generate text graph index o := by
  rw [generate, content, Text.unixPairs_dosPairs h, generate, content, Text.unixPairs_of_not_mem h]

/-- **Line ends do not matter.** With pairs for its line feeds, a text without carriage returns
has the same index, for every document that refers to nothing with a carriage return in its id.
Every page of the text and its index exists, and it is the same with the pairs. -/
theorem build_generate_lineEnds {text : List Char} {d : Document} (htext : '\r' ∉ text)
    (hd : ∀ n ∈ d.nodes, ∀ p ∈ n.predecessors, '\r' ∉ p.toList) :
    Index.build (dosPairs text) d = Index.build text d
      ∧ ∀ graph o, ∃ page, generate text graph (Index.build text d) o = .ok page
        ∧ generate (dosPairs text) graph (Index.build (dosPairs text) d) o = .ok page := by
  have hbuild := Index.build_dosPairs text hd
  refine ⟨hbuild, ?_⟩
  intro graph o
  obtain ⟨offsets, -, hpage⟩ := exists_generate_eq text d graph o
  refine ⟨_, hpage, ?_⟩
  rw [hbuild, generate_dosPairs htext, hpage]

/-- A tree with a reference of each kind: an item, quoted names and names in brackets. -/
def windowed : Document where
  title := "Office"
  theme := none
  facts := [⟨"street", "Street", .fact, [], [], [], by decide⟩]
  attacks := [⟨"window", "Open window", .attack, ["street"], [], [], by decide⟩,
    ⟨"front door", "Pick the lock", .attack, ["street"], [], [], by decide⟩]
  mitigations := []
  goals := [⟨"safe", "Open the safe", .goal, ["window", "front door"], [], [], by decide⟩]

def windowedText : List Char :=
  Text.join ['\n'] <| ["title: Office", "facts:", "- street: Street", "attacks:",
    "- window: Open window", "  from:", "  - 'street'",
    "- front door: {label: Pick the lock, from: [street]}", "", "goals:", "- safe: Open the safe",
    "  from: [window, \"front door\"]", ""].map String.toList

theorem build_generate_lineEnds_windowed :
    '\r' ∉ windowedText ∧ (∀ n ∈ windowed.nodes, ∀ p ∈ n.predecessors, '\r' ∉ p.toList)
      ∧ (Index.build (dosPairs windowedText) windowed).edges
        = [(("street", "window"), ⟨6, 2, 10⟩), (("street", "front door"), ⟨7, 44, 6⟩),
          (("window", "safe"), ⟨11, 9, 6⟩), (("front door", "safe"), ⟨11, 18, 10⟩)]
      ∧ ∀ graph o, ∃ page,
        generate windowedText graph (Index.build windowedText windowed) o = .ok page
        ∧ generate (dosPairs windowedText) graph
          (Index.build (dosPairs windowedText) windowed) o = .ok page := by
  have htext : '\r' ∉ windowedText := by decide +kernel
  have hd : ∀ n ∈ windowed.nodes, ∀ p ∈ n.predecessors, '\r' ∉ p.toList := by decide +kernel
  obtain ⟨hbuild, hpage⟩ := build_generate_lineEnds htext hd
  refine ⟨htext, hd, ?_, hpage⟩
  rw [hbuild]
  decide +kernel

end ThreatTree.Page
