import Mathlib.Data.List.Forall2
import ThreatTree.Page.Preview
import ThreatTree.Proofs.Location.Offsets
import ThreatTree.Proofs.Page.Escape
import ThreatTree.Proofs.Text.LineEnd

/-!
# The page shows its texts and nothing breaks out of them

A page is put together of the fixed parts of the template, of escaped texts, of one drawing and of
one table of offsets (`forall₂_isWritten`). The first element for a source text on the page is that
of the template, since no escaped text has a tag in it, and it ends where the template ends it
(`element?_textarea`).

The main statement, `generate_isSafe`, puts both together for the page of a text, a graph and the
index of the text.
-/

namespace ThreatTree.Page

open Location (Index)

/-! ## The parts of a page -/

/-- How a part of the page is written. A fixed part is one of the template. A text is written
without delimiters and decoded wherever it stands. A drawing and a table are written as they
are. -/
inductive Piece.IsWritten : Piece → List Char → Prop
  | fixed {s : String} : s ∈ fixedParts → IsWritten (.fixed s) s.toList
  | text {s written : List Char} : (∀ c ∈ written, c ∉ Html.delimiters) →
      (∀ rest, Html.decode (written ++ rest) = s ++ Html.decode rest) → IsWritten (.text s) written
  | drawing (s : List Char) : IsWritten (.drawing s) s
  | script (s : List Char) : IsWritten (.script s) s

def Piece.text? : Piece → Option (List Char)
  | .text s => some s
  | _ => none

def Piece.drawing? : Piece → Option (List Char)
  | .drawing s => some s
  | _ => none

def Piece.script? : Piece → Option (List Char)
  | .script s => some s
  | _ => none

/-- The piece comes from the template, or from what the page shows. -/
def Piece.IsOfTemplate : Piece → Prop
  | .fixed s => s ∈ fixedParts
  | _ => True

theorem Piece.isWritten_render {p : Piece} (h : p.IsOfTemplate) : p.IsWritten p.render := by
  cases p with
  | fixed s => exact .fixed h
  | text s => exact .text (Html.forall_mem_escape s) (Html.decode_escape_append s)
  | drawing s => exact .drawing s
  | script s => exact .script s

theorem isOfTemplate_errorPieces (error : Option String) :
    ∀ p ∈ errorPieces error, p.IsOfTemplate := by
  unfold errorPieces
  cases error.filter fun e => !e.isEmpty with
  | none => simp
  | some e => simp [Piece.IsOfTemplate, fixedParts]

variable (c : Content)

theorem isOfTemplate_pieces : ∀ p ∈ c.pieces, p.IsOfTemplate := by
  intro p hp
  rw [Content.pieces, List.mem_append, List.mem_append] at hp
  rcases hp with (hp | hp) | hp
  · revert p
    simp [Piece.IsOfTemplate, fixedParts]
  · exact isOfTemplate_errorPieces c.error p hp
  · revert p
    simp [Piece.IsOfTemplate, fixedParts]

theorem forall₂_isWritten : List.Forall₂ Piece.IsWritten c.pieces (c.pieces.map Piece.render) := by
  rw [List.forall₂_map_right_iff, List.forall₂_same]
  intro p hp
  exact Piece.isWritten_render (isOfTemplate_pieces c p hp)

/-- The texts of a page, in order. -/
def Content.texts : List (List Char) :=
  [c.title.toList, c.sourceName.toList, (toString c.nodeCount).toList,
    (toString c.edgeCount).toList, c.theme.toList, c.text, c.title.toList, c.stamp.toList]
  ++ (c.error.filter fun e => !e.isEmpty).toList.map String.toList

theorem filterMap_pieces :
    c.pieces.filterMap Piece.text? = c.texts ∧ c.pieces.filterMap Piece.drawing? = [c.svg]
      ∧ c.pieces.filterMap Piece.script? = [Json.offsets c.offsets] := by
  unfold Content.pieces errorPieces Content.texts
  cases c.error.filter fun e => !e.isEmpty <;> exact ⟨rfl, rfl, rfl⟩

/-! ## The source text -/

/-- The name of the element for the source text. -/
def sourceElement : List Char := "textarea".toList

theorem beforeText_eq : ∃ front attributes, '>' ∉ attributes
    ∧ Text.avoids ('<' :: sourceElement) front = true
    ∧ beforeText.toList = front ++ ('<' :: sourceElement ++ (attributes ++ ['>', '\n'])) :=
  ⟨"</span>\n    </div>\n    ".toList,
    " id=\"attack-tree-source\" spellcheck=\"false\" readonly".toList, by decide +kernel⟩

theorem beforeTitle_eq :
    ∃ rest, beforeTitle.toList = '<' :: '/' :: sourceElement ++ ['>'] ++ rest :=
  ⟨beforeTitle.toList.drop 11, by decide +kernel⟩

/-- No element for the source text starts in a rule of the style sheet. -/
theorem misses_rule {selector : String} {declarations : List String}
    (h : ∀ s ∈ selector :: declarations, Text.avoids ('<' :: sourceElement) s.toList = true) :
    Text.Misses ('<' :: sourceElement) (rule selector declarations).toList := by
  rw [List.forall_mem_cons] at h
  have hbetween : Text.Misses ('<' :: sourceElement) ("; ".intercalate declarations).toList :=
    Text.misses_intercalate (Text.misses_of_avoids (by decide +kernel)) fun s hs =>
      Text.misses_of_avoids (h.2 s hs)
  simp only [rule, String.toList_append]
  refine .append (.append (.append (.append ?_ ?_) ?_) hbetween) ?_
  · exact Text.misses_of_avoids (by decide +kernel)
  · exact Text.misses_of_avoids h.1
  · exact Text.misses_of_avoids (by decide +kernel)
  · exact Text.misses_of_avoids (by decide +kernel)

theorem misses_style : Text.Misses ('<' :: sourceElement) style.toList := by
  refine Text.misses_intercalate (Text.misses_of_avoids (by decide +kernel)) ?_
  simp only [List.forall_mem_cons]
  refine ⟨?_, ?_, misses_rule (by decide +kernel), misses_rule (by decide +kernel),
    misses_rule (by decide +kernel), misses_rule (by decide +kernel),
    misses_rule (by decide +kernel), misses_rule (by decide +kernel),
    misses_rule (by decide +kernel), misses_rule (by decide +kernel),
    misses_rule (by decide +kernel), misses_rule (by decide +kernel),
    misses_rule (by decide +kernel), ?_, ?_, ?_, ?_, ?_, ?_, ?_, by simp⟩
  all_goals exact Text.misses_of_avoids (by decide +kernel)

/-- No element for a source text starts in a fixed part in front of that for the source text. -/
theorem misses_of_mem_front :
    ∀ s ∈ [head, style, beforeNodes, beforeEdges, beforeTheme],
      Text.Misses ('<' :: sourceElement) s.toList := by
  simp only [List.forall_mem_cons]
  refine ⟨?_, misses_style, ?_, ?_, ?_, by simp⟩
  all_goals exact Text.misses_of_avoids (by decide +kernel)

theorem exists_render_eq : ∃ front rest, Text.Misses ('<' :: sourceElement) front
    ∧ c.render = front ++ (beforeText.toList
      ++ (Html.escape c.text ++ (beforeTitle.toList ++ rest))) := by
  let front : List Piece := [.fixed head, .text c.title.toList, .fixed style,
    .text c.sourceName.toList, .fixed beforeNodes, .text (toString c.nodeCount).toList,
    .fixed beforeEdges, .text (toString c.edgeCount).toList, .fixed beforeTheme,
    .text c.theme.toList]
  obtain ⟨rest, hpieces⟩ : ∃ rest, c.pieces
      = front ++ (.fixed beforeText :: .text c.text :: .fixed beforeTitle :: rest) := ⟨_, rfl⟩
  refine ⟨front.flatMap Piece.render, rest.flatMap Piece.render, ?_, ?_⟩
  · have htext : ∀ s, Text.Misses ('<' :: sourceElement) (Html.escape s) := fun s =>
      Text.misses_of_not_mem _ (Html.not_mem_escape (by decide) s)
    have hfixed := misses_of_mem_front
    simp only [List.forall_mem_cons] at hfixed
    obtain ⟨hhead, hstyle, hnodes, hedges, htheme, -⟩ := hfixed
    refine Text.misses_flatMap ?_
    simp only [front, List.forall_mem_cons, Piece.render]
    exact ⟨hhead, htext _, hstyle, htext _, hnodes, htext _, hedges, htext _, htheme, htext _,
      by simp⟩
  · clear_value front
    rw [Content.render, hpieces, List.flatMap_append, List.flatMap_cons, List.flatMap_cons,
      List.flatMap_cons, Piece.render, Piece.render, Piece.render]

/-- The element for the source text holds a line feed and the escaped text. -/
theorem element?_textarea :
    Html.element? sourceElement c.render = some ('\n' :: Html.escape c.text) := by
  obtain ⟨front, rest, hfront, hrender⟩ := exists_render_eq c
  obtain ⟨more, hmore⟩ := beforeTitle_eq
  obtain ⟨before, attributes, hattributes, hbefore, heq⟩ := beforeText_eq
  have hcontent : '<' ∉ '\n' :: Html.escape c.text := by
    simp [Html.not_mem_escape (by decide : '<' ∈ Html.delimiters)]
  have hfrom : Text.from? ('<' :: sourceElement) c.render
      = some ('<' :: sourceElement ++ (attributes ++ '>' :: (('\n' :: Html.escape c.text)
        ++ ('<' :: '/' :: sourceElement ++ ['>'] ++ (more ++ rest))))) := by
    rw [hrender, hfront, heq, List.append_assoc, Text.misses_of_avoids hbefore, hmore]
    simp only [List.append_assoc]
    rw [Text.from?_self_append (by simp)]
    simp
  exact Html.element?_of_from? hfrom (by decide) hattributes hcontent

/-! ## The page of a text and its index -/

/-- What the page of a text, a graph and a table of offsets shows. -/
def shown (text : List Char) (graph : Graph) (offsets : Location.Offsets) (o : Options) :
    Content where
  title := graph.title
  theme := graph.theme
  sourceName := o.sourceName
  text := Text.unixPairs text
  svg := (o.svg.map fun s => inlineSvg s.toList).getD []
  offsets := offsets
  nodeCount := graph.nodes.length
  edgeCount := graph.edges.length
  error := o.error
  stamp := o.stamp

theorem exists_generate_eq (text : List Char) (d : Document) (graph : Graph) (o : Options) :
    ∃ offsets, (Index.build text d).offsets (Text.unixPairs text) = .ok offsets
      ∧ generate text graph (Index.build text d) o
        = .ok (String.ofList (shown text graph offsets o).render) := by
  have hoffsets := Index.offsets_build_of_length text d (Text.length_lines_unixPairs text)
  refine ⟨_, hoffsets, ?_⟩
  rw [generate, content, hoffsets]
  rfl

/-- **The page shows its texts, and nothing breaks out of them.** The page of every text, graph
and index of the text exists. Its first element for a source text has no tag in it, and is decoded
to a line feed and the text with line feeds as its line ends. All in all the page is put together
of the fixed parts of the template, of texts, one drawing and one table of offsets. The texts are
the title, the name of the source, the numbers of nodes and edges, the theme, the source text, the
time, and the error if there is one: each is written without delimiters and decoded to itself. -/
theorem generate_isSafe (text : List Char) (d : Document) (graph : Graph) (o : Options) :
    ∃ page offsets pieces written,
      (Index.build text d).offsets (Text.unixPairs text) = .ok offsets
      ∧ generate text graph (Index.build text d) o = .ok page
      ∧ (∃ source, Html.element? "textarea".toList page.toList = some source
        ∧ '<' ∉ source ∧ Html.decode source = '\n' :: Text.unixPairs text)
      ∧ page.toList = written.flatten ∧ List.Forall₂ Piece.IsWritten pieces written
      ∧ pieces.filterMap Piece.text? = [graph.title.toList, o.sourceName.toList,
          (toString graph.nodes.length).toList, (toString graph.edges.length).toList,
          graph.theme.toList, Text.unixPairs text, graph.title.toList, o.stamp.toList]
        ++ (o.error.filter fun e => !e.isEmpty).toList.map String.toList
      ∧ pieces.filterMap Piece.drawing? = [(o.svg.map fun s => inlineSvg s.toList).getD []]
      ∧ pieces.filterMap Piece.script? = [Json.offsets offsets] := by
  obtain ⟨offsets, hoffsets, hgenerate⟩ := exists_generate_eq text d graph o
  let c := shown text graph offsets o
  have hpage : (String.ofList c.render).toList = c.render := String.toList_ofList
  refine ⟨_, offsets, c.pieces, c.pieces.map Piece.render, hoffsets, hgenerate, ?_, ?_,
    forall₂_isWritten c, filterMap_pieces c⟩
  · refine ⟨'\n' :: Html.escape c.text, by rw [hpage]; exact element?_textarea c, ?_, ?_⟩
    · simp [Html.not_mem_escape (by decide : '<' ∈ Html.delimiters)]
    · rw [Html.decode_cons (by decide), Html.decode_escape]
      rfl
  · rw [hpage, Content.render, List.flatMap_def]

end ThreatTree.Page
