import ThreatTree.Document.Basic
import ThreatTree.Record.Field

/-!
# Themes

A theme is a style sheet: a style for each category, and colours for the rest. It may have a
style of its own for the fact with the id `reality`, from which a tree conventionally starts.
Themes are also given by the fields of their records.
-/

namespace ThreatTree

/-- How the nodes of one category are drawn. -/
structure Style where
  shape : String := "box"
  style : String := "filled, rounded"
  fillColor : String
  color : String
  fontColor : String := "#000000"
  fontName : String := "Arial"
  deriving DecidableEq, Repr

/-- A name and a value of a graph, a node or an edge. -/
abbrev Attribute := String × String

/-- The attributes of a node that is drawn in a style, in the order of their names. -/
def Style.attributes (s : Style) : List Attribute :=
  [("color", s.color), ("fillcolor", s.fillColor), ("fontcolor", s.fontColor),
    ("fontname", s.fontName), ("shape", s.shape), ("style", s.style)]

/-- A named style sheet. -/
structure Theme where
  name : String
  fact : Style
  attack : Style
  mitigation : Style
  goal : Style
  reality : Option Style := none
  background : String := "white"
  titleColor : String := "#000000"
  edgeColor : String := "#2B303A"
  edgeLabelColor : String := "#010065"
  backwardsEdgeColor : String := "#7692FF"
  fontName : String := "Arial"
  deriving DecidableEq, Repr

namespace Theme

/-- The style of a category. -/
def categoryStyle (t : Theme) : Category → Style
  | .fact => t.fact
  | .attack => t.attack
  | .mitigation => t.mitigation
  | .goal => t.goal

/-- The id of the fact from which a tree starts. -/
def rootId : String := "reality"

/-- The style of a node. -/
def styleFor (t : Theme) (n : Node) : Style :=
  if n.category = .fact ∧ n.id = rootId then t.reality.getD t.fact else t.categoryStyle n.category

end Theme

/-! ## Themes from records -/

section Records

open Value (Entries)
open Record

def Style.ofRecord (entries : Entries) : Checked Style :=
  Style.mk
    <$> optional entries "shape" "box" text
    <*> optional entries "style" "filled, rounded" text
    <*> required entries "fillcolor" text
    <*> required entries "color" text
    <*> optional entries "fontcolor" "#000000" text
    <*> optional entries "fontname" "Arial" text

def Theme.ofRecord (entries : Entries) : Checked Theme :=
  Theme.mk
    <$> required entries "name" text
    <*> required entries "fact" (record Style.ofRecord)
    <*> required entries "attack" (record Style.ofRecord)
    <*> required entries "mitigation" (record Style.ofRecord)
    <*> required entries "goal" (record Style.ofRecord)
    <*> optional entries "reality" none (nullable (record Style.ofRecord))
    <*> optional entries "background" "white" text
    <*> optional entries "title_color" "#000000" text
    <*> optional entries "edge_color" "#2B303A" text
    <*> optional entries "edge_label_color" "#010065" text
    <*> optional entries "backwards_edge_color" "#7692FF" text
    <*> optional entries "fontname" "Arial" text

end Records

end ThreatTree
