/-!
# The fixed parts of the preview page

The page has the source text on the left and the drawing on the right. A click on an element
of the drawing selects its text.
-/

namespace ThreatTree.Page

/-- Lines with a line feed between neighbours. -/
def joinLines (ls : List String) : String := "\n".intercalate ls

/-- Up to the title of the page. -/
def head : String := joinLines
  ["<!DOCTYPE html>",
   "<html lang=\"en\">",
   "<head>",
   "<meta charset=\"utf-8\">",
   "<title>"]

/-- A rule of a style sheet. -/
def rule (selector : String) (declarations : List String) : String :=
  "  " ++ selector ++ " \x7b " ++ "; ".intercalate declarations ++ "; \x7d"

/-- The style sheet, up to the name of the source. -/
def style : String := joinLines
  ["</title>",
   "<style>",
   rule "body" ["margin: 0", "font-family: Arial, sans-serif"],
   rule ".attack-tree-main" ["display: flex", "height: 100vh"],
   rule ".attack-tree-editor-panel" ["width: 40%", "display: flex", "flex-direction: column",
     "border-right: 1px solid #ccc"],
   rule ".attack-tree-viz-panel" ["width: 60%", "display: flex", "flex-direction: column"],
   rule ".panel-header" ["padding: 10px", "border-bottom: 1px solid #ccc", "display: flex",
     "justify-content: space-between", "align-items: center"],
   rule ".panel-header h3" ["margin: 0"],
   rule "textarea" ["flex: 1", "resize: none", "border: none", "padding: 10px",
     "font-family: monospace", "font-size: 12px", "outline: none"],
   rule ".attack-tree-error" ["padding: 10px", "margin: 10px", "color: #b00020",
     "border: 1px solid #b00020", "border-radius: 4px", "font-family: monospace",
     "font-size: 12px"],
   rule ".attack-tree-render" ["flex: 1", "overflow: auto", "padding: 10px"],
   rule ".attack-tree-render g.node, .attack-tree-render g.edge" ["cursor: pointer"],
   rule ".meta" ["color: #666", "font-size: 12px"],
   "</style>",
   "</head>",
   "<body>",
   "<div class=\"attack-tree-main\">",
   "  <div class=\"attack-tree-editor-panel\">",
   "    <div class=\"panel-header\">",
   "      <h3>"]

/-- Between the name of the source and the number of nodes. -/
def beforeNodes : String := joinLines
  ["</h3>",
   "      <span class=\"meta\">"]

def beforeEdges : String := " nodes, "

def beforeTheme : String := " edges, theme "

/-- Up to the source text. -/
def beforeText : String := joinLines
  ["</span>",
   "    </div>",
   "    <textarea id=\"attack-tree-source\" spellcheck=\"false\" readonly>",
   ""]

/-- Up to the heading of the drawing. -/
def beforeTitle : String := joinLines
  ["</textarea>",
   "  </div>",
   "  <div class=\"attack-tree-viz-panel\">",
   "    <div class=\"panel-header\">",
   "      <h3>"]

def beforeStamp : String := joinLines
  ["</h3>",
   "      <span class=\"meta\">Generated "]

/-- Up to the error, or to the drawing. -/
def beforeDrawing : String := joinLines
  ["</span>",
   "    </div>",
   "    "]

def beforeError : String := joinLines
  ["",
   "    <div class=\"attack-tree-error\">"]

def afterError : String := joinLines
  ["</div>",
   "    "]

/-- Up to the drawing. -/
def drawing : String := joinLines
  ["",
   "    <div class=\"attack-tree-render\" id=\"attack-tree-render\">"]

/-- Up to the table of offsets. -/
def script : String := joinLines
  ["</div>",
   "  </div>",
   "</div>",
   "<script>",
   "  const locations = "]

/-- The rest of the script and of the page. -/
def tail : String := joinLines
  [";",
   "  const source = document.getElementById('attack-tree-source');",
   "",
   "  function select(range) \x7b",
   "    if (!range) return;",
   "    source.focus();",
   "    source.setSelectionRange(range[0], range[1]);",
   "  \x7d",
   "",
   "  document.querySelectorAll('#attack-tree-render g.node').forEach(function (node) \x7b",
   "    const title = node.querySelector('title');",
   "    if (!title) return;",
   "    node.addEventListener('click', function () "
     ++ "\x7b select(locations.nodes[title.textContent]); \x7d);",
   "  \x7d);",
   "",
   "  document.querySelectorAll('#attack-tree-render g.edge').forEach(function (edge) \x7b",
   "    const title = edge.querySelector('title');",
   "    if (!title) return;",
   "    edge.addEventListener('click', function () "
     ++ "\x7b select(locations.edges[title.textContent]); \x7d);",
   "  \x7d);",
   "</script>",
   "</body>",
   "</html>"]

/-- All fixed parts. -/
def fixedParts : List String :=
  [head, style, beforeNodes, beforeEdges, beforeTheme, beforeText, beforeTitle, beforeStamp,
    beforeDrawing, beforeError, afterError, drawing, script, tail]

end ThreatTree.Page
