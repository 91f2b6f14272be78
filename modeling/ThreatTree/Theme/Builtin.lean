import ThreatTree.Theme.Registry

/-!
# The built-in themes
-/

namespace ThreatTree

namespace Theme

def defaultName : String := "default"

def standard : Theme where
  name := defaultName
  fact := { fillColor := "#D2D5DD", color := "#2B303A" }
  attack := { fillColor := "#ED96AC", color := "#2B303A" }
  mitigation := { fillColor := "#ABD2EC", color := "#2B303A" }
  goal := { fillColor := "#5F00C2", color := "#2B303A", fontColor := "#FFFFFF" }
  reality := some { fillColor := "#2B303A", color := "#2B303A", fontColor := "#FFFFFF" }

def dark : Theme where
  name := "dark"
  fact := { fillColor := "#3B4252", color := "#D8DEE9", fontColor := "#ECEFF4" }
  attack := { fillColor := "#BF616A", color := "#D8DEE9", fontColor := "#ECEFF4" }
  mitigation := { fillColor := "#5E81AC", color := "#D8DEE9", fontColor := "#ECEFF4" }
  goal :=
    { fillColor := "#B48EAD", color := "#ECEFF4", fontColor := "#2E3440",
      style := "filled, rounded, bold" }
  reality := some { fillColor := "#ECEFF4", color := "#ECEFF4", fontColor := "#2E3440" }
  background := "#2E3440"
  titleColor := "#ECEFF4"
  edgeColor := "#D8DEE9"
  edgeLabelColor := "#88C0D0"
  backwardsEdgeColor := "#81A1C1"

/-- The shapes of the traditional notation of attack trees. -/
def classic : Theme where
  name := "classic"
  fact := { shape := "ellipse", style := "filled", fillColor := "#F5F5F5", color := "#333333" }
  attack := { shape := "box", style := "filled", fillColor := "#FFDDDD", color := "#C0392B" }
  mitigation :=
    { shape := "octagon", style := "filled", fillColor := "#DDFFDD", color := "#1E8449" }
  goal := { shape := "invhouse", style := "filled", fillColor := "#FFCCCC", color := "#8B0000" }
  edgeColor := "#333333"
  edgeLabelColor := "#333333"
  backwardsEdgeColor := "#27AE60"
  fontName := "Times-Roman"

/-- Colours that can be told apart with the common deficiencies of colour vision. -/
def accessible : Theme where
  name := "accessible"
  fact := { fillColor := "#FFFFFF", color := "#000000", style := "filled, rounded, dashed" }
  attack := { fillColor := "#E69F00", color := "#000000" }
  mitigation := { fillColor := "#56B4E9", color := "#000000", style := "filled, rounded, bold" }
  goal :=
    { shape := "doubleoctagon", fillColor := "#000000", color := "#000000",
      fontColor := "#FFFFFF", style := "filled" }
  reality := some { fillColor := "#000000", color := "#000000", fontColor := "#FFFFFF" }
  edgeColor := "#000000"
  edgeLabelColor := "#000000"
  backwardsEdgeColor := "#0072B2"

end Theme

namespace Registry

/-- The registry of the built-in themes. -/
def builtin : Registry where
  themes := [.standard, .dark, .classic, .accessible]
  default := .standard
  names_nodup := by decide
  default_mem := by simp

end Registry

end ThreatTree
