import ThreatTree.Proofs.Graph.Styling
import ThreatTree.Proofs.Session.History
import ThreatTree.Proofs.Session.Stage

/-!
# Changing the theme

A render was made of its own text (`exists_isRenderOf_of_result`), so the text of a session that
shows its render can be read, and compiles under every theme. To change the theme is to render
this text again, which can only fail to be drawn (`setTheme_of_isRenderOf`).

The main statement, `setTheme_keeps_content`, says that a theme changes nothing but the styling,
neither of one compiled document nor of what a session shows.
-/

namespace ThreatTree.Session

variable {setup : Setup}

theorem exists_isRenderOf_of_result {theme : Option String} {ops : List Op} {r : Render}
    (h : ((start theme).run setup ops).result = some r) : ∃ s, IsRenderOf setup s r := by
  have hmem := (mem_renders_of_result h).resolve_left (by simp [start])
  obtain ⟨before, op, _, -, -, hrender⟩ := exists_of_mem_renders hmem
  exact ⟨_, hrender⟩

/-- A session that has a render of its text, from whatever cycle, renders it again under a new
theme if the graph can be drawn. -/
theorem setTheme_of_isRenderOf {s s₀ : Session} {r : Render} (hr : IsRenderOf setup s₀ r)
    (htext : r.text = s.text) {theme : Option String} {g : Graph} {svg : Option String}
    (hg : r.document.compile setup.registry theme = .ok g)
    (hsvg : setup.IsDrawing s.calls g.dot svg) :
    let r' : Render := { r with revision := s.revision + 1, graph := g, svg := svg }
    s.setTheme setup theme = ({ s with
      theme := theme, result := some r', error := none, revision := s.revision + 1,
      pending := none, calls := s.calls + setup.callsFor }, .ok (some r')) := by
  intro r'
  have hrender : IsRenderOf setup ({ s with theme := theme }.submit s.text) r' := by
    constructor
    case pending => exact congrArg some htext.symm
    case not_blank => exact hr.not_blank
    case revision => rfl
    case document => exact hr.document
    case graph => exact hg
    case index => exact hr.index
    case svg => exact hsvg
  exact flush_of_isRenderOf hrender

/-- **A theme changes the styling and nothing else.** With every two themes a document has the
same fault, or graphs that say the same. After any operations on a new session, if its result is
the render of the current text, then the text compiles under every theme to a graph that says the
same; and if this graph is drawn, or there is no layout, changing the theme reports no error and
leaves a render with the same text, document and index, at the next revision. -/
theorem setTheme_keeps_content (setup : Setup) (theme : Option String) (ops : List Op) :
    (∀ (registry : Registry) (d : Document) (name name' : Option String),
      (d.compile registry name).map Graph.unstyled
        = (d.compile registry name').map Graph.unstyled)
    ∧ let s := (start theme).run setup ops
      ∀ r, s.result = some r → r.text = s.text → ∀ name,
        ∃ g, r.document.compile setup.registry name = .ok g ∧ g.unstyled = r.graph.unstyled
        ∧ ∀ svg, setup.IsDrawing s.calls g.dot svg →
          let r' : Render := { r with revision := s.revision + 1, graph := g, svg := svg }
          s.setTheme setup name = ({ s with
            theme := name, result := some r', error := none, revision := s.revision + 1,
            pending := none, calls := s.calls + setup.callsFor }, .ok (some r')) := by
  refine ⟨fun registry d name name' => d.unstyled_compile registry name name', ?_⟩
  intro s r hresult htext name
  obtain ⟨s₀, hr⟩ := exists_isRenderOf_of_result hresult
  obtain ⟨g, hg, hsame⟩ := Document.exists_compile_of_compile hr.graph name
  refine ⟨g, hg, hsame, ?_⟩
  intro svg hsvg
  exact setTheme_of_isRenderOf hr htext hg hsvg

/-- After failures to read and to draw, the text of the render is queued again: the dark theme
changes its styling. -/
theorem setTheme_keeps_content_after_failures :
    let s := (start none).run flakySetup [.update "facts:\n- b: B\n", .update "facts: [",
      .update "facts:\n- a: A\n", .submit "facts:\n- b: B\n"]
    ∃ r g, s.result = some r ∧ r.text = s.text ∧ s.error.isSome
      ∧ flakySetup.IsDrawing s.calls g.dot (some "<svg></svg>")
      ∧ g.theme = "dark" ∧ g.unstyled = r.graph.unstyled
      ∧ (s.setTheme flakySetup (some "dark")).1.error = none
      ∧ (s.setTheme flakySetup (some "dark")).1.result
        = some { r with revision := 5, graph := g, svg := some "<svg></svg>" } := by
  intro s
  have hbefore : s.result.map (·.text) = some s.text ∧ s.error.isSome ∧ s.calls = 2
      ∧ s.revision = 4 := by decide +kernel
  obtain ⟨ops, hs⟩ : ∃ ops, (start none).run flakySetup ops = s := ⟨_, rfl⟩
  clear_value s
  have hkeeps := (setTheme_keeps_content flakySetup none ops).2
  rw [hs] at hkeeps
  obtain ⟨hshown, hreported, hcalls, hrevision⟩ := hbefore
  obtain ⟨r, hresult, htext⟩ := Option.map_eq_some_iff.1 hshown
  obtain ⟨g, hg, hsame, hset⟩ := hkeeps r hresult htext (some "dark")
  have hdrawing : flakySetup.IsDrawing s.calls g.dot (some "<svg></svg>") := by
    rw [hcalls]
    exact ⟨_, rfl, rfl⟩
  have htheme : g.theme = "dark" := by
    rw [(Document.compile_eq_ok_iff.1 hg).2]
    rfl
  rw [hrevision] at hset
  refine ⟨r, g, hresult, htext, hreported, hdrawing, htheme, hsame, ?_, ?_⟩
  · rw [hset _ hdrawing]
  · rw [hset _ hdrawing]

end ThreatTree.Session
