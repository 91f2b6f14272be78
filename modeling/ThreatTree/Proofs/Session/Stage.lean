import ThreatTree.Proofs.Session.Cycle
import ThreatTree.Proofs.Graph.Check
import ThreatTree.Theme.Builtin

/-!
# The stages of a cycle

A cycle reads its text, compiles what it read and draws the graph. It comes to the layout engine
only if there is a layout and the first two stages succeed (`Setup.Asks`). The outcome of a cycle
is determined by its stages: where one fails, the cycle fails with its failure (`cycle_of_fails`),
and where a render belongs to the queued text, the cycle makes this render
(`cycle_of_isRenderOf`).

The main statement, `flush_keeps_render`, says that a reported failure at any stage leaves the
render, the text, the theme and the revision as they were.
-/

namespace ThreatTree.Session

/-! ## Outcomes of a cycle -/

/-- The cycle of a text comes to the layout engine. -/
def Setup.Asks (setup : Setup) (theme : Option String) (text : String) : Prop :=
  setup.layout.isSome
    ∧ ∃ d g, Document.ofText text = .ok d ∧ d.compile setup.registry theme = .ok g

variable {setup : Setup} {theme : Option String} {text : String} {calls : Nat}

/-- A cycle that fails has called the engine once if it came so far, and else not at all. -/
theorem cycle_of_fails {f : Failure} (h : setup.Fails theme calls text f) (revision : Nat) :
    ∃ n, setup.cycle theme text revision calls = (.error f, calls + n)
      ∧ (setup.Asks theme text → n = 1) ∧ (¬ setup.Asks theme text → n = 0) := by
  cases h with
  | read hd =>
    refine ⟨0, by simp only [Setup.cycle, compile_eq, hd, Nat.add_zero], ?_, fun _ => rfl⟩
    rintro ⟨-, d, g, hd', -⟩
    rw [hd] at hd'
    cases hd'
  | compile hd hg =>
    refine ⟨0, by simp only [Setup.cycle, compile_eq, hd, hg, Nat.add_zero], ?_, fun _ => rfl⟩
    rintro ⟨-, d', g, hd', hg'⟩
    rw [hd] at hd'
    obtain rfl := Except.ok.inj hd'
    rw [hg] at hg'
    cases hg'
  | @draw d g l e hd hg hl hcall =>
    have hasks : setup.Asks theme text := ⟨by rw [hl]; rfl, d, g, hd, hg⟩
    refine ⟨1, ?_, fun _ => rfl, fun hnot => absurd hasks hnot⟩
    simp only [Setup.cycle, compile_eq, hd, hg, draw_eq, hl, hcall, Setup.callsFor]
    rfl

theorem cycle_of_isRenderOf {s : Session} {r : Render} (h : IsRenderOf setup s r) :
    setup.cycle s.theme r.text s.revision s.calls = (.ok r, s.calls + setup.callsFor) := by
  have hr : (⟨s.revision, r.text, r.document, r.graph, .build r.text.toList r.document, r.svg⟩
      : Render) = r := by
    rw [← h.revision, ← h.index]
  rw [Setup.cycle, compile_eq_ok_iff.2 ⟨h.document, h.graph⟩]
  dsimp only
  rw [draw_eq_ok_iff.2 h.svg]
  exact congrArg (fun r => (Except.ok r, s.calls + setup.callsFor)) hr

/-! ## Flushes of queued texts -/

theorem flush_of_pending_eq_none {s : Session} (h : s.pending = none) :
    s.flush setup = (s, .ok s.result) := by
  rw [flush, h]

theorem flush_of_pending {s : Session} (hpending : s.pending = some text)
    (hblank : Text.allBlank text.toList = false) :
    s.flush setup = s.settle (setup.cycle s.theme text s.revision s.calls) := by
  rw [flush, hpending]
  exact if_neg (by simp [hblank])

theorem flush_of_blank {s : Session} (hpending : s.pending = some text)
    (hblank : Text.allBlank text.toList = true) :
    s.flush setup = ({ s with pending := none, result := none, error := none }, .ok none) := by
  rw [flush, hpending]
  exact if_pos hblank

theorem flush_of_isRenderOf {s : Session} {r : Render} (h : IsRenderOf setup s r) :
    s.flush setup = ({ s with
      pending := none, calls := s.calls + setup.callsFor, result := some r, error := none },
      .ok (some r)) := by
  rw [flush_of_pending h.pending h.not_blank, cycle_of_isRenderOf h]
  rfl

theorem settle_reported {s : Session} {f : Failure} {message : String} {n : Nat}
    (h : f.message? = some message) :
    s.settle (.error f, n)
      = ({ s with pending := none, calls := n, error := some message }, .ok s.result) := by
  simp only [settle, h]

/-- **A cycle that fails leaves the render in place.** The cycle of the queued text fails, at any
of its stages, with a failure that has a message. Then the answer is the result from before, the
message is the error, nothing is queued, and all else is as it was. The engine was called once if
there is a layout and the text could be read and compiled, and else not at all. Another flush does
nothing. -/
theorem flush_keeps_render (setup : Setup) (s : Session) {text message : String} {f : Failure}
    (hpending : s.pending = some text) (hblank : Text.allBlank text.toList = false)
    (hcycle : (setup.cycle s.theme text s.revision s.calls).1 = .error f)
    (hmessage : f.message? = some message) :
    setup.Fails s.theme s.calls text f
    ∧ ∃ n,
      let after : Session :=
        { s with pending := none, error := some message, calls := s.calls + n }
      s.flush setup = (after, .ok s.result)
      ∧ (setup.Asks s.theme text → n = 1) ∧ (¬ setup.Asks s.theme text → n = 0)
      ∧ after.flush setup = (after, .ok s.result) := by
  have hfails := fails_of_cycle hcycle
  obtain ⟨n, hfailed, hasks, hnot⟩ := cycle_of_fails hfails s.revision
  refine ⟨hfails, n, ?_, hasks, hnot, flush_of_pending_eq_none rfl⟩
  rw [flush_of_pending hpending hblank, hfailed]
  exact settle_reported hmessage

/-- An engine that draws, and fails at every second call. -/
def flakySetup : Setup where
  registry := .builtin
  layout := some ⟨"dot", by decide⟩
  engine := fun call _ =>
    if call % 2 = 0 then .ok "<svg></svg>" else .error (.failed "no memory")

/-- The document of the text `"facts:\n- b: B\n"`. -/
def loneFact : Document where
  title := "Attack Tree"
  theme := none
  facts := [⟨"b", "B", .fact, [], [], [], rfl⟩]
  attacks := []
  mitigations := []
  goals := []

theorem ofText_loneFact : Document.ofText "facts:\n- b: B\n" = .ok loneFact := by
  have h : (Document.ofText "facts:\n- b: B\n").toOption = some loneFact := by decide +kernel
  cases hd : Document.ofText "facts:\n- b: B\n" with
  | error e => simp [hd, Except.toOption] at h
  | ok d => simpa [hd, Except.toOption] using h

theorem exists_compile_loneFact (registry : Registry) (theme : Option String) :
    ∃ g, loneFact.compile registry theme = .ok g :=
  ⟨_, Document.compile_eq_ok_iff.2 ⟨⟨by decide, by unfold Graph.Refers; decide⟩, rfl⟩⟩

/-- The second text is read and compiled, and cannot be drawn: the render of the first stays. -/
theorem flush_keeps_render_of_failing_engine :
    let s := (start none).run flakySetup [.update "facts:\n- a: A\n", .submit "facts:\n- b: B\n"]
    let after : Session := { s with
      pending := none, calls := 2,
      error := some "Graphviz failed to lay out the graph: no memory" }
    s.pending = some "facts:\n- b: B\n"
      ∧ (flakySetup.cycle s.theme "facts:\n- b: B\n" s.revision s.calls).1
        = .error (.layout (.failed "no memory"))
      ∧ s.result.map (·.text) = some "facts:\n- a: A\n"
      ∧ s.flush flakySetup = (after, .ok s.result)
      ∧ after.flush flakySetup = (after, .ok s.result) := by
  intro s after
  have hpending : s.pending = some "facts:\n- b: B\n" := by decide +kernel
  have hblank : Text.allBlank "facts:\n- b: B\n".toList = false := by decide
  have hcalls : s.calls = 1 := by decide +kernel
  obtain ⟨g, hg⟩ := exists_compile_loneFact flakySetup.registry s.theme
  have hasks : flakySetup.Asks s.theme "facts:\n- b: B\n" := ⟨rfl, _, g, ofText_loneFact, hg⟩
  have hfails : flakySetup.Fails s.theme s.calls "facts:\n- b: B\n"
      (.layout (Layout.EngineFailure.failed "no memory").toError) :=
    .draw ofText_loneFact hg rfl (by rw [hcalls]; rfl)
  obtain ⟨_, hfailed, -, -⟩ := cycle_of_fails hfails s.revision
  have hcycle := congrArg Prod.fst hfailed
  obtain ⟨-, n, hflush, hone, -, hagain⟩ :=
    flush_keeps_render flakySetup s hpending hblank hcycle rfl
  rw [hone hasks, hcalls] at hflush hagain
  exact ⟨hpending, hcycle, by decide +kernel, hflush, hagain⟩

end ThreatTree.Session
