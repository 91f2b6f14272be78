import ThreatTree.Session

/-!
# What a cycle can do

A flush ends in one of five ways (`Flushed`), and every operation that runs a cycle is a flush
of some session (`cycleStart?`). A cycle that succeeds makes the render of the queued text
under the theme of that session (`isRenderOf_of_rendering?`). One that fails does so at a stage
(`Setup.Fails`, `fails_of_cycle`), and a failure that is not reported comes from reading the text
(`unreported_of_cycle`).
-/

namespace ThreatTree

namespace Session

/-! ## Cycles -/

/-- A drawing of a source text by a call of the engine; there is none without a layout. -/
def Setup.IsDrawing (setup : Setup) (call : Nat) (source : String) (svg : Option String) : Prop :=
  match setup.layout with
  | none => svg = none
  | some l =>
    ∃ drawing, setup.engine call ⟨l.program, "svg", source⟩ = .ok drawing ∧ svg = some drawing

/-- The text cannot be read, for a reason that is not reported. -/
def IsUnreported (text : String) : Prop :=
  ∃ e, Document.ofText text = .error e ∧ e.message? = none

/-- A stage of the cycle of a text fails, after those in front of it succeeded. -/
inductive Setup.Fails (setup : Setup) (theme : Option String) (call : Nat) (text : String) :
    Failure → Prop
  | read {e : Document.ReadError} :
      Document.ofText text = .error e → Fails setup theme call text (.document e)
  | compile {d : Document} {e : Graph.Error} :
      Document.ofText text = .ok d → d.compile setup.registry theme = .error e →
      Fails setup theme call text (.graph e)
  | draw {d : Document} {g : Graph} {l : Layout} {e : Layout.EngineFailure} :
      Document.ofText text = .ok d → d.compile setup.registry theme = .ok g →
      setup.layout = some l → setup.engine call ⟨l.program, "svg", g.dot⟩ = .error e →
      Fails setup theme call text (.layout e.toError)

variable {setup : Setup} {theme : Option String} {text : String} {revision calls n : Nat}

theorem compile_eq (setup : Setup) (theme : Option String) (text : String) :
    setup.compile theme text =
      match Document.ofText text with
      | .error e => .error (.document e)
      | .ok d =>
        match d.compile setup.registry theme with
        | .error e => .error (.graph e)
        | .ok g => .ok (d, g) := by
  unfold Setup.compile
  cases Document.ofText text with
  | error e => rfl
  | ok d =>
    show ((d.compile setup.registry theme).mapError Failure.graph >>= fun g => pure (d, g)) = _
    dsimp only
    cases d.compile setup.registry theme <;> rfl

/-- Only the engine can fail to draw a graph, since the format is a known one. -/
theorem draw_eq (setup : Setup) (calls : Nat) (g : Graph) :
    setup.draw calls g =
      match setup.layout with
      | none => .ok none
      | some l =>
        match setup.engine calls ⟨l.program, "svg", g.dot⟩ with
        | .error e => .error (.layout e.toError)
        | .ok drawing => .ok (some drawing) := by
  have hformat : Layout.checkFormat "svg" = .ok () := if_pos (by decide)
  unfold Setup.draw
  cases setup.layout with
  | none => rfl
  | some l =>
    dsimp only
    rw [Layout.renderSvg, Layout.render, hformat]
    show (((setup.engine calls ⟨l.program, "svg", g.dot⟩).mapError _).mapError _).map some = _
    cases setup.engine calls ⟨l.program, "svg", g.dot⟩ <;> rfl

theorem draw_eq_ok_iff {g : Graph} {svg : Option String} :
    setup.draw calls g = .ok svg ↔ setup.IsDrawing calls g.dot svg := by
  rw [draw_eq]
  unfold Setup.IsDrawing
  cases setup.layout with
  | none => simp [eq_comm]
  | some l =>
    cases hcall : setup.engine calls ⟨l.program, "svg", g.dot⟩ with
    | error e => simp [hcall]
    | ok drawing => simp [hcall, eq_comm]

theorem compile_eq_ok_iff {d : Document} {g : Graph} :
    setup.compile theme text = .ok (d, g) ↔
      Document.ofText text = .ok d ∧ d.compile setup.registry theme = .ok g := by
  rw [compile_eq]
  cases Document.ofText text with
  | error e => simp
  | ok d' =>
    constructor
    · intro h
      cases hg : d'.compile setup.registry theme with
      | error e =>
        simp only [hg] at h
        cases h
      | ok g' =>
        simp only [hg] at h
        obtain ⟨rfl, rfl⟩ := Prod.mk.inj (Except.ok.inj h)
        exact ⟨rfl, hg⟩
    · rintro ⟨hd, hg⟩
      obtain rfl := Except.ok.inj hd
      simp only [hg]

/-- Everything that a cycle puts into its render belongs to the one text. -/
theorem cycle_ok {r : Render} (h : setup.cycle theme text revision calls = (.ok r, n)) :
    r.text = text ∧ r.revision = revision ∧ Document.ofText text = .ok r.document
      ∧ r.document.compile setup.registry theme = .ok r.graph
      ∧ r.index = .build text.toList r.document
      ∧ setup.IsDrawing calls r.graph.dot r.svg := by
  unfold Setup.cycle at h
  split at h
  · exact absurd (congrArg Prod.fst h) (by simp)
  · next d g hcompile =>
    obtain ⟨hd, hg⟩ := compile_eq_ok_iff.1 hcompile
    cases hdraw : setup.draw calls g with
    | error e => simp [hdraw, Except.map] at h
    | ok svg =>
      have hr := (Prod.mk.inj h).1
      rw [hdraw] at hr
      obtain rfl := Except.ok.inj hr
      exact ⟨rfl, rfl, hd, hg, rfl, draw_eq_ok_iff.1 hdraw⟩

/-- A cycle fails only where one of its stages does. -/
theorem fails_of_cycle {f : Failure}
    (h : (setup.cycle theme text revision calls).1 = .error f) :
    setup.Fails theme calls text f := by
  cases hd : Document.ofText text with
  | error e =>
    simp only [Setup.cycle, compile_eq, hd] at h
    obtain rfl := Except.error.inj h
    exact .read hd
  | ok d =>
    cases hg : d.compile setup.registry theme with
    | error e =>
      simp only [Setup.cycle, compile_eq, hd, hg] at h
      obtain rfl := Except.error.inj h
      exact .compile hd hg
    | ok g =>
      simp only [Setup.cycle, compile_eq, hd, hg, draw_eq] at h
      cases hl : setup.layout with
      | none =>
        simp only [hl] at h
        cases h
      | some l =>
        cases hcall : setup.engine calls ⟨l.program, "svg", g.dot⟩ with
        | error e =>
          simp only [hl, hcall] at h
          obtain rfl := Except.error.inj h
          exact .draw hd hg hl hcall
        | ok drawing =>
          simp only [hl, hcall] at h
          cases h

/-- A failure of a cycle that is not reported comes from reading the text. -/
theorem unreported_of_cycle {f : Failure}
    (h : setup.cycle theme text revision calls = (.error f, n)) (hf : f.message? = none) :
    IsUnreported text := by
  have hcycle : (setup.cycle theme text revision calls).1 = .error f := congrArg Prod.fst h
  cases fails_of_cycle hcycle with
  | read hd => exact ⟨_, hd, hf⟩
  | compile | draw => exact absurd hf (by simp [Failure.message?])

/-- The render is what a cycle makes of the queued text of a session. -/
structure IsRenderOf (setup : Setup) (s : Session) (r : Render) : Prop where
  pending : s.pending = some r.text
  not_blank : Text.allBlank r.text.toList = false
  revision : r.revision = s.revision
  document : Document.ofText r.text = .ok r.document
  graph : r.document.compile setup.registry s.theme = .ok r.graph
  index : r.index = .build r.text.toList r.document
  svg : setup.IsDrawing s.calls r.graph.dot r.svg

/-- The render that the flush of a session makes, if it makes one. -/
def rendering? (setup : Setup) (s : Session) : Option Render :=
  s.pending.bind fun text =>
    if Text.allBlank text.toList then none
    else (setup.cycle s.theme text s.revision s.calls).1.toOption

theorem isRenderOf_of_rendering? {s : Session} {r : Render}
    (h : s.rendering? setup = some r) : IsRenderOf setup s r := by
  obtain ⟨text, hpending, h⟩ := Option.bind_eq_some_iff.1 h
  split at h
  · exact absurd h (by simp)
  · next hblank =>
    generalize hcycle : setup.cycle s.theme text s.revision s.calls = outcome at h
    obtain ⟨f | r', n⟩ := outcome
    · exact absurd h (by simp [Except.toOption])
    · obtain rfl : r' = r := Option.some.inj h
      obtain ⟨rfl, hrevision, hd, hg, hindex, hsvg⟩ := cycle_ok hcycle
      exact ⟨hpending, by simpa using hblank, hrevision, hd, hg, hindex, hsvg⟩

/-! ## Flushes -/

/-- How a flush ends: the state after it, and its answer. -/
inductive Flushed (setup : Setup) (s : Session) :
    Session → Except Failure (Option Render) → Prop
  | idle : s.pending = none → Flushed setup s s (.ok s.result)
  | blank {text : String} : s.pending = some text → Text.allBlank text.toList = true →
      Flushed setup s { s with pending := none, result := none, error := none } (.ok none)
  | rendered {text : String} {r : Render} {n : Nat} : s.pending = some text →
      Text.allBlank text.toList = false →
      setup.cycle s.theme text s.revision s.calls = (.ok r, n) →
      Flushed setup s
        { s with pending := none, calls := n, result := some r, error := none } (.ok (some r))
  | reported {text message : String} {f : Failure} {n : Nat} : s.pending = some text →
      Text.allBlank text.toList = false →
      setup.cycle s.theme text s.revision s.calls = (.error f, n) → f.message? = some message →
      Flushed setup s
        { s with pending := none, calls := n, error := some message } (.ok s.result)
  | unreported {text : String} {f : Failure} {n : Nat} : s.pending = some text →
      Text.allBlank text.toList = false →
      setup.cycle s.theme text s.revision s.calls = (.error f, n) → f.message? = none →
      Flushed setup s { s with pending := none, calls := n } (.error f)

theorem flushed_flush (setup : Setup) (s : Session) :
    Flushed setup s (s.flush setup).1 (s.flush setup).2 := by
  unfold flush
  split
  · next hpending => exact .idle hpending
  · next text hpending =>
    split
    · next hblank => exact .blank hpending hblank
    · next hblank =>
      have hblank : Text.allBlank text.toList = false := by simpa using hblank
      generalize hcycle : setup.cycle s.theme text s.revision s.calls = outcome
      obtain ⟨outcome, n⟩ := outcome
      unfold settle
      dsimp only
      cases outcome with
      | ok r => exact .rendered hpending hblank hcycle
      | error f =>
        dsimp only
        split
        · next hmessage => exact .reported hpending hblank hcycle hmessage
        · next hmessage => exact .unreported hpending hblank hcycle hmessage

/-- A flush changes neither the text nor the revision nor the theme, and leaves nothing queued. -/
theorem Flushed.frame {s s' : Session} {answer : Except Failure (Option Render)}
    (h : Flushed setup s s' answer) :
    s'.text = s.text ∧ s'.revision = s.revision ∧ s'.theme = s.theme ∧ s'.pending = none := by
  cases h with
  | idle hpending => exact ⟨rfl, rfl, rfl, hpending⟩
  | blank | rendered | reported | unreported => exact ⟨rfl, rfl, rfl, rfl⟩

/-- What a flush that gives an answer answers is the result from then on. -/
theorem Flushed.answer_eq {s s' : Session} {answer : Option Render}
    (h : Flushed setup s s' (.ok answer)) : answer = s'.result := by
  generalize ha : Except.ok answer = a at h
  cases h with
  | idle | blank | rendered | reported => exact Except.ok.inj ha
  | unreported => exact absurd ha (by simp)

/-- The result after a flush was there before, or the flush made it. -/
theorem Flushed.result_eq {s s' : Session} {answer : Except Failure (Option Render)}
    {r : Render} (h : Flushed setup s s' answer) (hr : s'.result = some r) :
    s.result = some r ∨ s.rendering? setup = some r := by
  cases h with
  | idle | reported | unreported => exact .inl hr
  | blank => exact absurd hr (by simp)
  | rendered hpending hblank hcycle =>
    refine .inr ?_
    obtain rfl := Option.some.inj hr
    simp [rendering?, hpending, hblank, hcycle, Except.toOption]

end Session

end ThreatTree
