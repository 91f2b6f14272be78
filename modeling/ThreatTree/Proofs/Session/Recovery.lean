import ThreatTree.Proofs.Session.Burst
import ThreatTree.Proofs.Session.Stage

/-!
# A good edit leaves nothing of the past

The flush of a text that is accepted (`Setup.Accepts`) overwrites all that a session remembers but
its theme, so it does not matter which session it is (`alike_flush`). A session with calls of the
engine behind it goes on as one without does with an engine that was called so often before
(`flush_later`, `run_later`).

The main statement, `update_forgets`, puts both together: after an accepted edit a session goes on
as a new one with its theme.
-/

namespace ThreatTree.Session

/-! ## Earlier calls of the engine -/

/-- The setup after calls of its engine, which are not counted again. -/
def Setup.after (setup : Setup) (calls : Nat) : Setup :=
  { setup with engine := fun call => setup.engine (calls + call) }

/-- The session with more calls of the engine behind it. -/
def later (calls : Nat) (s : Session) : Session := { s with calls := calls + s.calls }

section Later

variable (setup : Setup) (k : Nat)

theorem cycle_after (theme : Option String) (text : String) (revision calls : Nat) :
    setup.cycle theme text revision (k + calls)
      = (((setup.after k).cycle theme text revision calls).1,
        k + ((setup.after k).cycle theme text revision calls).2) := by
  have hcompile : (setup.after k).compile theme text = setup.compile theme text := rfl
  unfold Setup.cycle
  rw [hcompile]
  cases setup.compile theme text with
  | error f => rfl
  | ok p => exact congrArg (Prod.mk _) (Nat.add_assoc k calls setup.callsFor)

theorem settle_later (s : Session) (outcome : Except Failure Render) (calls : Nat) :
    (s.later k).settle (outcome, k + calls)
      = ((s.settle (outcome, calls)).1.later k, (s.settle (outcome, calls)).2) := by
  unfold settle
  cases outcome with
  | ok r => rfl
  | error f =>
    dsimp only
    cases f.message? <;> rfl

theorem flush_later (s : Session) :
    (s.later k).flush setup
      = ((s.flush (setup.after k)).1.later k, (s.flush (setup.after k)).2) := by
  have hpending : (s.later k).pending = s.pending := rfl
  unfold flush
  rw [hpending]
  cases s.pending with
  | none => rfl
  | some text =>
    dsimp only
    by_cases hblank : Text.allBlank text.toList = true
    · rw [if_pos hblank, if_pos hblank]
      rfl
    · rw [if_neg hblank, if_neg hblank]
      show (s.later k).settle (setup.cycle s.theme text s.revision (k + s.calls)) = _
      rw [cycle_after, settle_later]

theorem step_later (s : Session) (op : Op) :
    ((s.later k).step setup op).1 = (s.step (setup.after k) op).1.later k := by
  have hqueued : (s.later k).queued op = (s.queued op).later k := by
    cases op <;> rfl
  rw [step_fst, step_fst, hqueued, flush_later]
  split <;> rfl

theorem run_later (s : Session) (ops : List Op) :
    (s.later k).run setup ops = (s.run (setup.after k) ops).later k := by
  induction ops generalizing s with
  | nil => rfl
  | cons op ops ih => rw [run_cons, run_cons, step_later, ih]

end Later

/-! ## Accepted texts -/

/-- The text is blank, or it can be read, compiled and drawn. -/
def Setup.Accepts (setup : Setup) (theme : Option String) (call : Nat) (text : String) : Prop :=
  Text.allBlank text.toList = true
  ∨ Text.allBlank text.toList = false ∧ ∃ d g svg, Document.ofText text = .ok d
    ∧ d.compile setup.registry theme = .ok g ∧ setup.IsDrawing call g.dot svg

variable {setup : Setup} {s s' : Session} {text : String}

/-- The flush of an accepted text leaves no error, and no render for a blank text alone. -/
theorem flush_of_accepts (hpending : s.pending = some text)
    (haccepts : setup.Accepts s.theme s.calls text) :
    (s.flush setup).1.error = none ∧ (s.flush setup).1.pending = none
      ∧ ((s.flush setup).1.result = none ↔ Text.allBlank text.toList = true) := by
  rcases haccepts with hblank | ⟨hblank, d, g, svg, hd, hg, hsvg⟩
  · rw [flush_of_blank hpending hblank]
    simp [hblank]
  · have hrender : IsRenderOf setup s ⟨s.revision, text, d, g, .build text.toList d, svg⟩ :=
      ⟨hpending, hblank, rfl, hd, hg, rfl, hsvg⟩
    rw [flush_of_isRenderOf hrender]
    simp [hblank]

/-- What the flush of an accepted text leaves is determined by the text, the theme and the number
of calls. -/
theorem alike_flush (hpending : s.pending = some text) (hpending' : s'.pending = some text)
    (htext : s.text = s'.text) (htheme : s.theme = s'.theme) (hcalls : s.calls = s'.calls)
    (haccepts : setup.Accepts s.theme s.calls text) :
    Alike (s.flush setup).1 (s'.flush setup).1
      ∧ undatedAnswer (s.flush setup).2 = undatedAnswer (s'.flush setup).2 := by
  rcases haccepts with hblank | ⟨hblank, d, g, svg, hd, hg, hsvg⟩
  · rw [flush_of_blank hpending hblank, flush_of_blank hpending' hblank]
    exact ⟨⟨htheme, htext, rfl, rfl, rfl, hcalls⟩, rfl⟩
  · have hrender : IsRenderOf setup s ⟨s.revision, text, d, g, .build text.toList d, svg⟩ :=
      ⟨hpending, hblank, rfl, hd, hg, rfl, hsvg⟩
    have hrender' : IsRenderOf setup s' ⟨s'.revision, text, d, g, .build text.toList d, svg⟩ :=
      ⟨hpending', hblank, rfl, hd, htheme ▸ hg, rfl, hcalls ▸ hsvg⟩
    rw [flush_of_isRenderOf hrender, flush_of_isRenderOf hrender']
    exact ⟨⟨htheme, htext, rfl, rfl, rfl, congrArg (· + setup.callsFor) hcalls⟩, rfl⟩

/-- **An accepted edit leaves nothing of the past but the theme**, whatever the session. There is
no error, nothing is queued, and the result is that of a new session with the theme, which uses
the engine from here on; there is none exactly for a blank text. Neither can the two sessions be
told apart by what is done afterwards, revisions and earlier calls of the engine aside. -/
theorem update_forgets (setup : Setup) (s : Session) {text : String}
    (haccepts : setup.Accepts s.theme s.calls text) :
    let edited := s.update setup text
    let fresh := (start s.theme).update (setup.after s.calls) text
    edited.1.error = none ∧ edited.1.pending = none ∧ edited.1.text = text
    ∧ (edited.1.result = none ↔ Text.allBlank text.toList = true)
    ∧ edited.1.result.map Render.undated = fresh.1.result.map Render.undated
    ∧ undatedAnswer edited.2 = undatedAnswer fresh.2
    ∧ ∀ ops, Alike (edited.1.run setup ops)
        ((fresh.1.run (setup.after s.calls) ops).later s.calls) := by
  intro edited fresh
  obtain ⟨herror, hpending, hresult⟩ : edited.1.error = none ∧ edited.1.pending = none
      ∧ (edited.1.result = none ↔ Text.allBlank text.toList = true) :=
    flush_of_accepts rfl haccepts
  -- The new session with the calls of the old one differs from it only in what is overwritten.
  have hflush : Alike edited.1 ((((start s.theme).submit text).later s.calls).flush setup).1
      ∧ undatedAnswer edited.2
        = undatedAnswer ((((start s.theme).submit text).later s.calls).flush setup).2 :=
    alike_flush rfl rfl rfl rfl rfl haccepts
  rw [flush_later] at hflush
  obtain ⟨halike, hanswer⟩ : Alike edited.1 (fresh.1.later s.calls)
      ∧ undatedAnswer edited.2 = undatedAnswer fresh.2 := hflush
  refine ⟨herror, hpending, (flushed_flush setup (s.submit text)).frame.1, hresult,
    halike.result, hanswer, ?_⟩
  intro ops
  rw [← run_later]
  exact halike.run ops

/-- The engine failed, the theme was changed, and another text is queued: the edit that is
accepted then shows what a new session with the theme shows. -/
theorem update_forgets_after_failure :
    let s := (start none).run flakySetup
      [.update "facts:\n- a: A\n", .setTheme (some "dark"), .submit "facts: ["]
    s.error = some "Graphviz failed to lay out the graph: no memory"
      ∧ s.result.map (·.text) = some "facts:\n- a: A\n" ∧ s.pending = some "facts: ["
      ∧ flakySetup.Accepts s.theme s.calls "facts:\n- b: B\n"
      ∧ (s.update flakySetup "facts:\n- b: B\n").1.error = none
      ∧ (s.update flakySetup "facts:\n- b: B\n").1.pending = none
      ∧ (s.update flakySetup "facts:\n- b: B\n").1.result ≠ none
      ∧ (s.update flakySetup "facts:\n- b: B\n").1.result.map Render.undated
        = ((start (some "dark")).update (flakySetup.after 2)
            "facts:\n- b: B\n").1.result.map Render.undated := by
  intro s
  have hbefore : s.error = some "Graphviz failed to lay out the graph: no memory"
      ∧ s.result.map (·.text) = some "facts:\n- a: A\n" ∧ s.pending = some "facts: ["
      ∧ s.theme = some "dark" ∧ s.calls = 2 := by decide +kernel
  -- Nothing more of the history is needed.
  clear_value s
  obtain ⟨hreported, hkept, hqueued, htheme, hcalls⟩ := hbefore
  obtain ⟨g, hg⟩ := exists_compile_loneFact flakySetup.registry s.theme
  have hdrawing : flakySetup.IsDrawing s.calls g.dot (some "<svg></svg>") := by
    rw [hcalls]
    exact ⟨_, rfl, rfl⟩
  have haccepts : flakySetup.Accepts s.theme s.calls "facts:\n- b: B\n" :=
    .inr ⟨by decide, loneFact, g, some "<svg></svg>", ofText_loneFact, hg, hdrawing⟩
  obtain ⟨herror, hpending, -, hblank, hresult, -⟩ := update_forgets flakySetup s haccepts
  rw [htheme, hcalls] at hresult
  have hsome : (s.update flakySetup "facts:\n- b: B\n").1.result ≠ none := by
    intro hnone
    exact absurd (hblank.1 hnone) (by decide)
  exact ⟨hreported, hkept, hqueued, haccepts, herror, hpending, hsome, hresult⟩

end ThreatTree.Session
