import ThreatTree.Proofs.Session.History
import ThreatTree.Theme.Builtin

/-!
# What a settled session reports

A session with nothing queued has dealt with its text: the text is blank, or an error is
reported, or the result is its render, or the text could not be read and nothing was reported
(`Settled`). So a session that reports no error shows the render of its text exactly if the
text has no unreported failure (`isCurrent_iff`); that there are such failures is
`not_isCurrent_of_day_out_of_range`.
-/

namespace ThreatTree.Session

/-- The result is the render of the current text at the current revision. -/
def IsCurrent (s : Session) : Prop :=
  ∃ r, s.result = some r ∧ r.text = s.text ∧ r.revision = s.revision

/-- What is true of a session after any operations: only the current text is queued, a result
is the render of a text that can be read, and a text that is not queued is dealt with. -/
structure Settled (s : Session) : Prop where
  pending : ∀ text, s.pending = some text → text = s.text
  readable : ∀ r, s.result = some r → ∃ d, Document.ofText r.text = .ok d
  outcome : s.pending = none →
    Text.allBlank s.text.toList = true ∨ s.error.isSome ∨ s.IsCurrent ∨ IsUnreported s.text

theorem settled_start (theme : Option String) : Settled (start theme) where
  pending := fun _ h => absurd h (by simp [start])
  readable := fun _ h => absurd h (by simp [start])
  outcome := fun _ => .inl rfl

theorem queued_of_submits_eq_none {s : Session} {op : Op} (h : op.submits s.text = none) :
    s.queued op = s := by
  cases op with
  | flush | navigate | navigateToNode | navigateToEdge => rfl
  | submit | update | setTheme => exact absurd h (by simp [Op.submits])

theorem Settled.queued {s : Session} (h : Settled s) (op : Op) : Settled (s.queued op) := by
  cases hop : op.submits s.text with
  | none =>
    rw [queued_of_submits_eq_none hop]
    exact h
  | some t =>
    have hpending : (s.queued op).pending = some t := by rw [pending_queued, hop, Option.some_or]
    have htext : (s.queued op).text = t := by rw [text_queued, hop, Option.getD_some]
    refine ⟨fun text ht => ?_, fun r hr => ?_, fun hnone => ?_⟩
    · rw [htext]
      exact Option.some.inj (ht.symm.trans hpending)
    · rw [result_queued] at hr
      exact h.readable r hr
    · exact absurd hnone (by simp [hpending])

variable {setup : Setup}

theorem Settled.flush {s s' : Session} {answer : Except Failure (Option Render)}
    (h : Settled s) (hflush : Flushed setup s s' answer) : Settled s' := by
  have hpending := hflush.frame.2.2.2
  refine ⟨fun _ ht => absurd ht (by simp [hpending]), fun r hr => ?_, fun _ => ?_⟩
  · rcases hflush.result_eq hr with hr | hr
    · exact h.readable r hr
    · exact ⟨r.document, (isRenderOf_of_rendering? hr).document⟩
  · cases hflush with
    | idle hidle => exact h.outcome hidle
    | blank hqueued hblank => exact .inl (h.pending _ hqueued ▸ hblank)
    | rendered hqueued _ hcycle =>
      obtain ⟨htext, hrevision, -⟩ := cycle_ok hcycle
      exact .inr (.inr (.inl ⟨_, rfl, htext.trans (h.pending _ hqueued), hrevision⟩))
    | reported => exact .inr (.inl rfl)
    | unreported hqueued _ hcycle hmessage =>
      exact .inr (.inr (.inr (h.pending _ hqueued ▸ unreported_of_cycle hcycle hmessage)))

theorem Settled.step {s : Session} (h : Settled s) (op : Op) : Settled (s.step setup op).1 := by
  rw [step_fst]
  split
  · exact (h.queued op).flush (flushed_flush setup _)
  · exact h.queued op

theorem Settled.run {s : Session} (h : Settled s) (ops : List Op) :
    Settled (s.run setup ops) := by
  induction ops generalizing s with
  | nil => exact h
  | cons op ops ih => exact ih (h.step op)

/-- **When a settled session shows its text.** After any operations on a new session, if
nothing is queued, no error is reported and the text is not blank, then the result is the
render of the current text at the current revision exactly if reading the text does not fail
without a report. -/
theorem isCurrent_iff (setup : Setup) (theme : Option String) (ops : List Op)
    (hpending : ((start theme).run setup ops).pending = none)
    (herror : ((start theme).run setup ops).error = none)
    (hblank : Text.allBlank ((start theme).run setup ops).text.toList = false) :
    ((start theme).run setup ops).IsCurrent
      ↔ ¬ IsUnreported ((start theme).run setup ops).text := by
  have hsettled : Settled ((start theme).run setup ops) := (settled_start theme).run ops
  constructor
  · rintro ⟨r, hr, htext, -⟩ ⟨e, he, -⟩
    obtain ⟨d, hd⟩ := hsettled.readable r hr
    rw [htext, he] at hd
    exact absurd hd (by simp)
  · intro hreported
    rcases hsettled.outcome hpending with h | h | h | h
    · exact absurd h (by simp [hblank])
    · exact absurd h (by simp [herror])
    · exact h
    · exact absurd h hreported

/-- The built-in themes and no layout. -/
def plainSetup : Setup := ⟨.builtin, none, fun _ _ => .error (.failed "")⟩

/-- After an unreported failure and a text that is read, the session shows the latter. -/
theorem isCurrent_iff_after_failure :
    let s := (start none).run plainSetup
      [.update "title: 2021-13-45", .navigate "a", .submit "facts: 1", .update "facts: []"]
    s.pending = none ∧ s.error = none ∧ Text.allBlank s.text.toList = false
      ∧ (s.IsCurrent ↔ ¬ IsUnreported s.text) := by
  have hpending : ((start none).run plainSetup [.update "title: 2021-13-45", .navigate "a",
      .submit "facts: 1", .update "facts: []"]).pending = none := by decide +kernel
  have herror : ((start none).run plainSetup [.update "title: 2021-13-45", .navigate "a",
      .submit "facts: 1", .update "facts: []"]).error = none := by decide +kernel
  have hblank : Text.allBlank ((start none).run plainSetup [.update "title: 2021-13-45",
      .navigate "a", .submit "facts: 1", .update "facts: []"]).text.toList = false := by
    decide +kernel
  exact ⟨hpending, herror, hblank, isCurrent_iff plainSetup none _ hpending herror hblank⟩

/-- A day that no month has is not reported: the session is settled, has a text and no error,
and does not show the text. -/
theorem not_isCurrent_of_day_out_of_range :
    let s := (start none).run plainSetup [.update "title: 2021-13-45"]
    s.pending = none ∧ s.error = none ∧ Text.allBlank s.text.toList = false ∧ ¬ s.IsCurrent := by
  refine ⟨by decide +kernel, by decide +kernel, by decide +kernel, ?_⟩
  rintro ⟨r, hr, -⟩
  have hnone : ((start none).run plainSetup [.update "title: 2021-13-45"]).result = none := by
    decide +kernel
  exact absurd hr (by rw [hnone]; simp)

end ThreatTree.Session
