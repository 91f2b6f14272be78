import ThreatTree.Proofs.Session.History

/-!
# Bursts of edits

Revisions tag what a session makes, and nothing else depends on them. Two sessions are alike
(`Alike`) if they are equal once the revisions of the sessions and of their renders are forgotten.
Alike sessions are flushed alike (`Alike.flush`), so every operation keeps them alike
(`Alike.step`), and so does every run (`Alike.run`).

A queued text takes the place of the one that is queued, so all that a burst of edits leaves
behind is its last text and a higher revision (`run_submits`). The main statement, `flush_burst`,
says that the flush after a burst does what it does after the last edit alone.
-/

namespace ThreatTree

def Render.undated (r : Render) : Render := { r with revision := 0 }

namespace Session

/-- The answer of a cycle without the revision of its render. -/
def undatedAnswer (answer : Except Failure (Option Render)) : Except Failure (Option Render) :=
  answer.map (Option.map Render.undated)

def Answer.undated : Answer → Answer
  | .none => .none
  | .render answer => .render (undatedAnswer answer)
  | .place p => .place p

/-- The sessions are equal but for revisions. -/
structure Alike (s s' : Session) : Prop where
  theme : s.theme = s'.theme
  text : s.text = s'.text
  result : s.result.map Render.undated = s'.result.map Render.undated
  error : s.error = s'.error
  pending : s.pending = s'.pending
  calls : s.calls = s'.calls

variable {setup : Setup} {s s' : Session}

/-! ## Flushes -/

/-- The revision of a cycle only tags its render. -/
theorem undated_cycle (setup : Setup) (theme : Option String) (text : String)
    (revision revision' calls : Nat) :
    (setup.cycle theme text revision calls).1.map Render.undated
        = (setup.cycle theme text revision' calls).1.map Render.undated
      ∧ (setup.cycle theme text revision calls).2
        = (setup.cycle theme text revision' calls).2 := by
  unfold Setup.cycle
  cases setup.compile theme text with
  | error f => exact ⟨rfl, rfl⟩
  | ok p =>
    dsimp only
    cases setup.draw calls p.2 with
    | error f => exact ⟨rfl, rfl⟩
    | ok svg => exact ⟨rfl, rfl⟩

theorem Alike.settle {outcome outcome' : Except Failure Render × Nat} (h : Alike s s')
    (houtcome : outcome.1.map Render.undated = outcome'.1.map Render.undated)
    (hcalls : outcome.2 = outcome'.2) :
    Alike (s.settle outcome).1 (s'.settle outcome').1
      ∧ undatedAnswer (s.settle outcome).2 = undatedAnswer (s'.settle outcome').2 := by
  obtain ⟨f | r, n⟩ := outcome
  · obtain ⟨f' | r', n'⟩ := outcome'
    · obtain rfl : f = f' := Except.error.inj houtcome
      unfold Session.settle
      dsimp only
      cases f.message? with
      | some message =>
        exact ⟨⟨h.theme, h.text, h.result, rfl, rfl, hcalls⟩, congrArg Except.ok h.result⟩
      | none => exact ⟨⟨h.theme, h.text, h.result, h.error, rfl, hcalls⟩, rfl⟩
    · cases houtcome
  · obtain ⟨f' | r', n'⟩ := outcome'
    · cases houtcome
    · have hr : r.undated = r'.undated := Except.ok.inj houtcome
      exact ⟨⟨h.theme, h.text, congrArg some hr, rfl, rfl, hcalls⟩,
        congrArg (fun r => Except.ok (some r)) hr⟩

theorem Alike.flush (h : Alike s s') :
    Alike (s.flush setup).1 (s'.flush setup).1
      ∧ undatedAnswer (s.flush setup).2 = undatedAnswer (s'.flush setup).2 := by
  unfold Session.flush
  rw [h.pending]
  cases s'.pending with
  | none => exact ⟨h, congrArg Except.ok h.result⟩
  | some text =>
    dsimp only
    by_cases hblank : Text.allBlank text.toList = true
    · rw [if_pos hblank, if_pos hblank]
      exact ⟨⟨h.theme, h.text, rfl, rfl, rfl, h.calls⟩, rfl⟩
    · rw [if_neg hblank, if_neg hblank, h.theme, h.calls]
      obtain ⟨houtcome, hcalls⟩ :=
        undated_cycle setup s'.theme text s.revision s'.revision s'.calls
      exact h.settle houtcome hcalls

/-! ## Operations and runs -/

theorem Alike.queued (h : Alike s s') (op : Op) : Alike (s.queued op) (s'.queued op) := by
  cases op with
  | submit text | update text => exact ⟨h.theme, rfl, h.result, h.error, rfl, h.calls⟩
  | setTheme theme => exact ⟨rfl, h.text, h.result, h.error, congrArg some h.text, h.calls⟩
  | flush | navigate | navigateToNode | navigateToEdge => exact h

theorem currentIndex?_eq (s : Session) :
    s.currentIndex?
      = ((s.result.map Render.undated).filter fun r => r.text = s.text).map (·.index) := by
  unfold currentIndex?
  cases s.result with
  | none => rfl
  | some r =>
    by_cases htext : r.text = s.text <;> simp [Option.filter, Render.undated, htext]

theorem Alike.locate (h : Alike s s') (find : Location.Index → Option Span) :
    s.locate find = s'.locate find := by
  unfold Session.locate
  rw [currentIndex?_eq, currentIndex?_eq, h.result, h.text]

/-- An operation keeps alike sessions alike, and answers both alike. -/
theorem Alike.step (h : Alike s s') (op : Op) :
    Alike (s.step setup op).1 (s'.step setup op).1
      ∧ (s.step setup op).2.undated = (s'.step setup op).2.undated := by
  by_cases hop : op.isCycle = true
  · have hflush : Alike ((s.queued op).flush setup).1 ((s'.queued op).flush setup).1
        ∧ undatedAnswer ((s.queued op).flush setup).2
          = undatedAnswer ((s'.queued op).flush setup).2 := (h.queued op).flush
    rw [step_fst, step_fst, if_pos hop, if_pos hop, step_snd_of_isCycle setup hop,
      step_snd_of_isCycle setup hop]
    exact ⟨hflush.1, congrArg Answer.render hflush.2⟩
  · rw [step_fst, step_fst, if_neg hop, if_neg hop]
    refine ⟨h.queued op, ?_⟩
    cases op with
    | submit => rfl
    | flush | update | setTheme => exact absurd rfl hop
    | navigate | navigateToNode | navigateToEdge => exact congrArg Answer.place (h.locate _)

theorem Alike.run (h : Alike s s') (ops : List Op) :
    Alike (s.run setup ops) (s'.run setup ops) := by
  induction ops generalizing s s' with
  | nil => exact h
  | cons op ops ih => exact ih (h.step op).1

/-! ## Bursts -/

theorem calls_cycle_le (setup : Setup) (theme : Option String) (text : String)
    (revision calls : Nat) : (setup.cycle theme text revision calls).2 ≤ calls + 1 := by
  unfold Setup.cycle
  cases setup.compile theme text with
  | error f => exact Nat.le_succ calls
  | ok p =>
    show calls + setup.callsFor ≤ calls + 1
    unfold Setup.callsFor
    split <;> omega

/-- A flush calls the engine at most once. -/
theorem Flushed.calls_le {answer : Except Failure (Option Render)}
    (h : Flushed setup s s' answer) : s'.calls ≤ s.calls + 1 := by
  cases h with
  | idle | blank => exact Nat.le_succ s.calls
  | @rendered text _ _ _ _ hcycle | @reported text _ _ _ _ _ hcycle
  | @unreported text _ _ _ _ hcycle =>
    have hle := calls_cycle_le setup s.theme text s.revision s.calls
    rw [hcycle] at hle
    exact hle

/-- A burst leaves its last text behind, and a revision for each text. -/
theorem run_submits (setup : Setup) (s : Session) (texts : List String) (last : String) :
    s.run setup ((texts ++ [last]).map .submit)
      = { s.submit last with revision := s.revision + texts.length + 1 } := by
  induction texts generalizing s with
  | nil => rfl
  | cons text texts ih =>
    rw [List.cons_append, List.map_cons, run_cons]
    show (s.submit text).run setup _ = _
    rw [ih (s.submit text)]
    simp only [submit, List.length_cons, Session.mk.injEq, true_and, and_true]
    omega

/-- **A burst of edits is rendered as its last edit**, whatever the session and the other texts.
After the flush the sessions are alike, and so are the answers; the revision counts the edits.
The engine is called at most once. Nothing that is done afterwards tells the sessions apart
either. -/
theorem flush_burst (setup : Setup) (s : Session) (texts : List String) (last : String) :
    let burst := (s.run setup ((texts ++ [last]).map .submit)).flush setup
    let single := (s.submit last).flush setup
    Alike burst.1 single.1
    ∧ undatedAnswer burst.2 = undatedAnswer single.2
    ∧ burst.1.revision = single.1.revision + texts.length
    ∧ burst.1.calls ≤ s.calls + 1
    ∧ ∀ ops, Alike (burst.1.run setup ops) (single.1.run setup ops)
      ∧ ∀ op, ((burst.1.run setup ops).step setup op).2.undated
        = ((single.1.run setup ops).step setup op).2.undated := by
  intro burst single
  have hburst := run_submits setup s texts last
  have hqueued : Alike (s.run setup ((texts ++ [last]).map .submit)) (s.submit last) := by
    rw [hburst]
    exact ⟨rfl, rfl, rfl, rfl, rfl, rfl⟩
  obtain ⟨halike, hanswer⟩ : Alike burst.1 single.1
      ∧ undatedAnswer burst.2 = undatedAnswer single.2 := hqueued.flush
  have hrevision : burst.1.revision = single.1.revision + texts.length := by
    rw [(flushed_flush setup _).frame.2.1, (flushed_flush setup _).frame.2.1, hburst]
    show s.revision + texts.length + 1 = s.revision + 1 + texts.length
    omega
  have hcalls : burst.1.calls ≤ s.calls + 1 := by
    rw [halike.calls]
    exact (flushed_flush setup (s.submit last)).calls_le
  refine ⟨halike, hanswer, hrevision, hcalls, ?_⟩
  intro ops
  exact ⟨halike.run ops, fun op => ((halike.run ops).step op).2⟩

end Session

end ThreatTree
