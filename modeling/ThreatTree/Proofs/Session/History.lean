import ThreatTree.Proofs.Session.Cycle

/-!
# The history of a session

An operation queues a text or not (`Op.submits`), and runs a cycle or not (`Op.isCycle`); this
is all that it does to a session (`step_fst`). The history of a run is the list of the texts
that it queued (`submitted`) and the list of the renders that its cycles made (`renders`).

The main statement, `run_consistent`, says that after any operations the revision counts the
queued texts, and that every render that was made belongs to one text, one revision and one
cycle: it is the render of the queued text with the number of its revision, under the theme
that was set when the cycle ran.
-/

namespace ThreatTree.Session

/-! ## Operations -/

/-- The text that an operation queues, where the current text is given. -/
def Op.submits (current : String) : Op → Option String
  | .submit text | .update text => some text
  | .setTheme _ => some current
  | .flush | .navigate _ | .navigateToNode _ | .navigateToEdge _ _ => none

/-- The operation runs a cycle. -/
def Op.isCycle : Op → Bool
  | .flush | .update _ | .setTheme _ => true
  | .submit _ | .navigate _ | .navigateToNode _ | .navigateToEdge _ _ => false

/-- The session in front of the cycle of an operation: the theme is set and the text queued. -/
def queued (s : Session) : Op → Session
  | .submit text | .update text => s.submit text
  | .setTheme theme => { s with theme := theme }.submit s.text
  | .flush | .navigate _ | .navigateToNode _ | .navigateToEdge _ _ => s

section Queued

variable (s : Session) (op : Op)

theorem text_queued : (s.queued op).text = (op.submits s.text).getD s.text := by
  cases op <;> rfl

theorem revision_queued :
    (s.queued op).revision = s.revision + (op.submits s.text).toList.length := by
  cases op <;> rfl

theorem pending_queued : (s.queued op).pending = (op.submits s.text).or s.pending := by
  cases op <;> rfl

theorem result_queued : (s.queued op).result = s.result := by
  cases op <;> rfl

end Queued

variable (setup : Setup)

/-- An operation is a flush of the session with the text queued, or only queues it. -/
theorem step_fst (s : Session) (op : Op) :
    (s.step setup op).1 =
      if op.isCycle then ((s.queued op).flush setup).1 else s.queued op := by
  cases op <;> rfl

theorem step_snd_of_isCycle {op : Op} (h : op.isCycle = true) (s : Session) :
    (s.step setup op).2 = .render ((s.queued op).flush setup).2 := by
  cases op with
  | flush | update | setTheme => rfl
  | submit | navigate | navigateToNode | navigateToEdge => exact absurd h Bool.false_ne_true

variable {setup}

theorem isCycle_of_render {s : Session} {op : Op} {r : Except Failure (Option Render)}
    (h : (s.step setup op).2 = .render r) : op.isCycle = true := by
  cases op with
  | flush | update | setTheme => rfl
  | submit | navigate | navigateToNode | navigateToEdge => cases h

theorem text_step (s : Session) (op : Op) :
    (s.step setup op).1.text = (op.submits s.text).getD s.text := by
  rw [step_fst, ← text_queued]
  split
  · exact (flushed_flush setup _).frame.1
  · rfl

/-- An operation that gives a render answers with the result from then on. -/
theorem answer_step {s : Session} {op : Op} {answer : Option Render}
    (h : (s.step setup op).2 = .render (.ok answer)) : answer = (s.step setup op).1.result := by
  have hop := isCycle_of_render h
  rw [step_snd_of_isCycle setup hop] at h
  have hflush := flushed_flush setup (s.queued op)
  rw [Answer.render.inj h] at hflush
  rw [step_fst, if_pos hop]
  exact hflush.answer_eq

/-! ## Histories -/

/-- The texts that operations queue, in order, where the current text is given. -/
def submitted (current : String) : List Op → List String
  | [] => []
  | op :: ops =>
    (op.submits current).toList ++ submitted ((op.submits current).getD current) ops

/-- The render that an operation makes, if it makes one. -/
def made? (setup : Setup) (s : Session) (op : Op) : Option Render :=
  if op.isCycle then (s.queued op).rendering? setup else none

/-- The renders that the cycles of a run make, in order. -/
def renders (setup : Setup) (s : Session) : List Op → List Render
  | [] => []
  | op :: ops => (s.made? setup op).toList ++ renders setup (s.step setup op).1 ops

theorem run_cons (s : Session) (op : Op) (ops : List Op) :
    s.run setup (op :: ops) = (s.step setup op).1.run setup ops := rfl

theorem submitted_append (setup : Setup) (s : Session) (xs ys : List Op) :
    submitted s.text (xs ++ ys) =
      submitted s.text xs ++ submitted (s.run setup xs).text ys := by
  induction xs generalizing s with
  | nil => rfl
  | cons op xs ih =>
    rw [List.cons_append, submitted, submitted, run_cons, List.append_assoc, ← text_step, ih]

theorem isRenderOf_of_made? {s : Session} {op : Op} {r : Render}
    (h : s.made? setup op = some r) :
    op.isCycle = true ∧ IsRenderOf setup (s.queued op) r := by
  unfold made? at h
  split at h
  · next hop => exact ⟨hop, isRenderOf_of_rendering? h⟩
  · exact absurd h (by simp)

/-- Every render of a run comes from the cycle of one of the operations. -/
theorem exists_of_mem_renders {s : Session} {ops : List Op} {r : Render}
    (h : r ∈ s.renders setup ops) :
    ∃ before op after, ops = before ++ op :: after ∧ op.isCycle = true
      ∧ IsRenderOf setup ((s.run setup before).queued op) r := by
  induction ops generalizing s with
  | nil => simp [renders] at h
  | cons op ops ih =>
    rw [renders, List.mem_append, Option.mem_toList] at h
    rcases h with h | h
    · exact ⟨[], op, ops, rfl, isRenderOf_of_made? h⟩
    · obtain ⟨before, op', after, rfl, hrender⟩ := ih h
      exact ⟨op :: before, op', after, rfl, hrender⟩

/-! ## Revisions -/

/-- The texts are those that were queued: the revision counts them, and what is queued now is
the last of them. -/
structure Counts (texts : List String) (s : Session) : Prop where
  revision : s.revision = texts.length
  pending : ∀ text, s.pending = some text → texts.getLast? = some text

theorem counts_start (theme : Option String) : Counts [] (start theme) :=
  ⟨rfl, fun _ h => absurd h (by simp [start])⟩

theorem Counts.queued {texts : List String} {s : Session} (h : Counts texts s) (op : Op) :
    Counts (texts ++ (op.submits s.text).toList) (s.queued op) := by
  refine ⟨by rw [revision_queued, h.revision, List.length_append], fun text ht => ?_⟩
  rw [pending_queued] at ht
  cases hop : op.submits s.text with
  | none =>
    rw [hop, Option.none_or] at ht
    rw [Option.toList_none, List.append_nil]
    exact h.pending text ht
  | some t =>
    rw [hop, Option.some_or] at ht
    rw [Option.toList_some, List.getLast?_concat, ht]

theorem Counts.step {texts : List String} {s : Session} (h : Counts texts s) (op : Op) :
    Counts (texts ++ (op.submits s.text).toList) (s.step setup op).1 := by
  rw [step_fst]
  split
  · obtain ⟨-, hrevision, -, hpending⟩ := (flushed_flush setup (s.queued op)).frame
    exact ⟨hrevision.trans (h.queued op).revision, fun _ ht => absurd ht (by simp [hpending])⟩
  · exact h.queued op

theorem Counts.run {texts : List String} {s : Session} (h : Counts texts s) (ops : List Op) :
    Counts (texts ++ submitted s.text ops) (s.run setup ops) := by
  induction ops generalizing s texts with
  | nil =>
    rw [submitted, List.append_nil]
    exact h
  | cons op ops ih =>
    rw [submitted, run_cons, ← List.append_assoc, ← text_step]
    exact ih (h.step op)

/-- The render of a queued text has the number of the text as its revision. -/
theorem Counts.render {texts : List String} {s : Session} {r : Render} (h : Counts texts s)
    (hr : IsRenderOf setup s r) :
    1 ≤ r.revision ∧ r.revision = texts.length ∧ texts[r.revision - 1]? = some r.text := by
  have hlast := h.pending _ hr.pending
  have hrevision : r.revision = texts.length := hr.revision.trans h.revision
  have hpos : 1 ≤ r.revision := by
    rw [hrevision]
    exact List.length_pos_of_mem (List.mem_of_getLast? hlast)
  exact ⟨hpos, hrevision, by rw [hrevision, ← List.getLast?_eq_getElem?, hlast]⟩

/-- The lowest revision that a render made from now on can have. -/
def lowest (s : Session) : Nat := if s.pending.isSome then s.revision else s.revision + 1

theorem lowest_le_queued (s : Session) (op : Op) : s.lowest ≤ (s.queued op).lowest := by
  unfold lowest
  rw [revision_queued, pending_queued]
  cases op.submits s.text with
  | none =>
    rw [Option.none_or, Option.toList_none, List.length_nil, Nat.add_zero]
    exact Nat.le_refl _
  | some text =>
    simp only [Option.some_or, Option.isSome_some, if_true, Option.toList_some,
      List.length_singleton]
    split <;> omega

theorem lowest_of_frame {s s' : Session} {answer : Except Failure (Option Render)}
    (h : Flushed setup s s' answer) : s'.lowest = s.revision + 1 := by
  obtain ⟨-, hrevision, -, hpending⟩ := h.frame
  rw [lowest, hpending, hrevision]
  rfl

theorem lowest_le_step (s : Session) (op : Op) : s.lowest ≤ (s.step setup op).1.lowest := by
  rw [step_fst]
  split
  · rw [lowest_of_frame (flushed_flush setup (s.queued op))]
    refine Nat.le_trans (lowest_le_queued s op) ?_
    rw [lowest]
    split <;> omega
  · exact lowest_le_queued s op

theorem revision_of_made? {s : Session} {op : Op} {r : Render}
    (h : s.made? setup op = some r) :
    s.lowest ≤ r.revision ∧ r.revision < (s.step setup op).1.lowest := by
  obtain ⟨hop, hr⟩ := isRenderOf_of_made? h
  have hlow := lowest_le_queued s op
  rw [lowest.eq_def (s.queued op), hr.pending, ← hr.revision] at hlow
  refine ⟨hlow, ?_⟩
  rw [step_fst, if_pos hop, lowest_of_frame (flushed_flush setup (s.queued op)), hr.revision]
  exact Nat.lt_succ_self _

theorem lowest_le_of_mem_renders {s : Session} {ops : List Op} {r : Render}
    (h : r ∈ s.renders setup ops) : s.lowest ≤ r.revision := by
  induction ops generalizing s with
  | nil => simp [renders] at h
  | cons op ops ih =>
    rw [renders, List.mem_append, Option.mem_toList] at h
    rcases h with h | h
    · exact (revision_of_made? h).1
    · exact Nat.le_trans (lowest_le_step s op) (ih h)

theorem pairwise_revision_renders (s : Session) (ops : List Op) :
    (s.renders setup ops).Pairwise fun r r' => r.revision < r'.revision := by
  induction ops generalizing s with
  | nil => exact List.Pairwise.nil
  | cons op ops ih =>
    rw [renders]
    refine List.pairwise_append.2 ⟨?_, ih _, fun r hr r' hr' => ?_⟩
    · cases s.made? setup op <;> simp
    · have hlt := (revision_of_made? (Option.mem_toList.1 hr)).2
      exact Nat.lt_of_lt_of_le hlt (lowest_le_of_mem_renders hr')

/-! ## Results -/

theorem result_step {s : Session} {op : Op} {r : Render}
    (h : (s.step setup op).1.result = some r) :
    s.result = some r ∨ s.made? setup op = some r := by
  rw [step_fst] at h
  unfold made?
  split at h
  · next hop =>
    rw [if_pos hop, ← result_queued s op]
    exact (flushed_flush setup (s.queued op)).result_eq h
  · exact .inl (result_queued s op ▸ h)

theorem mem_renders_of_result {s : Session} {ops : List Op} {r : Render}
    (h : (s.run setup ops).result = some r) : s.result = some r ∨ r ∈ s.renders setup ops := by
  induction ops generalizing s with
  | nil => exact .inl h
  | cons op ops ih =>
    rw [renders, List.mem_append, Option.mem_toList]
    rcases ih h with h | h
    · exact (result_step h).imp_right .inl
    · exact .inr (.inr h)

/-- **What a session shows belongs together**, after any operations on a new session, also
where failures went unreported. The revision counts the queued texts. The result is one of
the renders that were made. A render that was made has the number of its text as its revision,
and the rest of it is what one cycle made of this text under the theme of that time. Of one
revision there is at most one render, and an operation that answers with a render or with
none answers with the result from then on. -/
theorem run_consistent (setup : Setup) (theme : Option String) (ops : List Op) :
    let s := (start theme).run setup ops
    s.revision = (submitted "" ops).length
    ∧ (∀ r, s.result = some r → r ∈ (start theme).renders setup ops)
    ∧ (∀ r ∈ (start theme).renders setup ops,
        1 ≤ r.revision ∧ r.revision ≤ s.revision
        ∧ (submitted "" ops)[r.revision - 1]? = some r.text
        ∧ ∃ before op after, ops = before ++ op :: after ∧ op.isCycle = true
          ∧ IsRenderOf setup (((start theme).run setup before).queued op) r)
    ∧ ((start theme).renders setup ops).Pairwise (fun r r' => r.revision < r'.revision)
    ∧ ∀ before op after answer, ops = before ++ op :: after →
        (((start theme).run setup before).step setup op).2 = .render (.ok answer) →
        answer = ((start theme).run setup (before ++ [op])).result := by
  intro s
  have hcounts (ops : List Op) : Counts (submitted "" ops) ((start theme).run setup ops) :=
    (counts_start theme).run ops
  refine ⟨(hcounts ops).revision, fun r hr => ?_, fun r hr => ?_,
    pairwise_revision_renders _ _, fun before op after answer _ hanswer => ?_⟩
  · exact (mem_renders_of_result hr).resolve_left (by simp [start])
  · obtain ⟨before, op, after, rfl, hop, hrender⟩ := exists_of_mem_renders hr
    obtain ⟨hpos, hlength, htext⟩ := ((hcounts before).queued op).render hrender
    -- The texts up to this operation are the first ones of the whole run.
    obtain ⟨more, hmore⟩ : ∃ more, submitted "" (before ++ op :: after) =
        submitted "" before ++ (op.submits ((start theme).run setup before).text).toList
          ++ more :=
      ⟨_, (submitted_append setup (start theme) before (op :: after)).trans
        (List.append_assoc ..).symm⟩
    refine ⟨hpos, ?_, ?_, before, op, after, rfl, hop, hrender⟩
    · rw [(hcounts _).revision, hmore, List.length_append, ← hlength]
      exact Nat.le_add_right _ _
    · rw [hmore, List.getElem?_append_left (by omega), htext]
  · rw [run, List.foldl_append, List.foldl_cons, List.foldl_nil, ← run]
    exact answer_step hanswer

end ThreatTree.Session
