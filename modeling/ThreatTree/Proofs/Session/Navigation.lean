import ThreatTree.Proofs.Session.Report
import ThreatTree.Proofs.Location.Index

/-!
# Clicks on the drawing

The result of a session is the render that was made last (`getLast?_renders_of_result`), and its
index was built from its own text. So an index that is asked at all was built from the current
text (`exists_build_of_currentIndex?`), and the spans that it records stand there.

The main statement, `navigation_sound`, says that after any operations a click is answered with a
place in the current text where the clicked element is written, or with none, and that it is
answered with none if the text has changed since the last render.
-/

namespace ThreatTree.Session

open Location (Index)

variable {setup : Setup}

/-! ## The last render -/

theorem result_flush_of_rendering? {s : Session} {r : Render}
    (h : s.rendering? setup = some r) : (s.flush setup).1.result = some r := by
  obtain ⟨text, hpending, h⟩ := Option.bind_eq_some_iff.1 h
  split at h
  · exact absurd h (by simp)
  · next hblank =>
    rw [flush, hpending]
    dsimp only
    rw [if_neg hblank]
    generalize setup.cycle s.theme text s.revision s.calls = outcome at h
    obtain ⟨f | r', n⟩ := outcome
    · exact absurd h (by simp [Except.toOption])
    · exact h

/-- The result after an operation is the render that it makes, or is kept if it makes none. -/
theorem result_step_cases {s : Session} {op : Op} {r : Render}
    (h : (s.step setup op).1.result = some r) :
    s.made? setup op = some r ∨ s.made? setup op = none ∧ s.result = some r := by
  cases hmade : s.made? setup op with
  | none => exact .inr ⟨rfl, (result_step h).resolve_right (by simp [hmade])⟩
  | some r' =>
    have hop := (isRenderOf_of_made? hmade).1
    rw [made?, if_pos hop] at hmade
    rw [step_fst, if_pos hop, result_flush_of_rendering? hmade] at h
    exact .inl h

theorem getLast?_renders_or {s : Session} {ops : List Op} {r : Render}
    (h : (s.run setup ops).result = some r) :
    (s.renders setup ops).getLast? = some r
      ∨ s.renders setup ops = [] ∧ s.result = some r := by
  induction ops generalizing s with
  | nil => exact .inr ⟨rfl, h⟩
  | cons op ops ih =>
    rw [renders]
    rcases ih h with hlast | ⟨hnone, hresult⟩
    · left
      rw [List.getLast?_append, hlast, Option.some_or]
    · rw [hnone, List.append_nil]
      rcases result_step_cases hresult with hmade | ⟨hmade, hkept⟩
      · left
        rw [hmade, Option.toList_some, List.getLast?_singleton]
      · right
        exact ⟨by rw [hmade, Option.toList_none], hkept⟩

/-- The result of a session is the last of the renders that were made. -/
theorem getLast?_renders_of_result {theme : Option String} {ops : List Op} {r : Render}
    (h : ((start theme).run setup ops).result = some r) :
    ((start theme).renders setup ops).getLast? = some r :=
  (getLast?_renders_or h).resolve_right fun hkept => absurd hkept.2 (by simp [start])

/-! ## The index of the current text -/

theorem exists_of_currentIndex? {s : Session} {ix : Index} (h : s.currentIndex? = some ix) :
    ∃ r, s.result = some r ∧ r.text = s.text ∧ r.index = ix := by
  obtain ⟨r, hr, hindex⟩ := Option.map_eq_some_iff.1 h
  obtain ⟨hresult, htext⟩ := Option.filter_eq_some_iff.1 hr
  exact ⟨r, hresult, by simpa using htext, hindex⟩

/-- An index that answers clicks was built from the current text. -/
theorem exists_build_of_currentIndex? {theme : Option String} {ops : List Op} {ix : Index}
    (h : ((start theme).run setup ops).currentIndex? = some ix) :
    ∃ d, ix = .build ((start theme).run setup ops).text.toList d := by
  obtain ⟨r, hresult, htext, rfl⟩ := exists_of_currentIndex? h
  have hmem := (mem_renders_of_result hresult).resolve_left (by simp [start])
  obtain ⟨_, _, _, -, -, hrender⟩ := exists_of_mem_renders hmem
  exact ⟨r.document, by rw [hrender.index, htext]⟩

/-- No index answers clicks after the text was changed. -/
theorem currentIndex?_eq_none {theme : Option String} {ops : List Op}
    (h : ∀ r, ((start theme).renders setup ops).getLast? = some r →
      r.text ≠ ((start theme).run setup ops).text) :
    ((start theme).run setup ops).currentIndex? = none := by
  cases hix : ((start theme).run setup ops).currentIndex? with
  | none => rfl
  | some ix =>
    obtain ⟨r, hresult, htext, -⟩ := exists_of_currentIndex? hix
    exact absurd htext (h r (getLast?_renders_of_result hresult))

/-! ## Answers -/

/-- A click is answered, with no place or with one in the current text. What stands there has the
given property. -/
def Answers (s : Session) (answer : Except Span.Outside (Option (Nat × Nat)))
    (shows : List Char → Prop) : Prop :=
  ∃ place, answer = .ok place ∧ ∀ p ∈ place,
    Span.IsPlace s.text.toList p ∧ shows (Span.slice s.text.toList p.1 p.2)

/-- A click is answered if what the index finds covers pieces of the current text. -/
theorem answers_locate {s : Session} {find : Index → Option Span} {shows : List Char → Prop}
    (h : ∀ ix span, s.currentIndex? = some ix → find ix = some span →
      ∃ piece, shows piece ∧ span.Covers (Text.lines s.text.toList) piece) :
    s.Answers (s.locate find) shows := by
  unfold locate
  split
  · exact ⟨none, rfl, fun p hp => absurd hp (by simp)⟩
  · next span hfound =>
    obtain ⟨ix, hix, hspan⟩ := Option.bind_eq_some_iff.1 hfound
    obtain ⟨piece, hshows, hcovers⟩ := h ix span hix hspan
    obtain ⟨p, hoffsets, hplace, rfl⟩ := hcovers.offsets
    refine ⟨some p, by rw [hoffsets]; rfl, fun q hq => ?_⟩
    obtain rfl : p = q := Option.some.inj hq
    exact ⟨hplace, hshows⟩

theorem locate_eq_none {s : Session} (h : s.currentIndex? = none) (find : Index → Option Span) :
    s.locate find = .ok none := by
  simp [locate, h]

/-- **A click selects what was clicked, or nothing**, after any operations on a new session. An
answer is a place in the current text; for a node its declaration stands there, and for an edge
one of the ways to refer to the source. There is no place if the current text is not the text of
the last render. -/
theorem navigation_sound (setup : Setup) (theme : Option String) (ops : List Op) :
    let s := (start theme).run setup ops
    (∀ title, s.Answers (s.navigate title) fun _ => True)
    ∧ (∀ id, s.Answers (s.navigateToNode id) fun piece =>
        piece = ['-', ' '] ++ id.toList ++ [':'])
    ∧ (∀ source target, s.Answers (s.navigateToEdge source target) fun piece =>
        piece ∈ Location.referenceTexts source.toList)
    ∧ ((∀ r, ((start theme).renders setup ops).getLast? = some r → r.text ≠ s.text) →
        (∀ title, s.navigate title = .ok none) ∧ (∀ id, s.navigateToNode id = .ok none)
        ∧ ∀ source target, s.navigateToEdge source target = .ok none) := by
  intro s
  refine ⟨fun title => ?_, fun id => ?_, fun source target => ?_, fun hstale => ?_⟩
  · refine answers_locate fun ix span hix hspan => ?_
    obtain ⟨d, rfl⟩ := exists_build_of_currentIndex? hix
    obtain ⟨piece, hcovers⟩ := Index.covers_of_element? hspan
    exact ⟨piece, trivial, hcovers⟩
  · refine answers_locate fun ix span hix hspan => ?_
    obtain ⟨d, rfl⟩ := exists_build_of_currentIndex? hix
    exact ⟨_, rfl, Index.covers_of_node? hspan⟩
  · refine answers_locate fun ix span hix hspan => ?_
    obtain ⟨d, rfl⟩ := exists_build_of_currentIndex? hix
    exact Index.covers_of_edge? hspan
  · have hnone : s.currentIndex? = none := currentIndex?_eq_none hstale
    exact ⟨fun _ => locate_eq_none hnone _, fun _ => locate_eq_none hnone _,
      fun _ _ => locate_eq_none hnone _⟩

/-- After a longer text is queued, the render of the shorter one answers no click. -/
theorem navigation_sound_after_submit :
    let ops := [Op.update "facts:\n- a: A\n", .submit "# old\nfacts:\n- a: A\n"]
    let s := (start none).run plainSetup ops
    (∀ r, ((start none).renders plainSetup ops).getLast? = some r → r.text ≠ s.text)
      ∧ s.result.isSome ∧ s.navigateToNode "a" = .ok none := by
  intro ops s
  have hlast : ((start none).renders plainSetup ops).getLast?.map (·.text)
      = some "facts:\n- a: A\n" := by decide +kernel
  have hstale : ∀ r, ((start none).renders plainSetup ops).getLast? = some r →
      r.text ≠ s.text := by
    intro r hr
    rw [hr, Option.map_some] at hlast
    rw [Option.some.inj hlast]
    decide +kernel
  exact ⟨hstale, by decide +kernel, ((navigation_sound plainSetup none ops).2.2.2 hstale).2.1 "a"⟩

example :
    (((start none).run plainSetup [.update "facts:\n- a: A\n"]).navigateToNode "a").toOption
      = some (some (7, 11)) := by
  decide +kernel

end ThreatTree.Session
