import Mathlib.Data.List.Chain
import ThreatTree.Yaml.Writing

/-!
# The runs of a text

A text is the concatenation of its runs (`flatMap_chars_runs`), and each run has characters of one
kind only (`isUniform_of_mem_runs`). In a text that needs no escapes no blank stands next to a
line end, so of two runs in a row one is text and the other one is a gap (`isChain_runs`).
-/

namespace ThreatTree.Yaml.Writing

/-- What a character does to a run: it continues runs of its own kind and ends all others. -/
inductive Kind where
  | blank
  | lineEnd
  | text
  deriving DecidableEq

def kindOf (c : Char) : Kind :=
  if c == ' ' then .blank else if isLineEnd c then .lineEnd else .text

namespace Run

def kind : Run → Kind
  | blanks _ => .blank
  | lineEnds _ => .lineEnd
  | text _ => .text

/-- The characters of a run. -/
def chars : Run → List Char
  | blanks n => List.replicate n ' '
  | lineEnds bs => bs
  | text s => s

/-- The run has characters, and they are of its kind. -/
def IsUniform (r : Run) : Prop := r.chars ≠ [] ∧ ∀ c ∈ r.chars, kindOf c = r.kind

/-- One of the two runs is text, and the other one is a gap. -/
def AreSeparate (a b : Run) : Prop := a.kind = .text ↔ b.kind ≠ .text

/-- A character joins the first run if that one has its kind, and else is a run of its own. -/
theorem cons_cases (c : Char) (rs : List Run) :
    (∃ r r' rest, rs = r :: rest ∧ cons c rs = r' :: rest ∧ r.kind = kindOf c
        ∧ r'.kind = kindOf c ∧ r'.chars = c :: r.chars)
      ∨ (∃ r, cons c rs = r :: rs ∧ r.kind = kindOf c ∧ r.chars = [c]
        ∧ ∀ a ∈ rs.head?, a.kind ≠ kindOf c) := by
  by_cases hblank : c = ' '
  · subst hblank
    rcases rs with _ | ⟨_ | _ | _, rest⟩
    case cons.blanks n =>
      exact .inl ⟨blanks n, blanks (n + 1), rest, rfl, rfl, rfl, rfl, List.replicate_succ⟩
    all_goals exact .inr ⟨blanks 1, rfl, rfl, rfl, by simp [kind, kindOf]⟩
  · by_cases hend : isLineEnd c = true
    · have hkind : kindOf c = .lineEnd := by simp [kindOf, hblank, hend]
      rw [hkind]
      rcases rs with _ | ⟨_ | bs | _, rest⟩
      case cons.lineEnds =>
        exact .inl ⟨lineEnds bs, lineEnds (c :: bs), rest, rfl, by simp [cons, hblank, hend], rfl,
          rfl, rfl⟩
      all_goals
        exact .inr ⟨lineEnds [c], by simp [cons, hblank, hend], rfl, rfl, by simp [kind]⟩
    · have hkind : kindOf c = .text := by simp [kindOf, hblank, hend]
      rw [hkind]
      rcases rs with _ | ⟨_ | _ | s, rest⟩
      case cons.text =>
        exact .inl ⟨text s, text (c :: s), rest, rfl, by simp [cons, hblank, hend], rfl, rfl, rfl⟩
      all_goals exact .inr ⟨text [c], by simp [cons, hblank, hend], rfl, rfl, by simp [kind]⟩

theorem flatMap_chars_cons (c : Char) (rs : List Run) :
    (cons c rs).flatMap chars = c :: rs.flatMap chars := by
  rcases cons_cases c rs with ⟨r, r', rest, rfl, hcons, -, -, hchars⟩ | ⟨r, hcons, -, hchars, -⟩ <;>
    simp [hcons, hchars]

theorem isUniform_of_mem_cons {c : Char} {rs : List Run} (h : ∀ r ∈ rs, r.IsUniform) :
    ∀ r ∈ cons c rs, r.IsUniform := by
  rcases cons_cases c rs with ⟨r, r', rest, rfl, hcons, hr, hkind, hchars⟩
      | ⟨r, hcons, hkind, hchars, -⟩
  · rw [hcons]
    obtain ⟨hfirst, hrest⟩ := List.forall_mem_cons.1 h
    refine List.forall_mem_cons.2 ⟨⟨by simp [hchars], ?_⟩, hrest⟩
    rw [hchars, hkind]
    exact List.forall_mem_cons.2 ⟨rfl, fun a ha => (hfirst.2 a ha).trans hr⟩
  · rw [hcons]
    refine List.forall_mem_cons.2 ⟨⟨by simp [hchars], ?_⟩, h⟩
    rw [hchars, hkind]
    simp

end Run

open Run

theorem flatMap_chars_runs (s : List Char) : (runs s).flatMap chars = s := by
  induction s with
  | nil => rfl
  | cons c s ih => exact (flatMap_chars_cons c (runs s)).trans (congrArg _ ih)

theorem isUniform_of_mem_runs (s : List Char) : ∀ r ∈ runs s, r.IsUniform := by
  induction s with
  | nil => nofun
  | cons c s ih => exact isUniform_of_mem_cons ih

/-- The first run has the kind of the first character. -/
theorem kind_head?_runs (s : List Char) : (runs s).head?.map kind = s.head?.map kindOf := by
  cases s with
  | nil => rfl
  | cons c s =>
    show (Run.cons c (runs s)).head?.map kind = some (kindOf c)
    obtain ⟨r, r', rest, -, hcons, -, hkind, -⟩ | ⟨r, hcons, hkind, -⟩ := cons_cases c (runs s)
    · simp [hcons, hkind]
    · simp [hcons, hkind]

/-- A blank next to a line end, in either order. -/
def hasMixedGap (s : List Char) : Bool :=
  hasPair isLineEnd isBlankChar s || hasPair isBlankChar isLineEnd s

theorem areSeparate_of_not_hasMixedGap {c d : Char} {s : List Char} {a b : Run}
    (h : hasMixedGap (c :: d :: s) = false) (ha : a.kind = kindOf c) (hb : b.kind = kindOf d)
    (hne : b.kind ≠ kindOf c) : AreSeparate a b := by
  have hpairs : ¬ (isLineEnd c = true ∧ d = ' ') ∧ ¬ (c = ' ' ∧ isLineEnd d = true) := by
    simp only [hasMixedGap, hasPair, isBlankChar, Bool.or_eq_false_iff, Bool.and_eq_false_iff,
      beq_eq_false_iff_ne] at h
    constructor
    · rintro ⟨hc, hd⟩
      simp [hc, hd] at h
    · rintro ⟨hc, hd⟩
      simp [hc, hd] at h
  rw [AreSeparate, ha, hb]
  rw [hb] at hne
  simp only [kindOf] at hne ⊢
  by_cases hc : c = ' ' <;> by_cases hd : d = ' ' <;> by_cases hc' : isLineEnd c = true <;>
    by_cases hd' : isLineEnd d = true <;> simp_all

/-- In a text without blanks next to line ends, gaps and text take turns. -/
theorem isChain_runs {s : List Char} (h : hasMixedGap s = false) :
    (runs s).IsChain AreSeparate := by
  induction s with
  | nil => exact .nil
  | cons c s ih =>
    have hs : hasMixedGap s = false := by
      cases s with
      | nil => rfl
      | cons d s =>
        simp only [hasMixedGap, hasPair, Bool.or_eq_false_iff] at h ⊢
        exact ⟨h.1.2, h.2.2⟩
    show (Run.cons c (runs s)).IsChain AreSeparate
    rcases cons_cases c (runs s) with ⟨r, r', rest, hruns, hcons, hr, hkind, -⟩
        | ⟨r, hcons, hkind, -, hne⟩
    · obtain ⟨hhead, hrest⟩ := List.isChain_cons.1 (hruns ▸ ih hs)
      rw [hcons]
      refine hrest.cons fun a ha => ?_
      rw [AreSeparate, hkind, ← hr]
      exact hhead a ha
    · rw [hcons]
      refine (ih hs).cons fun a ha => ?_
      have hfirst := kind_head?_runs s
      rw [Option.mem_def.1 ha] at hfirst
      cases s with
      | nil => cases hfirst
      | cons d s =>
        exact areSeparate_of_not_hasMixedGap h hkind (Option.some.inj hfirst) (hne a ha)

end ThreatTree.Yaml.Writing
