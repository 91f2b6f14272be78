import ThreatTree.Location.Offsets
import ThreatTree.Proofs.Location.Index

/-!
# The table of offsets

The spans of an index stand in the lines of the text that it was made from, so the table of their
offsets exists, in this text and in every other with as many lines (`offsets_build_of_length`). It
has an entry for every located node, and one for every title of located edges (`map_fst_offsets`),
which is that of the last edge with the title (`lookup_offsets_of_last`).
-/

namespace ThreatTree

/-- If every step succeeds, so do all steps one after the other. -/
theorem mapM_eq_ok {ε α β : Type} {f : α → Except ε β} {g : α → β} {l : List α}
    (h : ∀ a ∈ l, f a = .ok (g a)) : l.mapM f = .ok (l.map g) := by
  induction l with
  | nil => rfl
  | cons a l ih =>
    rw [List.mapM_cons, h a List.mem_cons_self, ih fun b hb => h b (List.mem_cons_of_mem a hb)]
    rfl

/-- If all steps one after the other succeed, their results are those of the single steps. -/
theorem eq_map_of_mapM_eq_ok {ε α β : Type} {f : α → Except ε β} {g : α → β}
    (hf : ∀ a b, f a = .ok b → b = g a) {l : List α} {bs : List β} (h : l.mapM f = .ok bs) :
    bs = l.map g := by
  induction l generalizing bs with
  | nil => exact (Except.ok.inj h).symm
  | cons a l ih =>
    rw [List.mapM_cons] at h
    cases ha : f a with
    | error e =>
      rw [ha] at h
      cases h
    | ok b =>
      cases hl : l.mapM f with
      | error e =>
        rw [ha, hl] at h
        cases h
      | ok bs' =>
        rw [ha, hl] at h
        obtain rfl := Except.ok.inj h
        rw [ih hl, hf a b ha, List.map_cons]

namespace Location

/-- Start and end of a span in UTF-16 units, in a text that has its line. -/
def unitRange (text : List Char) (s : Span) : Nat × Nat :=
  let start := Span.lineStart s.line (Text.lines text) + s.column
  (Text.units (text.take start), Text.units (text.take (start + s.length)))

theorem eq_unitRange_of_unitOffsets {text : List Char} {s : Span} {p : Nat × Nat}
    (h : unitOffsets text s = .ok p) : p = unitRange text s := by
  rw [unitOffsets] at h
  by_cases hline : s.line < (Text.lines text).length
  · rw [Span.offsets_of_lt hline] at h
    exact (Except.ok.inj h).symm
  · simp only [Span.offsets, if_neg hline] at h
    cases h

theorem eq_of_entry {κ : Type} {text : List Char} {s : Span} {key : κ} {entry : κ × Nat × Nat}
    (h : (unitOffsets text s).map (key, ·) = .ok entry) : entry = (key, unitRange text s) := by
  cases hs : unitOffsets text s with
  | error e =>
    rw [hs] at h
    cases h
  | ok p =>
    rw [hs] at h
    obtain rfl := Except.ok.inj h
    rw [eq_unitRange_of_unitOffsets hs]

/-- A span within one text has offsets in every text with as many lines. -/
theorem unitOffsets_eq_ok {text text' : List Char} {s : Span} (h : s.IsWithin (Text.lines text))
    (hlength : (Text.lines text').length = (Text.lines text).length) :
    unitOffsets text' s = .ok (unitRange text' s) := by
  obtain ⟨line, hline, -⟩ := h
  have hlt : s.line < (Text.lines text').length :=
    hlength ▸ (List.getElem?_eq_some_iff.1 hline).1
  rw [unitOffsets, Span.offsets_of_lt hlt]
  rfl

namespace Index

variable (text : List Char) (d : Document)

/-- The table of the offsets of an index exists in every text with as many lines. -/
theorem offsets_build_of_length {text' : List Char}
    (hlength : (Text.lines text').length = (Text.lines text).length) :
    (build text d).offsets text' = .ok
      ⟨(build text d).nodes.map fun n => (n.1, unitRange text' n.2),
        assocOfList ((build text d).edges.map fun e => (edgeTitle e.1, unitRange text' e.2))⟩ := by
  have hnodes : (build text d).nodes.mapM (fun n => (unitOffsets text' n.2).map (n.1, ·))
      = .ok ((build text d).nodes.map fun n => (n.1, unitRange text' n.2)) := by
    refine mapM_eq_ok fun n hn => ?_
    obtain ⟨-, h, -, -, hcovers⟩ := covers_of_mem_nodes text d hn
    rw [unitOffsets_eq_ok hcovers.isWithin hlength, Except.map]
  have hedges : (build text d).edges.mapM (fun e => (unitOffsets text' e.2).map (edgeTitle e.1, ·))
      = .ok ((build text d).edges.map fun e => (edgeTitle e.1, unitRange text' e.2)) := by
    refine mapM_eq_ok fun e he => ?_
    obtain ⟨-, -, piece, -, hcovers⟩ := covers_of_mem_edges text d he
    rw [unitOffsets_eq_ok hcovers.isWithin hlength, Except.map]
  rw [offsets, hnodes, hedges]
  rfl

theorem offsets_build : (build text d).offsets text = .ok
    ⟨(build text d).nodes.map fun n => (n.1, unitRange text n.2),
      assocOfList ((build text d).edges.map fun e => (edgeTitle e.1, unitRange text e.2))⟩ :=
  offsets_build_of_length text d rfl

variable {text d} {ix : Index} {o : Offsets} (ho : ix.offsets text = .ok o)
include ho

/-- The entries of a table are those of the spans. -/
theorem eq_of_offsets_eq_ok :
    o = ⟨ix.nodes.map fun n => (n.1, unitRange text n.2),
      assocOfList (ix.edges.map fun e => (edgeTitle e.1, unitRange text e.2))⟩ := by
  rw [offsets] at ho
  cases hnodes : ix.nodes.mapM fun n => (unitOffsets text n.2).map (n.1, ·) with
  | error e =>
    rw [hnodes] at ho
    cases ho
  | ok nodes =>
    cases hedges : ix.edges.mapM fun e => (unitOffsets text e.2).map (edgeTitle e.1, ·) with
    | error e =>
      rw [hnodes, hedges] at ho
      cases ho
    | ok edges =>
      rw [hnodes, hedges] at ho
      obtain rfl := Except.ok.inj ho
      have hnodes' : nodes = ix.nodes.map fun n => (n.1, unitRange text n.2) :=
        eq_map_of_mapM_eq_ok (fun _ _ => eq_of_entry) hnodes
      have hedges' : edges = ix.edges.map fun e => (edgeTitle e.1, unitRange text e.2) :=
        eq_map_of_mapM_eq_ok (fun _ _ => eq_of_entry) hedges
      rw [hnodes', hedges']

/-- Located edges have one entry for each of their titles. -/
theorem map_fst_offsets :
    o.edges.map (·.1) = distinct (ix.edges.map fun e => edgeTitle e.1) := by
  obtain rfl := eq_of_offsets_eq_ok ho
  rw [keys_assocOfList, List.map_map]
  rfl

/-- An entry is that of the last edge with its title. -/
theorem mem_offsets_edges_iff {title : String} {p : Nat × Nat} :
    (title, p) ∈ o.edges ↔ ∃ before e after, ix.edges = before ++ e :: after
      ∧ edgeTitle e.1 = title ∧ (∀ e' ∈ after, edgeTitle e'.1 ≠ title)
      ∧ p = unitRange text e.2 := by
  obtain rfl := eq_of_offsets_eq_ok ho
  rw [mem_assocOfList_iff]
  constructor
  · intro h
    obtain ⟨before, after, hparts, hafter⟩ := h
    obtain ⟨before', rest, hedges, rfl, hrest⟩ := List.map_eq_append_iff.1 hparts
    obtain ⟨e, after', rfl, hentry, rfl⟩ := List.map_eq_cons_iff.1 hrest
    obtain ⟨htitle, hp⟩ := Prod.mk.inj hentry
    refine ⟨before', e, after', hedges, htitle, ?_, hp.symm⟩
    intro e' he'
    exact hafter _ (List.mem_map_of_mem he')
  · intro h
    obtain ⟨before, e, after, hedges, rfl, hafter, rfl⟩ := h
    refine ⟨_, _, by rw [hedges, List.map_append, List.map_cons], ?_⟩
    intro q hq
    obtain ⟨e', he', rfl⟩ := List.mem_map.1 hq
    exact hafter e' he'

/-- The entry of a title has the offsets of the last edge with this title. -/
theorem lookup_offsets_of_last {before after : List ((String × String) × Span)}
    {e : (String × String) × Span} (hedges : ix.edges = before ++ e :: after)
    (hlast : ∀ e' ∈ after, edgeTitle e'.1 ≠ edgeTitle e.1) :
    o.edges.lookup (edgeTitle e.1) = some (unitRange text e.2) := by
  have hnodup : (o.edges.map (·.1)).Nodup := by
    rw [map_fst_offsets ho]
    exact nodup_distinct _
  rw [lookup_eq_some_iff_mem hnodup, mem_offsets_edges_iff ho]
  exact ⟨before, e, after, hedges, rfl, hlast, rfl⟩

end Index

end Location

end ThreatTree
