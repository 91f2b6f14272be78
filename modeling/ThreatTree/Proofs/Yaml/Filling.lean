import ThreatTree.Proofs.Yaml.Descent

/-!
# Filling the collections of a tree

In a graph of texts, lists and mappings whose parts all come behind the collection they are in,
nothing is merged, and every node that is reached gets the slot that it stands for
(`Nodes.IsTreelike.slots`).

Between two steps a slot is unknown, or done, or a collection that is still empty and waits to be
filled (`Filler.Inv`). Starting a node keeps this, and so does filling a collection; in each
round the collections that wait have larger numbers, so the rounds come to an end.
-/

namespace ThreatTree.Yaml

/-! ## Treelike graphs -/

/-- A node is a text, a list or a mapping; its parts come behind it, and its keys are texts. -/
inductive Node.IsTreelike (g : Nodes) (i : Nat) : Node → Prop where
  | text (s : List Char) : IsTreelike g i ⟨.str, .text s⟩
  | list (ids : List Nat) (h : ∀ j ∈ ids, i < j ∧ j < g.size) : IsTreelike g i ⟨.seq, .items ids⟩
  | mapping (es : List (Nat × Nat)) (hkeys : ∀ e ∈ es, i < e.1 ∧ g.tagOf e.1 = .str)
    (hvalues : ∀ e ∈ es, i < e.2 ∧ e.2 < g.size) : IsTreelike g i ⟨.map, .entries es⟩

def Nodes.IsTreelike (g : Nodes) : Prop :=
  ∀ (i : Nat) (x : Node), g[i]? = some x → x.IsTreelike g i

/-- The slot that a node of a tree stands for. -/
def Node.slot : Node → Slot
  | ⟨.str, .text s⟩ => .scalar (.str (String.ofList s))
  | ⟨.seq, .items ids⟩ => .collection (.list ids)
  | ⟨.map, .entries es⟩ => .collection (.mapping es)
  | _ => .unknown

def Node.parts : Node → List Nat
  | ⟨_, .items ids⟩ => ids
  | ⟨_, .entries es⟩ => es.flatMap fun e => [e.1, e.2]
  | _ => []

/-- A collection before it is filled. -/
def Slot.opened : Slot → Slot
  | .collection (.list _) => .collection (.list [])
  | .collection (.mapping _) => .collection (.mapping [])
  | s => s

theorem Node.IsTreelike.slot_ne_unknown {g : Nodes} {i : Nat} {x : Node} (h : x.IsTreelike g i) :
    x.slot ≠ .unknown ∧ x.slot.opened ≠ .unknown := by
  cases h <;> exact ⟨nofun, nofun⟩

namespace Nodes

variable {g : Nodes} {i : Nat} {x : Node}

theorem tagOf_eq (h : g[i]? = some x) : g.tagOf i = x.tag := by
  rw [tagOf, h]
  rfl

theorem contentOf_eq (h : g[i]? = some x) : g.contentOf i = x.content := by
  rw [contentOf, h]
  rfl

theorem IsTreelike.tagOf_mem (hg : g.IsTreelike) (i : Nat) :
    g.tagOf i ∈ [Tag.null, .str, .seq, .map] := by
  cases hi : g[i]? with
  | none => simp [tagOf, hi]
  | some x =>
    rw [tagOf_eq hi]
    cases hg i x hi <;> simp

/-! ## Nothing to merge -/

theorem takeMerge_eq_none (hmerge : ∀ i, g.tagOf i ≠ .merge) (es : List (Nat × Nat)) :
    g.takeMerge es = none := by
  induction es with
  | nil => rfl
  | cons e es ih =>
    obtain ⟨k, v⟩ := e
    rw [takeMerge, if_neg (hmerge k), ih]
    rfl

theorem setEntries_eq_self {es : List (Nat × Nat)} (h : g.contentOf i = .entries es) :
    g.setEntries i es = g := by
  cases hi : g[i]? with
  | none => simp [contentOf, hi] at h
  | some x =>
    rw [contentOf_eq hi] at h
    rw [setEntries, tagOf_eq hi, ← h]
    obtain ⟨hlt, rfl⟩ := Array.getElem?_eq_some_iff.mp hi
    refine Array.ext (Array.size_setIfInBounds) fun j hj _ => ?_
    rw [Array.getElem_setIfInBounds]
    split
    · next heq =>
      subst heq
      rfl
    · rfl

theorem foldl_valueKeyToText (hvalue : ∀ i, g.tagOf i ≠ .value) (es : List (Nat × Nat)) :
    es.foldl (fun g e => g.valueKeyToText e.1) g = g := by
  induction es with
  | nil => rfl
  | cons e es ih => rw [List.foldl_cons, valueKeyToText, if_neg (hvalue e.1), ih]

/-- A graph without special keys stays as it is. -/
theorem merge_eq_self (hmerge : ∀ i, g.tagOf i ≠ .merge) (hvalue : ∀ i, g.tagOf i ≠ .value)
    {es : List (Nat × Nat)} (h : g.contentOf i = .entries es) : g.merge i = .ok g := by
  have hcollect : (Merging.collect (g.mergeCount + 1) i []).run g = .ok ([], g) := by
    rw [Merging.collect]
    simp only [StateT.run_bind, StateT.run_get, pure_bind, takeMerge_eq_none hmerge]
    rfl
  have hentries : g.entriesOf i = es := by rw [entriesOf, h]
  have hfinish : (Merging.finish i []).run g = .ok ((), g) := by
    rw [Merging.finish, StateT.run_modify, hentries, List.nil_append]
    dsimp only
    rw [setEntries_eq_self h, foldl_valueKeyToText hvalue]
    rfl
  rw [merge, StateT.run_bind, hcollect, ok_bind, hfinish]
  rfl

theorem IsTreelike.merge (hg : g.IsTreelike) {es : List (Nat × Nat)}
    (h : g.contentOf i = .entries es) : g.merge i = .ok g := by
  apply merge_eq_self ?_ ?_ h
  · intro j hj
    simpa [hj] using hg.tagOf_mem j
  · intro j hj
    simpa [hj] using hg.tagOf_mem j

end Nodes

namespace Filler

variable {g : Nodes} {b i : Nat} {x : Node} {pending : List Nat} {s : Stage}

/-! ## Starting a node -/

theorem slotOf_setIfInBounds (s : Stage) (i j : Nat) (slot : Slot) (next : List Nat) :
    slotOf ⟨s.nodes, s.slots.setIfInBounds i slot, next⟩ j
      = if i = j ∧ i < s.slots.size then slot else slotOf s j := by
  simp only [slotOf, Array.getElem?_setIfInBounds]
  split
  · next h =>
    subst h
    split <;> simp_all
  · simp_all

theorem run_start_known (h : slotOf s i ≠ .unknown) : (start i).run s = .ok ((), s) := by
  rw [start, StateT.run_bind, StateT.run_get, pure_bind]
  dsimp only
  split
  · exact absurd ‹_› h
  · exact absurd ‹_› h
  · rfl

theorem run_start_text {t : List Char} (h : slotOf s i = .unknown)
    (hi : s.nodes[i]? = some ⟨.str, .text t⟩) :
    (start i).run s
      = .ok ((), ⟨s.nodes, s.slots.setIfInBounds i (.scalar (.str (String.ofList t))),
        s.next⟩) := by
  have hscalar : s.nodes.scalarOf i = .ok (.str (String.ofList t)) := by
    rw [Nodes.scalarOf, Nodes.tagOf_eq hi]
    simp only [Tag.isScalar, if_true, Nodes.textOf, Nodes.contentOf_eq hi]
    rfl
  rw [start, StateT.run_bind, StateT.run_get, pure_bind]
  dsimp only
  rw [h, Nodes.tagOf_eq hi]
  dsimp only [Filling.start?]
  rw [hscalar]
  rfl

theorem run_start_collection {f : Filling} (h : slotOf s i = .unknown)
    (hi : s.nodes[i]? = some x) (hf : Filling.start? x.tag = some f) :
    (start i).run s
      = .ok ((), ⟨s.nodes, s.slots.setIfInBounds i (.collection f), i :: s.next⟩) := by
  rw [start, StateT.run_bind, StateT.run_get, pure_bind]
  dsimp only
  rw [h, Nodes.tagOf_eq hi, hf]
  rfl

/-- A text is done at once; a collection waits to be filled. -/
theorem run_start_unknown (hx : x.IsTreelike s.nodes i) (h : slotOf s i = .unknown)
    (hi : s.nodes[i]? = some x) :
    ∃ next, (start i).run s
        = .ok ((), ⟨s.nodes, s.slots.setIfInBounds i x.slot.opened, next⟩)
      ∧ (next = s.next ∧ x.slot.opened = x.slot ∧ x.parts = [] ∨ next = i :: s.next) := by
  cases hx with
  | text t => exact ⟨_, run_start_text h hi, .inl ⟨rfl, rfl, rfl⟩⟩
  | list ids _ => exact ⟨_, run_start_collection h hi rfl, .inr rfl⟩
  | mapping es _ _ => exact ⟨_, run_start_collection h hi rfl, .inr rfl⟩

/-! ## What holds between the steps -/

/-- The nodes `pending` are those of this round that are not filled yet. The collections of the
next round have numbers from `b` on. -/
structure Inv (g : Nodes) (b : Nat) (pending : List Nat) (s : Stage) : Prop where
  nodes : s.nodes = g
  size : s.slots.size = g.size
  slot : ∀ (i : Nat) (x : Node), g[i]? = some x → slotOf s i = .unknown
    ∨ (slotOf s i = x.slot ∧ ∀ j ∈ x.parts, slotOf s j ≠ .unknown)
    ∨ (slotOf s i = x.slot.opened ∧ i ∈ pending ++ s.next)
  known : ∀ i ∈ pending ++ s.next, slotOf s i ≠ .unknown
  next : ∀ i ∈ s.next, b ≤ i

/-- What is known stays known. -/
def Keeps (s s' : Stage) : Prop := ∀ i, slotOf s i ≠ .unknown → slotOf s' i ≠ .unknown

theorem Inv.exists_node (hs : Inv g b pending s) (h : slotOf s i ≠ .unknown) :
    ∃ x, g[i]? = some x := by
  rcases Nat.lt_or_ge i g.size with hi | hi
  · exact ⟨_, Array.getElem?_eq_getElem hi⟩
  · exact absurd (by rw [slotOf, Array.getElem?_eq_none (by rw [hs.size]; exact hi)]; rfl) h

/-- A node whose slot is set keeps what holds, if it is done or waits. The other nodes are not
concerned, except that more is known about their parts. -/
theorem Inv.set {pending' next : List Nat} {slot : Slot} (hs : Inv g b pending s)
    (hi : g[i]? = some x) (hslot : slot ≠ .unknown)
    (hdone : (slot = x.slot ∧ ∀ j ∈ x.parts, j ≠ i → slotOf s j ≠ .unknown)
      ∨ (slot = x.slot.opened ∧ i ∈ pending' ++ next))
    (hkeep : ∀ j ∈ pending ++ s.next, j ≠ i → j ∈ pending' ++ next)
    (hknown : ∀ j ∈ pending' ++ next, j = i ∨ j ∈ pending ++ s.next)
    (hnext : ∀ j ∈ next, b ≤ j) :
    Inv g b pending' ⟨s.nodes, s.slots.setIfInBounds i slot, next⟩
      ∧ Keeps s ⟨s.nodes, s.slots.setIfInBounds i slot, next⟩
      ∧ slotOf ⟨s.nodes, s.slots.setIfInBounds i slot, next⟩ i ≠ .unknown := by
  obtain ⟨hlt, -⟩ := Array.getElem?_eq_some_iff.mp hi
  set s' : Stage := ⟨s.nodes, s.slots.setIfInBounds i slot, next⟩
  have hself : slotOf s' i = slot := by
    rw [slotOf_setIfInBounds, if_pos ⟨rfl, by rw [hs.size]; exact hlt⟩]
  have hother (j : Nat) (hj : j ≠ i) : slotOf s' j = slotOf s j := by
    rw [slotOf_setIfInBounds, if_neg fun h => hj h.1.symm]
  have hset (j : Nat) (hj : j ≠ i → slotOf s j ≠ .unknown) : slotOf s' j ≠ .unknown := by
    by_cases h : j = i
    · rw [h, hself]
      exact hslot
    · rw [hother j h]
      exact hj h
  refine ⟨⟨hs.nodes, ?_, ?_, ?_, hnext⟩, fun j hj => hset j fun _ => hj, hself ▸ hslot⟩
  · exact (Array.size_setIfInBounds).trans hs.size
  · intro j y hy
    by_cases hj : j = i
    · subst hj
      obtain rfl := Option.some.inj (hi.symm.trans hy)
      obtain ⟨h, hparts⟩ | ⟨h, hmem⟩ := hdone
      · exact .inr (.inl ⟨hself.trans h, fun k hk => hset k (hparts k hk)⟩)
      · exact .inr (.inr ⟨hself.trans h, hmem⟩)
    · rw [hother j hj]
      obtain hunknown | ⟨h, hparts⟩ | ⟨h, hmem⟩ := hs.slot j y hy
      · exact .inl hunknown
      · exact .inr (.inl ⟨h, fun k hk => hset k fun _ => hparts k hk⟩)
      · exact .inr (.inr ⟨h, hkeep j hmem hj⟩)
  · intro j hj
    exact hset j fun hne => hs.known j ((hknown j hj).resolve_left hne)

theorem Inv.start (hg : g.IsTreelike) (hs : Inv g b pending s) (hb : b ≤ i) (hi : i < g.size) :
    ∃ s', (start i).run s = .ok ((), s') ∧ Inv g b pending s' ∧ Keeps s s'
      ∧ slotOf s' i ≠ .unknown := by
  by_cases h : slotOf s i = .unknown
  case neg => exact ⟨s, run_start_known h, hs, fun _ => id, h⟩
  obtain ⟨x, hx⟩ : ∃ x, g[i]? = some x := ⟨_, Array.getElem?_eq_getElem hi⟩
  have htree := hg i x hx
  obtain ⟨next, hrun, hnext⟩ := run_start_unknown (hs.nodes ▸ htree) h (hs.nodes ▸ hx)
  refine ⟨_, hrun, ?_⟩
  obtain ⟨rfl, hopened, hparts⟩ | rfl := hnext
  · apply hs.set hx htree.slot_ne_unknown.2 (.inl ⟨hopened, by simp [hparts]⟩)
      (fun j hj _ => hj) (fun j hj => .inr hj) hs.next
  · refine hs.set hx htree.slot_ne_unknown.2 (.inr ⟨rfl, by simp⟩) (fun j hj _ => ?_)
      (fun j hj => ?_) ?_
    · rw [List.mem_append, List.mem_cons]
      exact (List.mem_append.mp hj).imp_right .inr
    · rw [List.mem_append, List.mem_cons] at hj
      rw [List.mem_append]
      exact hj.elim (fun h => .inr (.inl h)) (Or.imp_right .inr)
    · exact List.forall_mem_cons.mpr ⟨hb, hs.next⟩

/-- Steps that each keep what holds and make their parts known. -/
theorem Inv.forM {α : Type} {f : α → Filler Unit} {parts : α → List Nat} {l : List α}
    (hf : ∀ a ∈ l, ∀ s, Inv g b pending s → ∃ s', (f a).run s = .ok ((), s')
      ∧ Inv g b pending s' ∧ Keeps s s' ∧ ∀ j ∈ parts a, slotOf s' j ≠ .unknown)
    (hs : Inv g b pending s) :
    ∃ s', (l.forM f).run s = .ok ((), s') ∧ Inv g b pending s' ∧ Keeps s s'
      ∧ ∀ a ∈ l, ∀ j ∈ parts a, slotOf s' j ≠ .unknown := by
  induction l generalizing s with
  | nil => exact ⟨s, rfl, hs, fun _ => id, nofun⟩
  | cons a l ih =>
    obtain ⟨s₁, hrun₁, hs₁, hkeeps₁, hparts₁⟩ := hf a List.mem_cons_self s hs
    obtain ⟨s₂, hrun₂, hs₂, hkeeps₂, hparts₂⟩ :=
      ih (fun a ha => hf a (List.mem_cons_of_mem _ ha)) hs₁
    refine ⟨s₂, ?_, hs₂, fun i hi => hkeeps₂ i (hkeeps₁ i hi), ?_⟩
    · show (f a >>= fun _ => l.forM f).run s = _
      rw [StateT.run_bind, hrun₁, ok_bind]
      exact hrun₂
    · exact List.forall_mem_cons.mpr ⟨fun j hj => hkeeps₂ j (hparts₁ j hj), hparts₂⟩

theorem Inv.startEntry (hg : g.IsTreelike) (hs : Inv g b pending s) {e : Nat × Nat}
    (hkey : b ≤ e.1 ∧ g.tagOf e.1 = .str) (hvalue : b ≤ e.2 ∧ e.2 < g.size) :
    ∃ s', (startEntry e).run s = .ok ((), s') ∧ Inv g b pending s' ∧ Keeps s s'
      ∧ ∀ j ∈ [e.1, e.2], slotOf s' j ≠ .unknown := by
  obtain ⟨t, ht⟩ : ∃ t, g[e.1]? = some ⟨.str, .text t⟩ := by
    cases hx : g[e.1]? with
    | none => simp [Nodes.tagOf, hx] at hkey
    | some x =>
      rw [Nodes.tagOf_eq hx] at hkey
      cases hg _ _ hx with
      | text t => exact ⟨t, rfl⟩
      | list => simp at hkey
      | mapping => simp at hkey
  obtain ⟨hlt, -⟩ := Array.getElem?_eq_some_iff.mp ht
  obtain ⟨s₁, hrun₁, hs₁, hkeeps₁, hknown₁⟩ := hs.start hg hkey.1 hlt
  obtain ⟨s₂, hrun₂, hs₂, hkeeps₂, hknown₂⟩ := hs₁.start hg hvalue.1 hvalue.2
  have hslot : slotOf s₁ e.1 = .scalar (.str (String.ofList t)) := by
    obtain h | ⟨h, -⟩ | ⟨h, -⟩ := hs₁.slot _ _ ht
    · exact absurd h hknown₁
    · exact h
    · exact h
  refine ⟨s₂, ?_, hs₂, fun i hi => hkeeps₂ i (hkeeps₁ i hi), ?_⟩
  · rw [Filler.startEntry, StateT.run_bind, hrun₁, ok_bind, StateT.run_bind, StateT.run_get,
      pure_bind]
    dsimp only
    rw [hslot]
    exact hrun₂
  · simpa using ⟨hkeeps₂ _ hknown₁, hknown₂⟩

/-! ## Filling a collection -/

theorem Inv.done (hg : g.IsTreelike) (hs : Inv g b (i :: pending) s) (hi : g[i]? = some x)
    (hparts : ∀ j ∈ x.parts, slotOf s j ≠ .unknown) :
    Inv g b pending ⟨s.nodes, s.slots.setIfInBounds i x.slot, s.next⟩
      ∧ Keeps s ⟨s.nodes, s.slots.setIfInBounds i x.slot, s.next⟩ := by
  have h := hs.set hi (hg i x hi).slot_ne_unknown.1 (.inl ⟨rfl, fun j hj _ => hparts j hj⟩)
    (fun j hj hne => (List.mem_cons.mp hj).resolve_left hne)
    (fun j hj => .inr (List.mem_cons_of_mem i hj)) hs.next
  exact ⟨h.1, h.2.1⟩

theorem run_fill {ids : List Nat} {s₁ : Stage} (hx : s.nodes.contentOf i = .items ids)
    (h : ∃ ids', slotOf s i = .collection (.list ids'))
    (hrun : (ids.forM Filler.start).run s = .ok ((), s₁)) :
    (fill i).run s
      = .ok ((), ⟨s₁.nodes, s₁.slots.setIfInBounds i (.collection (.list ids)), s₁.next⟩) := by
  obtain ⟨ids', h⟩ := h
  have hitems : (itemsOf i).run s = .ok (ids, s) := by
    rw [itemsOf, StateT.run_bind, StateT.run_get, pure_bind]
    dsimp only
    rw [hx]
    rfl
  rw [fill, StateT.run_bind, StateT.run_get, pure_bind]
  dsimp only
  rw [h]
  dsimp only
  rw [StateT.run_bind, hitems, ok_bind, StateT.run_bind, hrun, ok_bind]
  rfl

theorem run_fill_mapping {es : List (Nat × Nat)} {s₁ : Stage}
    (hx : s.nodes.contentOf i = .entries es) (hmerge : s.nodes.merge i = .ok s.nodes)
    (h : ∃ es', slotOf s i = .collection (.mapping es'))
    (hrun : (es.forM Filler.startEntry).run s = .ok ((), s₁)) :
    (fill i).run s
      = .ok ((), ⟨s₁.nodes, s₁.slots.setIfInBounds i (.collection (.mapping es)), s₁.next⟩) := by
  obtain ⟨es', h⟩ := h
  have hentries : (startEntries i).run s = .ok (es, s₁) := by
    have hes : s.nodes.entriesOf i = es := by rw [Nodes.entriesOf, hx]
    rw [startEntries, StateT.run_bind, StateT.run_get, pure_bind]
    dsimp only
    rw [hx]
    dsimp only
    rw [StateT.run_bind, StateT.run_get, pure_bind, StateT.run_bind, hmerge]
    show ((s.nodes.entriesOf i).forM Filler.startEntry
      >>= fun _ => pure (s.nodes.entriesOf i)).run s = _
    rw [hes, StateT.run_bind, hrun, ok_bind]
    rfl
  rw [fill, StateT.run_bind, StateT.run_get, pure_bind]
  dsimp only
  rw [h]
  dsimp only
  rw [StateT.run_bind, hentries, ok_bind]
  rfl

theorem Inv.fill (hg : g.IsTreelike) (hs : Inv g b (i :: pending) s) (hb : b ≤ i + 1) :
    ∃ s', (fill i).run s = .ok ((), s') ∧ Inv g b pending s' ∧ Keeps s s' := by
  have hknown : slotOf s i ≠ .unknown := hs.known i List.mem_cons_self
  obtain ⟨x, hi⟩ := hs.exists_node hknown
  have hcontent : s.nodes.contentOf i = x.content := by rw [hs.nodes, Nodes.contentOf_eq hi]
  have hslot : slotOf s i = x.slot ∨ slotOf s i = x.slot.opened :=
    (hs.slot i x hi).elim (fun h => absurd h hknown) (Or.imp And.left And.left)
  cases hg i x hi with
  | text t =>
    have h : slotOf s i = .scalar (.str (String.ofList t)) := hslot.elim id id
    refine ⟨s, ?_, ⟨hs.nodes, hs.size, fun j y hy => ?_,
      fun j hj => hs.known j (List.mem_cons_of_mem i hj), hs.next⟩, fun _ => id⟩
    · rw [Filler.fill, StateT.run_bind, StateT.run_get, pure_bind]
      dsimp only
      rw [h]
      rfl
    · obtain hunknown | hdone | ⟨hopened, hmem⟩ := hs.slot j y hy
      · exact .inl hunknown
      · exact .inr (.inl hdone)
      · obtain rfl | hmem := List.mem_cons.mp hmem
        · obtain rfl := Option.some.inj (hi.symm.trans hy)
          exact .inr (.inl ⟨h, nofun⟩)
        · exact .inr (.inr ⟨hopened, hmem⟩)
  | list ids hids =>
    have hstart (j) (hj : j ∈ ids) (s') (hs' : Inv g b (i :: pending) s') :
        ∃ s'', (Filler.start j).run s' = .ok ((), s'') ∧ Inv g b (i :: pending) s''
          ∧ Keeps s' s'' ∧ ∀ k ∈ [j], slotOf s'' k ≠ .unknown := by
      obtain ⟨hlt, hsize⟩ := hids j hj
      simpa using hs'.start hg (Nat.le_trans hb hlt) hsize
    obtain ⟨s₁, hrun, hs₁, hkeeps, hparts⟩ := hs.forM hstart
    obtain ⟨hs₂, hkeeps₂⟩ := hs₁.done hg hi (by simpa [Node.parts] using hparts)
    refine ⟨_, run_fill hcontent ?_ hrun, hs₂, fun j hj => hkeeps₂ j (hkeeps j hj)⟩
    exact hslot.elim (fun h => ⟨_, h⟩) fun h => ⟨_, h⟩
  | mapping es hkeys hvalues =>
    have hstart (e) (he : e ∈ es) (s') (hs' : Inv g b (i :: pending) s') :
        ∃ s'', (Filler.startEntry e).run s' = .ok ((), s'') ∧ Inv g b (i :: pending) s''
          ∧ Keeps s' s'' ∧ ∀ k ∈ [e.1, e.2], slotOf s'' k ≠ .unknown := by
      obtain ⟨hkey, htag⟩ := hkeys e he
      obtain ⟨hvalue, hsize⟩ := hvalues e he
      exact hs'.startEntry hg ⟨Nat.le_trans hb hkey, htag⟩ ⟨Nat.le_trans hb hvalue, hsize⟩
    obtain ⟨s₁, hrun, hs₁, hkeeps, hparts⟩ := hs.forM hstart
    obtain ⟨hs₂, hkeeps₂⟩ := hs₁.done hg hi fun j hj => by
      obtain ⟨e, he, hj⟩ := List.mem_flatMap.mp hj
      exact hparts e he j hj
    have hmerge : s.nodes.merge i = .ok s.nodes := by
      rw [hs.nodes] at hcontent ⊢
      exact hg.merge hcontent
    refine ⟨_, run_fill_mapping hcontent hmerge ?_ hrun, hs₂,
      fun j hj => hkeeps₂ j (hkeeps j hj)⟩
    exact hslot.elim (fun h => ⟨_, h⟩) fun h => ⟨_, h⟩

/-! ## Rounds -/

theorem Inv.forM_fill (hg : g.IsTreelike) (hs : Inv g b pending s)
    (hb : ∀ i ∈ pending, b ≤ i + 1) :
    ∃ s', (pending.forM Filler.fill).run s = .ok ((), s') ∧ Inv g b [] s' ∧ Keeps s s' := by
  induction pending generalizing s with
  | nil => exact ⟨s, rfl, hs, fun _ => id⟩
  | cons i pending ih =>
    obtain ⟨s₁, hrun₁, hs₁, hkeeps₁⟩ := hs.fill hg (hb i List.mem_cons_self)
    obtain ⟨s₂, hrun₂, hs₂, hkeeps₂⟩ := ih hs₁ fun j hj => hb j (List.mem_cons_of_mem i hj)
    refine ⟨s₂, ?_, hs₂, fun i hi => hkeeps₂ i (hkeeps₁ i hi)⟩
    show (Filler.fill i >>= fun _ => pending.forM Filler.fill).run s = _
    rw [StateT.run_bind, hrun₁, ok_bind]
    exact hrun₂

/-- What was kept for the next round is what is pending in it. -/
theorem Inv.next_round (hs : Inv g b [] s) :
    Inv g (b + 1) s.next.reverse ⟨s.nodes, s.slots, []⟩ := by
  have hmem (i : Nat) : i ∈ s.next.reverse ++ [] ↔ i ∈ [] ++ s.next := by simp
  refine ⟨hs.nodes, hs.size, fun i x hi => ?_, fun i hi => hs.known i ((hmem i).mp hi), nofun⟩
  obtain h | h | ⟨h, hi⟩ := hs.slot i x hi
  · exact .inl h
  · exact .inr (.inl h)
  · exact .inr (.inr ⟨h, (hmem i).mpr hi⟩)

theorem Inv.rounds (hg : g.IsTreelike) (fuel : Nat) (hs : Inv g b [] s)
    (hfuel : g.size < b + fuel) :
    ∃ s' b', (rounds fuel).run s = .ok ((), s') ∧ Inv g b' [] s' ∧ s'.next = []
      ∧ Keeps s s' := by
  induction fuel generalizing b s with
  | zero =>
    refine ⟨s, b, rfl, hs, List.eq_nil_iff_forall_not_mem.mpr fun i hi => ?_, fun _ => id⟩
    obtain ⟨x, hx⟩ := hs.exists_node (hs.known i hi)
    have hlt := (Array.getElem?_eq_some_iff.mp hx).1
    have hle := hs.next i hi
    omega
  | succ fuel ih =>
    by_cases hnext : s.next = []
    · refine ⟨s, b, ?_, hs, hnext, fun _ => id⟩
      rw [Filler.rounds, StateT.run_bind, StateT.run_get, pure_bind, hnext]
      rfl
    · have hb (i) (hi : i ∈ s.next.reverse) : b + 1 ≤ i + 1 :=
        Nat.succ_le_succ (hs.next i (List.mem_reverse.mp hi))
      obtain ⟨s₁, hrun₁, hs₁, hkeeps₁⟩ := hs.next_round.forM_fill hg hb
      obtain ⟨s₂, b', hrun₂, hs₂, hdone, hkeeps₂⟩ := ih hs₁ (by omega)
      refine ⟨s₂, b', ?_, hs₂, hdone, fun i hi => hkeeps₂ i (hkeeps₁ i hi)⟩
      have hne : s.next.reverse.isEmpty = false := by simpa using hnext
      rw [Filler.rounds, StateT.run_bind, StateT.run_get, pure_bind]
      dsimp only
      rw [hne]
      simp only [Bool.false_eq_true, if_false, StateT.run_bind, StateT.run_modify, pure_bind,
        hrun₁, ok_bind, hrun₂]

end Filler

/-! ## Slots of a treelike graph -/

namespace Slots

/-- The slot of a node is known. -/
def IsKnown (slots : Slots) (i : Nat) : Prop := slots[i]?.getD .unknown ≠ .unknown

/-- A slot that is known is the one that its node stands for, and its parts are known too. -/
structure IsComplete (g : Nodes) (slots : Slots) : Prop where
  size : slots.size = g.size
  slot : ∀ (i : Nat) (x : Node), g[i]? = some x → slots.IsKnown i →
    slots[i]? = some x.slot ∧ ∀ j ∈ x.parts, slots.IsKnown j

end Slots

/-- **Every node of a treelike graph gets its slot**, as far as it is reached. -/
theorem Nodes.IsTreelike.slots {g : Nodes} (hg : g.IsTreelike) {root : Nat}
    (hroot : root < g.size) :
    ∃ slots, g.slots root = .ok slots ∧ slots.IsComplete g ∧ slots.IsKnown root := by
  have hs : Filler.Inv g 0 [] ⟨g, Array.replicate g.size .unknown, []⟩ := by
    refine ⟨rfl, Array.size_replicate, fun i x hi => .inl ?_, nofun, nofun⟩
    simp only [Filler.slotOf, Array.getElem?_replicate]
    split <;> rfl
  obtain ⟨s₁, hrun₁, hs₁, -, hknown₁⟩ := hs.start hg (Nat.zero_le root) hroot
  obtain ⟨s₂, b, hrun₂, hs₂, hdone, hkeeps₂⟩ := hs₁.rounds hg (g.size + 1) (by omega)
  refine ⟨s₂.slots, ?_, ⟨hs₂.size, fun i x hi hknown => ?_⟩, hkeeps₂ root hknown₁⟩
  · rw [Nodes.slots]
    simp only [StateT.run_bind, hrun₁, ok_bind, hrun₂]
    rfl
  · obtain h | ⟨hslot, hparts⟩ | ⟨-, h⟩ := hs₂.slot i x hi
    · exact absurd h hknown
    · have hlt : i < s₂.slots.size := hs₂.size ▸ (Array.getElem?_eq_some_iff.mp hi).1
      rw [Filler.slotOf, Array.getElem?_eq_getElem hlt, Option.getD_some] at hslot
      exact ⟨by rw [Array.getElem?_eq_getElem hlt, hslot], hparts⟩
    · simp [hdone] at h

end ThreatTree.Yaml
