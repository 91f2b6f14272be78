import ThreatTree.Proofs.Yaml.Walk

/-!
# The value of a tree

A file whose tokens are those of a tree has the value of the tree (`load_eq_value`): the reader
builds the nodes of the tree, these make a treelike graph, so every slot is filled, and the values
that are put together from the slots are, part by part, the values of the tree
(`Tree.value_eq`).
-/

namespace ThreatTree.Yaml

/-! ## Entries

The keys of a tree are different nodes, so no key is set twice for being the same node; what is
left is that a key with the value of an earlier one takes its place.
-/

theorem map_setById {k : Nat} (kv v : Value) {acc : List (Nat × Value × Value)}
    (h : k ∉ acc.map (·.1)) :
    (setById k kv v acc).map (·.2) = Value.Entries.set kv v (acc.map (·.2)) := by
  induction acc with
  | nil => rfl
  | cons a acc ih =>
    obtain ⟨k', kv', v'⟩ := a
    rw [List.map_cons, List.mem_cons, not_or] at h
    have hne : (k' = k) = False := by simpa using Ne.symm h.1
    simp only [setById, hne, decide_false, Bool.false_or, List.map_cons, Value.Entries.set]
    split
    · rfl
    · rw [List.map_cons, ih h.2]

theorem ids_setById {k : Nat} (kv v : Value) {acc : List (Nat × Value × Value)} :
    ∀ j ∈ (setById k kv v acc).map (·.1), j = k ∨ j ∈ acc.map (·.1) := by
  induction acc with
  | nil => simp [setById]
  | cons a acc ih =>
    obtain ⟨k', kv', v'⟩ := a
    rw [setById]
    split
    · exact fun j hj => .inr hj
    · intro j hj
      rw [List.map_cons, List.mem_cons] at hj ⊢
      obtain rfl | hj := hj
      · exact .inr (.inl rfl)
      · exact (ih j hj).imp_right .inr

theorem foldl_setById (V : Nat → Value) {es : List (Nat × Nat)} {acc : List (Nat × Value × Value)}
    (hnodup : (es.map (·.1)).Nodup) (h : ∀ e ∈ es, e.1 ∉ acc.map (·.1)) :
    (es.foldl (fun acc e => setById e.1 (V e.1) (V e.2) acc) acc).map (·.2)
      = (es.map fun e => (V e.1, V e.2)).foldl (fun es p => Value.Entries.set p.1 p.2 es)
          (acc.map (·.2)) := by
  induction es generalizing acc with
  | nil => rfl
  | cons e es ih =>
    rw [List.map_cons, List.nodup_cons] at hnodup
    rw [List.forall_mem_cons] at h
    have hrest (e') (he' : e' ∈ es) : e'.1 ∉ (setById e.1 (V e.1) (V e.2) acc).map (·.1) := by
      intro hmem
      obtain heq | hmem := ids_setById _ _ _ hmem
      · exact hnodup.1 (heq ▸ List.mem_map_of_mem he')
      · exact h.2 e' he' hmem
    rw [List.foldl_cons, List.map_cons, List.foldl_cons, ih hnodup.2 hrest, map_setById _ _ h.1]

theorem entriesOfParts_eq_ofPairs (V : Nat → Value) {es : List (Nat × Nat)}
    (hnodup : (es.map (·.1)).Nodup) :
    entriesOfParts V es = Value.Entries.ofPairs (es.map fun e => (V e.1, V e.2)) :=
  foldl_setById V hnodup fun _ _ => List.not_mem_nil

/-! ## The nodes of a tree in a graph -/

/-- The nodes stand in a graph from a number on. -/
def Nodes.Holds (g : Nodes) (k : Nat) (xs : List Node) : Prop :=
  ∃ front back, g.toList = front ++ (xs ++ back) ∧ front.length = k

namespace Nodes.Holds

variable {g : Nodes} {k : Nat} {x : Node} {xs ys : List Node}

theorem getElem? (h : g.Holds k (x :: xs)) : g[k]? = some x := by
  obtain ⟨front, back, hg, rfl⟩ := h
  rw [← Array.getElem?_toList, hg]
  simp

theorem tail (h : g.Holds k (x :: xs)) : g.Holds (k + 1) xs := by
  obtain ⟨front, back, hg, rfl⟩ := h
  exact ⟨front ++ [x], back, by simp [hg], by simp⟩

theorem append (h : g.Holds k (xs ++ ys)) : g.Holds k xs ∧ g.Holds (k + xs.length) ys := by
  obtain ⟨front, back, hg, rfl⟩ := h
  exact ⟨⟨front, ys ++ back, by simp [hg], rfl⟩, ⟨front ++ xs, back, by simp [hg], by simp⟩⟩

theorem le_size (h : g.Holds k xs) : k + xs.length ≤ g.size := by
  obtain ⟨front, back, hg, rfl⟩ := h
  rw [← Array.length_toList, hg]
  simp

end Nodes.Holds

namespace Tree

variable {g : Nodes} {i : Nat} {x : Node}

theorem Entries.tagOf_key (entries : Entries) {k : Nat} (hk : g.Holds k (entries.nodes k))
    {e : Nat × Nat} (he : e ∈ entries.ids k) : g.tagOf e.1 = .str := by
  match entries with
  | .nil => simp [Entries.ids] at he
  | .cons key value rest =>
    rw [Entries.nodes] at hk
    rw [Entries.ids, List.mem_cons] at he
    obtain rfl | he := he
    · exact Nodes.tagOf_eq hk.getElem?
    · obtain ⟨-, hrest⟩ := hk.tail.append
      rw [Tree.length_nodes] at hrest
      exact rest.tagOf_key hrest he

mutual

/-- The nodes of a tree are treelike, in every graph that holds them. -/
theorem isTreelike (t : Tree) {k : Nat} (hk : g.Holds k (t.nodes k))
    (hi : k ≤ i ∧ i < k + t.size) (hx : g[i]? = some x) : x.IsTreelike g i := by
  match t with
  | .text w =>
    rw [size] at hi
    obtain rfl : k = i := by omega
    obtain rfl := Option.some.inj (hk.getElem?.symm.trans hx)
    exact .text _
  | .list items =>
    rw [size] at hi
    rw [nodes] at hk
    by_cases h : k = i
    · subst h
      obtain rfl := Option.some.inj (hk.getElem?.symm.trans hx)
      have hsize := hk.tail.le_size
      rw [Items.length_nodes] at hsize
      refine .list _ fun j hj => ?_
      have hlt := items.lt_of_mem_ids hj
      omega
    · exact items.isTreelike hk.tail (by omega) hx
  | .mapping entries =>
    rw [size] at hi
    rw [nodes] at hk
    by_cases h : k = i
    · subst h
      obtain rfl := Option.some.inj (hk.getElem?.symm.trans hx)
      have hsize := hk.tail.le_size
      rw [Entries.length_nodes] at hsize
      refine .mapping _ (fun e he => ⟨?_, entries.tagOf_key hk.tail he⟩) fun e he => ?_
      · exact (entries.lt_of_mem_ids he).1
      · have hlt := entries.lt_of_mem_ids he
        omega
    · exact entries.isTreelike hk.tail (by omega) hx

theorem Items.isTreelike (items : Items) {k : Nat} (hk : g.Holds k (items.nodes k))
    (hi : k ≤ i ∧ i < k + items.size) (hx : g[i]? = some x) : x.IsTreelike g i := by
  match items with
  | .nil =>
    rw [Items.size] at hi
    omega
  | .cons item rest =>
    rw [Items.size] at hi
    rw [Items.nodes] at hk
    obtain ⟨hitem, hrest⟩ := hk.append
    rw [length_nodes] at hrest
    by_cases h : i < k + item.size
    · exact item.isTreelike hitem (by omega) hx
    · exact rest.isTreelike hrest (by omega) hx

theorem Entries.isTreelike (entries : Entries) {k : Nat} (hk : g.Holds k (entries.nodes k))
    (hi : k ≤ i ∧ i < k + entries.size) (hx : g[i]? = some x) : x.IsTreelike g i := by
  match entries with
  | .nil =>
    rw [Entries.size] at hi
    omega
  | .cons key value rest =>
    rw [Entries.size] at hi
    rw [Entries.nodes] at hk
    obtain ⟨hvalue, hrest⟩ := hk.tail.append
    rw [length_nodes] at hrest
    by_cases h : k = i
    · subst h
      obtain rfl := Option.some.inj (hk.getElem?.symm.trans hx)
      exact .text _
    · by_cases h : i < k + 1 + value.size
      · exact value.isTreelike hvalue (by omega) hx
      · exact rest.isTreelike hrest (by omega) hx

end

end Tree

theorem Tree.holds_toArray (t : Tree) : Nodes.Holds (t.nodes 0).toArray 0 (t.nodes 0) :=
  ⟨[], [], by simp, rfl⟩

theorem Tree.isTreelike_toArray (t : Tree) : Nodes.IsTreelike (t.nodes 0).toArray := by
  intro i x hx
  obtain ⟨hlt, -⟩ := Array.getElem?_eq_some_iff.mp hx
  rw [List.size_toArray, length_nodes] at hlt
  exact t.isTreelike t.holds_toArray ⟨Nat.zero_le i, by omega⟩ hx

/-! ## Values of the nodes -/

/-- The nodes `P`, each with its parts, have the values `V` that they stand for. -/
def Nodes.HasValues (g : Nodes) (V : Nat → Value) (P : Nat → Prop) : Prop :=
  ∀ (i : Nat) (x : Node), P i → g[i]? = some x → V i = x.slot.value V ∧ ∀ j ∈ x.parts, P j

namespace Tree

variable {g : Nodes} {V : Nat → Value} {P : Nat → Prop}

mutual

theorem value_eq (hV : g.HasValues V P) (t : Tree) {k : Nat} (hk : g.Holds k (t.nodes k))
    (hP : P k) : V k = t.value := by
  match t with
  | .text w => exact (hV k _ hP hk.getElem?).1
  | .list items =>
    rw [nodes] at hk
    obtain ⟨hvalue, hparts⟩ := hV k _ hP hk.getElem?
    rw [hvalue, value, ← Items.values_eq hV items hk.tail hparts]
    rfl
  | .mapping entries =>
    rw [nodes] at hk
    obtain ⟨hvalue, hparts⟩ := hV k _ hP hk.getElem?
    have hentries := Entries.values_eq hV entries hk.tail fun e he =>
      ⟨hparts _ (Slot.mem_parts he).1, hparts _ (Slot.mem_parts he).2⟩
    rw [hvalue, value, ← hentries, ← entriesOfParts_eq_ofPairs V (entries.nodup_keys _)]
    rfl

theorem Items.values_eq (hV : g.HasValues V P) (items : Items) {k : Nat}
    (hk : g.Holds k (items.nodes k)) (hP : ∀ j ∈ items.ids k, P j) :
    (items.ids k).map V = items.values := by
  match items with
  | .nil => rfl
  | .cons item rest =>
    rw [Items.nodes] at hk
    rw [Items.ids] at hP ⊢
    obtain ⟨hitem, hrest⟩ := hk.append
    rw [length_nodes] at hrest
    obtain ⟨hPitem, hPrest⟩ := List.forall_mem_cons.mp hP
    rw [List.map_cons, Items.values, value_eq hV item hitem hPitem,
      Items.values_eq hV rest hrest hPrest]

theorem Entries.values_eq (hV : g.HasValues V P) (entries : Entries) {k : Nat}
    (hk : g.Holds k (entries.nodes k)) (hP : ∀ e ∈ entries.ids k, P e.1 ∧ P e.2) :
    (entries.ids k).map (fun e => (V e.1, V e.2)) = entries.values := by
  match entries with
  | .nil => rfl
  | .cons key value rest =>
    rw [Entries.nodes] at hk
    rw [Entries.ids] at hP ⊢
    obtain ⟨hvalue, hrest⟩ := hk.tail.append
    rw [length_nodes] at hrest
    obtain ⟨⟨hPkey, hPvalue⟩, hPrest⟩ := List.forall_mem_cons.mp hP
    have hkey : V k = key.value := (hV k _ hPkey hk.getElem?).1
    rw [List.map_cons, Entries.values, hkey, value_eq hV value hvalue hPvalue,
      Entries.values_eq hV rest hrest hPrest]

end

end Tree

/-! ## From slots to the tree -/

theorem Slots.IsComplete.slot_eq {g : Nodes} {slots : Slots} {i : Nat} {x : Node}
    (h : slots.IsComplete g) (hg : g.IsTreelike) (hx : g[i]? = some x) (hi : slots.IsKnown i) :
    slots[i]?.getD .unknown = x.slot ∧ slots.partsOf i = x.parts := by
  obtain ⟨hslot, -⟩ := h.slot i x hx hi
  rw [Slots.partsOf, hslot]
  refine ⟨rfl, ?_⟩
  cases hg i x hx <;> rfl

theorem Node.IsTreelike.lt_parts {g : Nodes} {i : Nat} {x : Node} (h : x.IsTreelike g i) :
    ∀ j ∈ x.parts, i < j ∧ j < g.size := by
  cases h with
  | text s => nofun
  | list ids h => exact h
  | mapping es hkeys hvalues =>
    intro j hj
    obtain ⟨e, he, hj⟩ := List.mem_flatMap.mp hj
    obtain ⟨hlt, htag⟩ := hkeys e he
    have hsize : e.1 < g.size := by
      by_contra hge
      rw [Nodes.tagOf, Array.getElem?_eq_none (by omega)] at htag
      simp at htag
    simp only [List.mem_cons, List.not_mem_nil, or_false] at hj
    obtain rfl | rfl := hj
    · exact ⟨hlt, hsize⟩
    · exact hvalues e he

theorem Nodes.IsTreelike.isOrdered {g : Nodes} {slots : Slots} (hg : g.IsTreelike)
    (h : slots.IsComplete g) : slots.IsOrdered := by
  intro i j hj
  have hknown : slots.IsKnown i := by
    intro hunknown
    rw [Slots.partsOf] at hj
    split at hj
    · next hf => simp [hf] at hunknown
    · simp at hj
  have hlt : i < g.size := by
    by_contra hge
    exact hknown (by rw [Array.getElem?_eq_none (by rw [h.size]; omega)]; rfl)
  have hx := Array.getElem?_eq_getElem hlt
  rw [(h.slot_eq hg hx hknown).2] at hj
  rw [h.size]
  exact (hg i _ hx).lt_parts j hj

theorem Slots.HasValues.nodes {g : Nodes} {slots : Slots} {V : Nat → Value} {P : Nat → Prop}
    (hV : slots.HasValues V P) (hg : g.IsTreelike) (h : slots.IsComplete g) :
    g.HasValues V fun i => P i ∧ slots.IsKnown i := by
  intro i x ⟨hPi, hi⟩ hx
  obtain ⟨hslot, hparts⟩ := h.slot_eq hg hx hi
  obtain ⟨hVi, hPparts⟩ := hV i hPi
  rw [hslot] at hVi
  rw [hparts] at hPparts
  exact ⟨hVi, fun j hj => ⟨hPparts j hj, (h.slot i x hx hi).2 j hj⟩⟩

/-- **A file whose tokens are those of a tree has the value of the tree.** -/
theorem load_eq_value (t : Tree) (ht : t.height ≤ Node.depthLimit) {text : List Char}
    (h : TokenStream.ofText text = ⟨t.tokens false ++ [.streamEnd], none⟩) :
    load text = .ok t.value := by
  have htree := t.isTreelike_toArray
  have hroot : 0 < (t.nodes 0).toArray.size := by
    rw [List.size_toArray, Tree.length_nodes]
    exact t.size_pos
  obtain ⟨slots, hslots, hcomplete, hknown⟩ := htree.slots hroot
  obtain ⟨V, P, hvalue, hP, hV⟩ :=
    slots.exists_valueOf (htree.isOrdered hcomplete) (hcomplete.size ▸ hroot)
  rw [load, h, Nodes.ofTokens_tokens t ht, ok_bind]
  simp only [hslots, ok_bind, hvalue]
  rw [Tree.value_eq (hV.nodes htree hcomplete) t t.holds_toArray ⟨hP, hknown⟩]
  rfl

end ThreatTree.Yaml
