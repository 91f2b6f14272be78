import ThreatTree.Graph.Compile

/-!
# Which documents compile

Two checks stand in front of every graph. The first finds the node that repeats an earlier id
(`firstDuplicate_eq_some_iff`), the second the reference that no node is declared for
(`firstUnknown_eq_some_iff`). Each stops at the first fault in the order of declaration, and what
is drawn afterwards cannot fail (`compile_eq_ok_iff`).

The main statement, `compile_outcome`, says for every document which of the three outcomes it
has: a repeated id before all else, then an undeclared reference, else a graph.
-/

namespace ThreatTree

namespace Graph

/-! ## Repeated ids -/

/-- Some node has the id of an earlier one, and it is the first node of which this is true. -/
def FirstRepeats (nodes : List Node) (id : String) : Prop :=
  ∃ before n after, nodes = before ++ n :: after ∧ n.id = id
    ∧ id ∈ before.map (·.id) ∧ (before.map (·.id)).Nodup

theorem firstDuplicate_eq_none_iff {seen : List String} {nodes : List Node} :
    firstDuplicate seen nodes = none
      ↔ (nodes.map (·.id)).Nodup ∧ ∀ n ∈ nodes, n.id ∉ seen := by
  induction nodes generalizing seen with
  | nil => simp [firstDuplicate]
  | cons n ns ih =>
    rw [firstDuplicate, List.map_cons, List.nodup_cons]
    by_cases hn : n.id ∈ seen
    · rw [if_pos (by simpa using hn)]
      simp [hn]
    · rw [if_neg (by simpa using hn), ih]
      constructor
      · rintro ⟨hnodup, hfresh⟩
        refine ⟨⟨fun hmem => ?_, hnodup⟩, fun m hm => ?_⟩
        · obtain ⟨m, hm, heq⟩ := List.mem_map.1 hmem
          exact hfresh m hm (heq ▸ List.mem_cons_self)
        · rcases List.mem_cons.1 hm with rfl | hm
          · exact hn
          · exact fun hseen => hfresh m hm (List.mem_cons_of_mem _ hseen)
      · rintro ⟨⟨hnot, hnodup⟩, hfresh⟩
        refine ⟨hnodup, fun m hm hseen => ?_⟩
        rcases List.mem_cons.1 hseen with heq | hseen
        · exact hnot (heq ▸ List.mem_map_of_mem hm)
        · exact hfresh m (List.mem_cons_of_mem _ hm) hseen

/-- What is found repeats `seen` or an earlier node, and no node in front of it does. -/
theorem firstDuplicate_eq_some_iff {seen : List String} {nodes : List Node} {id : String} :
    firstDuplicate seen nodes = some id
      ↔ ∃ before n after, nodes = before ++ n :: after ∧ n.id = id
        ∧ (id ∈ seen ∨ id ∈ before.map (·.id)) ∧ firstDuplicate seen before = none := by
  induction nodes generalizing seen with
  | nil => simp [firstDuplicate]
  | cons n ns ih =>
    rw [firstDuplicate]
    by_cases hn : n.id ∈ seen
    · rw [if_pos (by simpa using hn)]
      constructor
      · intro h
        obtain rfl := Option.some.inj h
        exact ⟨[], n, ns, rfl, rfl, .inl hn, rfl⟩
      · rintro ⟨before, m, after, hnodes, hid, -, hbefore⟩
        cases before with
        | nil =>
          obtain ⟨rfl, -⟩ := List.cons.inj hnodes
          rw [hid]
        | cons k before =>
          obtain ⟨rfl, -⟩ := List.cons.inj hnodes
          exact absurd hn ((firstDuplicate_eq_none_iff.1 hbefore).2 _ List.mem_cons_self)
    · have hn' : ¬ seen.contains n.id = true := by simpa using hn
      rw [if_neg hn', ih]
      constructor
      · rintro ⟨before, m, after, rfl, hid, hmem, hbefore⟩
        refine ⟨n :: before, m, after, rfl, hid, ?_, ?_⟩
        · rw [List.map_cons, List.mem_cons, or_left_comm, ← or_assoc, ← List.mem_cons]
          exact hmem
        · rw [firstDuplicate, if_neg hn', hbefore]
      · rintro ⟨before, m, after, hnodes, hid, hmem, hbefore⟩
        cases before with
        | nil =>
          obtain ⟨rfl, -⟩ := List.cons.inj hnodes
          exact absurd (by simpa [hid] using hmem) hn
        | cons k before =>
          obtain ⟨rfl, rfl⟩ := List.cons.inj hnodes
          rw [firstDuplicate, if_neg hn'] at hbefore
          refine ⟨before, m, after, rfl, hid, ?_, hbefore⟩
          rw [List.mem_cons, or_assoc, or_left_comm, ← List.mem_cons, ← List.map_cons]
          exact hmem

theorem firstDuplicate_nil_eq_some_iff {nodes : List Node} {id : String} :
    firstDuplicate [] nodes = some id ↔ FirstRepeats nodes id := by
  simp [firstDuplicate_eq_some_iff, firstDuplicate_eq_none_iff, FirstRepeats]

/-! ## Undeclared references -/

/-- Some node refers to an id that is not declared, and all references in front of that one are
declared: those of earlier nodes, and the earlier ones of the node. -/
def FirstMisses (nodes : List Node) (id missing : String) : Prop :=
  ∃ before n after listed rest, nodes = before ++ n :: after ∧ n.id = id
    ∧ n.predecessors = listed ++ missing :: rest ∧ missing ∉ nodes.map (·.id)
    ∧ (∀ p ∈ listed, p ∈ nodes.map (·.id))
    ∧ ∀ m ∈ before, ∀ p ∈ m.predecessors, p ∈ nodes.map (·.id)

theorem find?_undeclared_eq_none_iff {ids : List String} {n : Node} :
    (n.predecessors.find? fun p => !ids.contains p) = none ↔ ∀ p ∈ n.predecessors, p ∈ ids := by
  simp

theorem firstUnknown_eq_none_iff {ids : List String} {nodes : List Node} :
    firstUnknown ids nodes = none ↔ ∀ n ∈ nodes, ∀ p ∈ n.predecessors, p ∈ ids := by
  rw [firstUnknown, List.findSome?_eq_none_iff]
  simp only [Option.map_eq_none_iff, find?_undeclared_eq_none_iff]

theorem firstUnknown_eq_some_iff {ids : List String} {nodes : List Node} {id missing : String} :
    firstUnknown ids nodes = some (id, missing)
      ↔ ∃ before n after listed rest, nodes = before ++ n :: after ∧ n.id = id
        ∧ n.predecessors = listed ++ missing :: rest ∧ missing ∉ ids
        ∧ (∀ p ∈ listed, p ∈ ids) ∧ ∀ m ∈ before, ∀ p ∈ m.predecessors, p ∈ ids := by
  rw [firstUnknown, List.findSome?_eq_some_iff]
  simp only [Option.map_eq_none_iff, find?_undeclared_eq_none_iff]
  constructor
  · rintro ⟨before, n, after, hnodes, hn, hbefore⟩
    obtain ⟨p, hp, heq⟩ := Option.map_eq_some_iff.1 hn
    obtain ⟨rfl, rfl⟩ := Prod.mk.inj heq
    obtain ⟨hmissing, listed, rest, hlist, hlisted⟩ := List.find?_eq_some_iff_append.1 hp
    exact ⟨before, n, after, listed, rest, hnodes, rfl, hlist, by simpa using hmissing,
      fun q hq => by simpa using hlisted q hq, hbefore⟩
  · rintro ⟨before, n, after, listed, rest, hnodes, rfl, hlist, hmissing, hlisted, hbefore⟩
    have hfind : (n.predecessors.find? fun p => !ids.contains p) = some missing :=
      List.find?_eq_some_iff_append.2 ⟨by simpa using hmissing, listed, rest, hlist,
        fun q hq => by simpa using hlisted q hq⟩
    exact ⟨before, n, after, hnodes, by rw [hfind, Option.map_some], hbefore⟩

/-! ## Both checks -/

/-- All references of the nodes are declared among them. -/
def Refers (nodes : List Node) : Prop :=
  ∀ n ∈ nodes, ∀ p ∈ n.predecessors, p ∈ nodes.map (·.id)

/-- The fault that is reported: a repeated id before an undeclared reference. -/
def firstFault (nodes : List Node) : Option Error :=
  ((firstDuplicate [] nodes).map Error.duplicateId).or
    ((firstUnknown (nodes.map (·.id)) nodes).map fun p => .unknownReference p.1 p.2)

theorem check_eq (nodes : List Node) : check nodes = (firstFault nodes).elim (.ok ()) .error := by
  unfold check firstFault
  cases firstDuplicate [] nodes with
  | some id => rfl
  | none => cases firstUnknown (nodes.map (·.id)) nodes <;> rfl

theorem check_eq_error_iff {nodes : List Node} {e : Error} :
    check nodes = .error e ↔ firstFault nodes = some e := by
  rw [check_eq]
  cases firstFault nodes <;> simp

theorem firstDuplicate_nil_eq_none_iff {nodes : List Node} :
    firstDuplicate [] nodes = none ↔ (nodes.map (·.id)).Nodup := by
  simp [firstDuplicate_eq_none_iff]

theorem check_eq_ok_iff {nodes : List Node} :
    check nodes = .ok () ↔ (nodes.map (·.id)).Nodup ∧ Refers nodes := by
  have hfault : check nodes = .ok () ↔ firstFault nodes = none := by
    rw [check_eq]
    cases firstFault nodes <;> simp
  rw [hfault, firstFault, Option.or_eq_none_iff, Option.map_eq_none_iff, Option.map_eq_none_iff,
    firstDuplicate_nil_eq_none_iff, firstUnknown_eq_none_iff, Refers]

theorem check_eq_duplicateId_iff {nodes : List Node} {id : String} :
    check nodes = .error (.duplicateId id) ↔ FirstRepeats nodes id := by
  rw [check_eq_error_iff, firstFault, Option.or_eq_some_iff, ← firstDuplicate_nil_eq_some_iff]
  simp

theorem check_eq_unknownReference_iff {nodes : List Node} {id missing : String} :
    check nodes = .error (.unknownReference id missing)
      ↔ (nodes.map (·.id)).Nodup ∧ FirstMisses nodes id missing := by
  rw [check_eq_error_iff, firstFault, Option.or_eq_some_iff, ← firstDuplicate_nil_eq_none_iff,
    FirstMisses, ← firstUnknown_eq_some_iff]
  simp

/-- Ids are repeated exactly if some node is the first to repeat one. -/
theorem exists_firstRepeats_iff {nodes : List Node} :
    (∃ id, FirstRepeats nodes id) ↔ ¬ (nodes.map (·.id)).Nodup := by
  simp only [← firstDuplicate_nil_eq_some_iff, ← firstDuplicate_nil_eq_none_iff]
  cases firstDuplicate [] nodes <;> simp

theorem exists_firstMisses_iff {nodes : List Node} :
    (∃ id missing, FirstMisses nodes id missing)
      ↔ ∃ n ∈ nodes, ∃ p ∈ n.predecessors, p ∉ nodes.map (·.id) := by
  have hnone := not_congr (@firstUnknown_eq_none_iff (nodes.map (·.id)) nodes)
  simp only [Classical.not_forall, exists_prop] at hnone
  simp only [FirstMisses, ← firstUnknown_eq_some_iff]
  rw [← hnone]
  cases firstUnknown (nodes.map (·.id)) nodes with
  | none => simp
  | some p => simp [Prod.ext_iff]

end Graph

/-! ## Compiling -/

open ThreatTree.Graph

variable {registry : Registry} {theme : Option String} {d : Document}

theorem Document.compile_eq (registry : Registry) (theme : Option String) (d : Document) :
    d.compile registry theme =
      (check d.nodes).map fun _ =>
        draw d.title (registry.resolve (d.chosenTheme theme)) d.nodes := rfl

/-- After the checks nothing can fail: a document that passes them has the graph that is drawn. -/
theorem Document.compile_eq_ok_iff {g : Graph} :
    d.compile registry theme = .ok g ↔ (d.nodeIds.Nodup ∧ Refers d.nodes)
      ∧ g = draw d.title (registry.resolve (d.chosenTheme theme)) d.nodes := by
  rw [Document.nodeIds, ← check_eq_ok_iff, compile_eq]
  cases check d.nodes <;> simp [Except.map, eq_comm]

theorem Document.compile_eq_error_iff {e : Error} :
    d.compile registry theme = .error e ↔ check d.nodes = .error e := by
  rw [compile_eq]
  cases check d.nodes <;> simp [Except.map]

/-- **Every document has one of three outcomes**, for every registry and with or without the name
of a theme. If an id is repeated, the first node that repeats one is reported, whatever is
referred to. Else, if a reference is undeclared, the first such reference is reported, in the
order of the nodes and of their lists. Else there is a graph. -/
theorem Document.compile_outcome (registry : Registry) (theme : Option String) (d : Document) :
    (∀ id, d.compile registry theme = .error (.duplicateId id) ↔ FirstRepeats d.nodes id)
    ∧ ((∃ id, d.compile registry theme = .error (.duplicateId id)) ↔ ¬ d.nodeIds.Nodup)
    ∧ (∀ id missing, d.compile registry theme = .error (.unknownReference id missing)
        ↔ d.nodeIds.Nodup ∧ FirstMisses d.nodes id missing)
    ∧ ((∃ id missing, d.compile registry theme = .error (.unknownReference id missing))
        ↔ d.nodeIds.Nodup ∧ ∃ n ∈ d.nodes, ∃ p ∈ n.predecessors, p ∉ d.nodeIds)
    ∧ ((∃ g, d.compile registry theme = .ok g)
        ↔ d.nodeIds.Nodup ∧ ∀ n ∈ d.nodes, ∀ p ∈ n.predecessors, p ∈ d.nodeIds) := by
  have hrepeats (id : String) :
      d.compile registry theme = .error (.duplicateId id) ↔ FirstRepeats d.nodes id :=
    compile_eq_error_iff.trans check_eq_duplicateId_iff
  have hmisses (id missing : String) :
      d.compile registry theme = .error (.unknownReference id missing)
        ↔ d.nodeIds.Nodup ∧ FirstMisses d.nodes id missing :=
    compile_eq_error_iff.trans check_eq_unknownReference_iff
  refine ⟨hrepeats, ?_, hmisses, ?_, ?_⟩
  · simp only [hrepeats]
    exact exists_firstRepeats_iff
  · simp only [hmisses, exists_and_left]
    exact and_congr_right fun _ => exists_firstMisses_iff
  · simp only [compile_eq_ok_iff, exists_and_left, exists_eq, and_true]
    exact Iff.rfl

end ThreatTree
