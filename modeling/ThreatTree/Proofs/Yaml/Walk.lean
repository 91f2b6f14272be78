import ThreatTree.Proofs.Yaml.Filling

/-!
# Putting values together

The value of a node is put together once the values of its parts are. A walk from the root finds
the order for this. Where the parts of each collection come behind it, the walk meets no cycle and
leaves every node after its parts (`Walk.Inv.ofRoot`), so the values that `Slots.combine` leaves
behind are those that the slots ask for (`Slots.exists_valueOf`).
-/

namespace ThreatTree.Yaml

namespace Slots

/-- The parts of a node, if it is a collection. -/
def partsOf (slots : Slots) (i : Nat) : List Nat :=
  match slots[i]? with
  | some (.collection f) => f.parts
  | _ => []

/-- The parts of each collection come behind it. -/
def IsOrdered (slots : Slots) : Prop := ∀ i, ∀ j ∈ slots.partsOf i, i < j ∧ j < slots.size

/-- A list of nodes, the last one first, each of which comes after its parts. -/
inductive IsSorted (slots : Slots) : List Nat → Prop where
  | nil : IsSorted slots []
  | cons {i : Nat} {order : List Nat} (hi : i ∉ order) (hlt : i < slots.size)
    (hparts : ∀ j ∈ slots.partsOf i, j ∈ order) (h : IsSorted slots order) :
    IsSorted slots (i :: order)

theorem IsSorted.parts_mem {slots : Slots} {order : List Nat} (h : slots.IsSorted order)
    {i j : Nat} (hi : i ∈ order) (hj : j ∈ slots.partsOf i) : j ∈ order := by
  induction h with
  | nil => simp at hi
  | cons _ _ hparts _ ih =>
    obtain rfl | hi := List.mem_cons.mp hi
    · exact List.mem_cons_of_mem _ (hparts j hj)
    · exact List.mem_cons_of_mem _ (ih hi)

end Slots

/-! ## The order of a walk -/

namespace Walk

variable {slots : Slots} {w : Walk} {id : Nat}

def enter (w : Walk) (id : Nat) : Walk := { w with marks := w.marks.setIfInBounds id .entered }

def leave (w : Walk) (id : Nat) : Walk :=
  { w with marks := w.marks.setIfInBounds id .left, order := id :: w.order }

theorem visit_succ (slots : Slots) (fuel : Nat) (w : Walk) (id : Nat) :
    visit slots (fuel + 1) w id = match w.marks[id]?.getD .left with
      | .left => w
      | .entered => { w with isCyclic := true }
      | .unseen => ((slots.partsOf id).foldl (visit slots fuel) (w.enter id)).leave id :=
  rfl

theorem marks_enter (h : id < w.marks.size) (i : Nat) :
    (w.enter id).marks[i]? = if id = i then some .entered else w.marks[i]? := by
  rw [enter, Array.getElem?_setIfInBounds, if_pos h]

theorem marks_leave (h : id < w.marks.size) (i : Nat) :
    (w.leave id).marks[i]? = if id = i then some .left else w.marks[i]? := by
  rw [leave, Array.getElem?_setIfInBounds, if_pos h]

/-- What holds between the steps of a walk. -/
structure Inv (slots : Slots) (w : Walk) : Prop where
  size : w.marks.size = slots.size
  left : ∀ i, w.marks[i]? = some .left ↔ i ∈ w.order
  sorted : slots.IsSorted w.order
  acyclic : w.isCyclic = false

/-- A walk that went on: the nodes that were left stay left, and what is entered is the same. -/
structure Extends (w' w : Walk) : Prop where
  order : ∀ i ∈ w.order, i ∈ w'.order
  entered : ∀ i : Nat, w'.marks[i]? = some .entered ↔ w.marks[i]? = some .entered

theorem Extends.refl (w : Walk) : Extends w w := ⟨fun _ h => h, fun _ => Iff.rfl⟩

theorem Extends.trans {w₁ w₂ w₃ : Walk} (h : Extends w₃ w₂) (h' : Extends w₂ w₁) :
    Extends w₃ w₁ :=
  ⟨fun i hi => h.order i (h'.order i hi), fun i => (h.entered i).trans (h'.entered i)⟩

theorem Inv.enter (hw : Inv slots w) (hlt : id < slots.size) (hid : id ∉ w.order) :
    Inv slots (w.enter id) := by
  refine ⟨by simp [Walk.enter, hw.size], fun i => ?_, hw.sorted, hw.acyclic⟩
  rw [marks_enter (by rwa [hw.size])]
  split
  · next h =>
    subst h
    simpa [Walk.enter] using hid
  · exact hw.left i

theorem Inv.leave (hw : Inv slots w) (hlt : id < slots.size) (hid : w.marks[id]? = some .entered)
    (hparts : ∀ j ∈ slots.partsOf id, j ∈ w.order) : Inv slots (w.leave id) := by
  have hnot : id ∉ w.order := fun h => by simp [(hw.left id).mpr h] at hid
  refine ⟨by simp [Walk.leave, hw.size], fun i => ?_, .cons hnot hlt hparts hw.sorted, hw.acyclic⟩
  rw [marks_leave (by rwa [hw.size])]
  show _ ↔ i ∈ id :: w.order
  rw [List.mem_cons]
  split
  · next h => simp [h]
  · next h => rw [hw.left, or_iff_right (Ne.symm h)]

theorem Extends.leave {u : Walk} (h : Extends u (w.enter id)) (hlt : id < w.marks.size)
    (hlt' : id < u.marks.size) (hid : w.marks[id]? = some .unseen) : Extends (u.leave id) w := by
  refine ⟨fun i hi => List.mem_cons_of_mem _ (h.order i hi), fun i => ?_⟩
  rw [marks_leave hlt']
  split
  · next heq =>
    subst heq
    simp [hid]
  · next hne => rw [h.entered, marks_enter hlt, if_neg hne]

/-- Visits of nodes that come behind those that are entered, one after the other. -/
theorem Inv.foldl {f : Walk → Nat → Walk} (hf : ∀ w j, Inv slots w → id < j ∧ j < slots.size →
      (∀ i : Nat, w.marks[i]? = some .entered → i ≤ id) →
      Inv slots (f w j) ∧ Extends (f w j) w ∧ j ∈ (f w j).order)
    {l : List Nat} (hl : ∀ j ∈ l, id < j ∧ j < slots.size) (hw : Inv slots w)
    (hentered : ∀ i : Nat, w.marks[i]? = some .entered → i ≤ id) :
    Inv slots (l.foldl f w) ∧ Extends (l.foldl f w) w ∧ ∀ j ∈ l, j ∈ (l.foldl f w).order := by
  induction l generalizing w with
  | nil => exact ⟨hw, .refl w, nofun⟩
  | cons j l ih =>
    rw [List.forall_mem_cons] at hl ⊢
    obtain ⟨hw₁, hext₁, hmem₁⟩ := hf w j hw hl.1 hentered
    obtain ⟨hw₂, hext₂, hmem₂⟩ :=
      ih hl.2 hw₁ fun i hi => hentered i ((hext₁.entered i).mp hi)
    exact ⟨hw₂, hext₂.trans hext₁, hext₂.order j hmem₁, hmem₂⟩

/-- **A visit leaves the node and what it consists of**, the parts first. Only nodes in front of
it are entered at that time, so none of its parts is. -/
theorem Inv.visit (hslots : slots.IsOrdered) {fuel : Nat} (hw : Inv slots w)
    (hfuel : slots.size < fuel + id) (hid : id < slots.size)
    (hentered : ∀ i : Nat, w.marks[i]? = some .entered → i < id) :
    Inv slots (visit slots fuel w id) ∧ Extends (visit slots fuel w id) w
      ∧ id ∈ (visit slots fuel w id).order := by
  induction fuel generalizing w id with
  | zero => omega
  | succ fuel ih =>
    have hlt : id < w.marks.size := hw.size ▸ hid
    obtain ⟨m, hm⟩ : ∃ m, w.marks[id]? = some m := ⟨_, Array.getElem?_eq_getElem hlt⟩
    rw [visit_succ, hm, Option.getD_some]
    cases m with
    | left => exact ⟨hw, .refl w, (hw.left id).mp hm⟩
    | entered => exact absurd (hentered id hm) (Nat.lt_irrefl id)
    | unseen =>
      have hnot : id ∉ w.order := fun h => by simp [(hw.left id).mpr h] at hm
      have hentered' (i : Nat) (hi : (w.enter id).marks[i]? = some .entered) : i ≤ id := by
        rw [marks_enter hlt] at hi
        split at hi
        · omega
        · exact (hentered i hi).le
      obtain ⟨hu, hext, hparts⟩ := (hw.enter hid hnot).foldl
        (fun v j hv hj hv' => ih hv (by omega) hj.2 fun i hi => Nat.lt_of_le_of_lt (hv' i hi) hj.1)
        (hslots id) hentered'
      have hself := (hext.entered id).mpr (by rw [marks_enter hlt, if_pos rfl])
      exact ⟨hu.leave hid hself hparts, hext.leave hlt (hu.size ▸ hid) hm, List.mem_cons_self⟩

theorem Inv.ofRoot (hslots : slots.IsOrdered) {root : Nat} (hroot : root < slots.size) :
    Inv slots (ofRoot slots root) ∧ root ∈ (ofRoot slots root).order := by
  have hmark (i : Nat) (m : Mark) (h : m ≠ .unseen) :
      (Array.replicate slots.size Mark.unseen)[i]? ≠ some m := by
    rw [Array.getElem?_replicate]
    split
    · simpa using h.symm
    · nofun
  have hw : Inv slots ⟨Array.replicate slots.size .unseen, [], false⟩ :=
    ⟨Array.size_replicate, fun i => ⟨fun h => absurd h (hmark i _ nofun), nofun⟩, .nil, rfl⟩
  obtain ⟨h, -, hmem⟩ := @Inv.visit _ _ root hslots (slots.size + 1) hw (by omega) hroot
    fun i hi => absurd hi (hmark i _ nofun)
  exact ⟨h, hmem⟩

end Walk

/-! ## Values along the order -/

namespace Slot

theorem mem_parts {e : Nat × Nat} {es : List (Nat × Nat)} (he : e ∈ es) :
    e.1 ∈ es.flatMap (fun e => [e.1, e.2]) ∧ e.2 ∈ es.flatMap (fun e => [e.1, e.2]) :=
  ⟨List.mem_flatMap.mpr ⟨e, he, by simp⟩, List.mem_flatMap.mpr ⟨e, he, by simp⟩⟩

theorem entriesOfParts_congr {f f' : Nat → Value} {es : List (Nat × Nat)}
    (h : ∀ e ∈ es, f e.1 = f' e.1 ∧ f e.2 = f' e.2) :
    entriesOfParts f es = entriesOfParts f' es := by
  rw [entriesOfParts, entriesOfParts]
  congr 1
  generalize ([] : List (Nat × Value × Value)) = acc
  induction es generalizing acc with
  | nil => rfl
  | cons e es ih =>
    obtain ⟨he, hes⟩ := List.forall_mem_cons.mp h
    rw [List.foldl_cons, List.foldl_cons, he.1, he.2, ih hes]

/-- The value of a collection depends on the values of its parts only. -/
theorem value_collection_congr {f f' : Nat → Value} {c : Filling}
    (h : ∀ j ∈ c.parts, f j = f' j) :
    (Slot.collection c).value f = (Slot.collection c).value f' := by
  cases c with
  | list ids => exact congrArg Value.list (List.map_congr_left h)
  | pairs es =>
    have hparts (e) (he : e ∈ es) :
        Value.tuple [f e.1, f e.2] = .tuple [f' e.1, f' e.2] := by
      rw [h _ (mem_parts he).1, h _ (mem_parts he).2]
    exact congrArg Value.list (List.map_congr_left hparts)
  | set es =>
    simp only [value, entriesOfParts_congr fun e he => ⟨h _ (mem_parts he).1, h _ (mem_parts he).2⟩]
  | mapping es =>
    simp only [value, entriesOfParts_congr fun e he => ⟨h _ (mem_parts he).1, h _ (mem_parts he).2⟩]

end Slot

namespace Slots

variable {slots : Slots} {order : List Nat}

theorem value_congr {f f' : Nat → Value} {i : Nat} (h : ∀ j ∈ slots.partsOf i, f j = f' j) :
    (slots[i]?.getD .unknown).value f = (slots[i]?.getD .unknown).value f' := by
  rw [partsOf] at h
  cases hi : slots[i]? with
  | none => rfl
  | some slot =>
    cases slot with
    | unknown => rfl
    | scalar v => rfl
    | collection c =>
      rw [hi] at h
      exact Slot.value_collection_congr h

/-- Along a sorted list each value is the one that its slot asks for, also in the end. -/
theorem combine_sorted (h : slots.IsSorted order) {values : Array Value}
    (hsize : values.size = slots.size) :
    (slots.combine order.reverse values).size = slots.size
      ∧ ∀ i ∈ order, (slots.combine order.reverse values)[i]?.getD .null
        = (slots[i]?.getD .unknown).value fun p =>
            (slots.combine order.reverse values)[p]?.getD .null := by
  induction h with
  | nil => exact ⟨hsize, nofun⟩
  | @cons i order hi hlt hparts h ih =>
    obtain ⟨ihsize, ih⟩ := ih
    have hstep : slots.combine (i :: order).reverse values
        = (slots.combine order.reverse values).setIfInBounds i
          ((slots[i]?.getD .unknown).value fun p =>
            (slots.combine order.reverse values)[p]?.getD .null) := by
      rw [List.reverse_cons, combine, List.foldl_append]
      rfl
    rw [hstep]
    set vs := slots.combine order.reverse values
    have hother (j : Nat) (hj : j ∈ order) (v : Value) : (vs.setIfInBounds i v)[j]? = vs[j]? := by
      rw [Array.getElem?_setIfInBounds, if_neg (by rintro rfl; exact hi hj)]
    refine ⟨by rw [Array.size_setIfInBounds, ihsize], List.forall_mem_cons.mpr ⟨?_, ?_⟩⟩
    · rw [Array.getElem?_setIfInBounds, if_pos rfl, if_pos (ihsize ▸ hlt), Option.getD_some]
      exact value_congr fun p hp => by rw [hother p (hparts p hp)]
    · intro j hj
      rw [hother j hj, ih j hj]
      exact value_congr fun p hp => by rw [hother p (h.parts_mem hj hp)]

/-- The nodes `P`, each with its parts, have the values `V` that their slots ask for. -/
def HasValues (slots : Slots) (V : Nat → Value) (P : Nat → Prop) : Prop :=
  ∀ i, P i → V i = (slots[i]?.getD .unknown).value V ∧ ∀ j ∈ slots.partsOf i, P j

/-- **The value of the root is put together from the values of its parts**, and so are those. -/
theorem exists_valueOf (hslots : slots.IsOrdered) {root : Nat} (hroot : root < slots.size) :
    ∃ V P, slots.valueOf root = V root ∧ P root ∧ slots.HasValues V P := by
  obtain ⟨hw, hmem⟩ := Walk.Inv.ofRoot hslots hroot
  obtain ⟨-, hvalues⟩ := @combine_sorted _ _ hw.sorted (slots.map Slot.stub) Array.size_map
  refine ⟨_, (· ∈ (Walk.ofRoot slots root).order), ?_, hmem,
    fun i hi => ⟨hvalues i hi, fun j => hw.sorted.parts_mem hi⟩⟩
  rw [valueOf]
  simp only [hw.acyclic]
  rfl

end Slots

end ThreatTree.Yaml
