import ThreatTree.Proofs.Document.Declaration
import ThreatTree.Proofs.Value.Literal

/-!
# Which values are refused, and where

The reader of documents goes through the parts of a value in their order and stops at the first one
that is not as it should be (`Checks`). There is one lemma for each of its functions, and reading
one thing after the other checks the parts of the one and then those of the other (`Checks.bind`).

The main statement, `ofValue_outcome`, says for every value that it is read exactly if it has the
shape of a document, and that else the path of the first faulty part is reported.
-/

namespace ThreatTree

open Value (Entries)

open Shape

/-! ## Checks -/

/-- What a reader gives that checks parts one after the other: something with a property, and then
all of the parts are as they should be, or else the path of the first that is not. Where numbers are
short, there is always such a path. -/
inductive Checks (short : Prop) (parts : List Part) {α : Type} (post : α → Prop) :
    Except Refusal α → Prop
  | ok {a : α} : (∀ p ∈ parts, p.fits) → post a → Checks short parts post (.ok a)
  | malformed {m : Malformed} : IsFirstFault parts m.path →
      Checks short parts post (.error (.malformed m))
  | unwritable : ¬ short → (∃ p ∈ parts, ¬ p.fits) → Checks short parts post (.error .unwritable)

namespace Checks

variable {short : Prop} {α β : Type} {post : α → Prop} {parts more : List Part}

theorem fault {part : Part} {path : Path} (problem : Problem) (hpart : ¬ part.fits)
    (hpath : part.path = path) : Checks short (part :: more) post (Refusal.throwAt path problem) :=
  .malformed ⟨[], part, more, rfl, by simp, hpart, hpath⟩

theorem single {part : Part} {a : α} (hpart : part.fits) (ha : post a) :
    Checks short [part] post (.ok a) :=
  .ok (List.forall_mem_singleton.2 hpart) ha

theorem append_left {r : Except Refusal α} (hparts : ∀ p ∈ parts, p.fits)
    (h : Checks short more post r) : Checks short (parts ++ more) post r := by
  cases h with
  | ok hmore hpost => exact .ok (List.forall_mem_append.2 ⟨hparts, hmore⟩) hpost
  | malformed hfault => exact .malformed (hfault.append_left hparts)
  | unwritable hshort hfault =>
    obtain ⟨p, hp, hfits⟩ := hfault
    exact .unwritable hshort ⟨p, List.mem_append_right _ hp, hfits⟩

theorem cons {part : Part} {r : Except Refusal α} (hpart : part.fits)
    (h : Checks short parts post r) : Checks short (part :: parts) post r :=
  append_left (List.forall_mem_singleton.2 hpart) h

/-- What is read first is checked first. -/
theorem bind {post' : β → Prop} {r : Except Refusal α} {f : α → Except Refusal β}
    (hr : Checks short parts post r) (hf : ∀ a, post a → Checks short more post' (f a)) :
    Checks short (parts ++ more) post' (r >>= f) := by
  cases hr with
  | ok hparts hpost => exact append_left hparts (hf _ hpost)
  | malformed hfault => exact .malformed (hfault.append_right more)
  | unwritable hshort hfault =>
    obtain ⟨p, hp, hfits⟩ := hfault
    exact .unwritable hshort ⟨p, List.mem_append_left _ hp, hfits⟩

theorem bind_pure {post' : β → Prop} {r : Except Refusal α} {f : α → β}
    (hr : Checks short parts post r) (hf : ∀ a, post a → post' (f a)) :
    Checks short parts post' (r >>= fun a => pure (f a)) := by
  rw [← List.append_nil parts]
  exact hr.bind fun a ha => .ok (by simp) (hf a ha)

theorem mono {short' : Prop} {post' : α → Prop} {r : Except Refusal α}
    (hshort : short' → short) (hpost : ∀ a, post a → post' a) (h : Checks short parts post r) :
    Checks short' parts post' r := by
  cases h with
  | ok hparts ha => exact .ok hparts (hpost _ ha)
  | malformed hfault => exact .malformed hfault
  | unwritable hnot hfault => exact .unwritable (fun h => hnot (hshort h)) hfault

/-- The items of a list are checked one after the other. -/
theorem readItems {path : Path} {itemParts : Path → Value → List Part}
    {read : Path → Value → Except Refusal α} {post : Value → α → Prop} {items : List Value}
    (h : ∀ path, ∀ v ∈ items, Checks short (itemParts path v) (post v) (read path v)) :
    Checks short (Shape.itemParts path itemParts items) (List.Forall₂ post items)
      (readItems path read 0 items) := by
  unfold Shape.itemParts
  generalize 0 = i
  induction items generalizing i with
  | nil => exact .ok (by simp) .nil
  | cons v items ih =>
    rw [List.zipIdx_cons, List.flatMap_cons, ThreatTree.readItems]
    refine (h _ v List.mem_cons_self).bind fun a ha => ?_
    exact (ih (fun path v hv => h path v (List.mem_cons_of_mem _ hv)) (i + 1)).bind_pure
      fun as has => .cons ha has

end Checks

section Readers

variable {short : Prop} {path : Path}

/-! ## References -/

theorem checks_reference (v : Value) :
    Checks short (referenceParts path v) (·.IsOf v) (Reference.ofValue path v) := by
  have hfault (problem : Problem) (h : ∀ id, ¬ RefersTo v id) :
      Checks short (referenceParts path v) (fun r : Reference => r.IsOf v)
        (Refusal.throwAt path problem) :=
    .fault problem (not_exists.2 h) rfl
  have hok (r : Reference) (h : r.IsOf v) :
      Checks short (referenceParts path v) (fun r : Reference => r.IsOf v) (.ok r) :=
    .single ⟨_, h.refersTo⟩ h
  unfold Reference.ofValue
  split
  · exact hok _ (Reference.isOf_id _)
  · split
    · split
      · exact hok _ (Reference.isOf_unlabelled _)
      · exact hok _ (Reference.isOf_labelled _ _)
      · next hnull htext =>
        refine hfault _ fun id hid => ?_
        cases hid with
        | unlabelled => exact hnull rfl
        | labelled => exact htext _ rfl
    · next htext =>
      refine hfault _ fun id hid => ?_
      cases hid <;> exact htext _ rfl
  · next htext hsingle =>
    refine hfault _ fun id hid => ?_
    cases hid with
    | id => exact htext _ rfl
    | unlabelled => exact hsingle _ _ rfl
    | labelled => exact hsingle _ _ rfl

theorem referTo_of_forall₂ {items : List Value} {refs : List Reference}
    (h : List.Forall₂ (fun v r => r.IsOf v) items refs) :
    ReferTo items (refs.map (·.source)) := by
  induction h with
  | nil => exact .nil
  | cons hr _ ih => exact .cons hr.refersTo ih

/-- The references under `from`, and the labels that they give. -/
structure AreUnder (refs : List Reference) (v : Option Value) : Prop where
  lists : Lists v (refs.map (·.source))
  lookup_iff : ∀ id label, (Reference.edgeLabels refs).lookup id = some label
    ↔ FirstLabels (itemsOf v) id label

theorem AreUnder.of_itemsOf_eq_nil {refs : List Reference} {v : Option Value}
    (hlists : Lists v (refs.map (·.source))) (hlabels : Reference.edgeLabels refs = [])
    (hitems : itemsOf v = []) : AreUnder refs v :=
  ⟨hlists, fun id label => by rw [hlabels, hitems]; simp [not_firstLabels_nil]⟩

theorem checks_readReferences (v : Option Value) :
    Checks short (predecessorParts path v) (AreUnder · v) (readReferences path v) := by
  unfold readReferences
  split
  · exact .ok (forall_predecessorParts .missing) (.of_itemsOf_eq_nil .missing rfl rfl)
  · exact .ok (forall_predecessorParts .null) (.of_itemsOf_eq_nil .null rfl rfl)
  · next id =>
    exact .ok (forall_predecessorParts (.single id)) (.of_itemsOf_eq_nil (.single id) rfl rfl)
  · next items =>
    refine .cons (.inr ⟨items, rfl⟩) ?_
    refine (Checks.readItems fun path v _ => checks_reference v).mono id fun refs hrefs => ?_
    exact ⟨.list (referTo_of_forall₂ hrefs), Reference.lookup_edgeLabels hrefs⟩
  · next v hnull htext hlist =>
    refine .fault _ (mt (optionally_some_iff fun h => hnull (h ▸ rfl)).1 ?_) rfl
    rintro (⟨s, rfl⟩ | ⟨items, rfl⟩)
    · exact htext s rfl
    · exact hlist items rfl

/-! ## Backward edges -/

theorem mapM_textOf?_eq_some_iff {items : List Value} {ids : List String} :
    items.mapM textOf? = some ids ↔ items = ids.map .str := by
  induction items generalizing ids with
  | nil => cases ids <;> simp
  | cons v items ih =>
    rw [List.mapM_cons]
    cases ids with
    | nil => cases v <;> simp [textOf?, Option.bind_eq_some_iff]
    | cons id ids => cases v <;> simp [textOf?, ih, Option.bind_eq_some_iff, and_comm]

theorem reverses_list {preds : List String} {items : List Value}
    (h : Reverses preds (some (.list items))) :
    ∃ ids : List String, items = ids.map .str ∧ ∀ id ∈ ids, id ∈ preds := by
  cases h with
  | list h => exact ⟨_, rfl, h⟩

/-- The edges that run backwards, where `from` lists the given predecessors. -/
structure AreReversed (preds : List String) (v : Option Value) (ids : List String) : Prop where
  nodup : ids.Nodup
  mem : ∀ id ∈ ids, id ∈ preds
  all : v = some (.bool true) → ids = distinct preds

theorem areReversed_nil {preds : List String} {v : Option Value} (h : v ≠ some (.bool true)) :
    AreReversed preds v [] :=
  ⟨List.nodup_nil, by simp, fun hall => absurd hall h⟩

theorem checks_readListed {v : Option Value} {preds ids : List String} (hv : v ≠ some (.bool true))
    (h : Reverses preds v ↔ ∀ id ∈ ids, id ∈ preds) :
    Checks short [⟨path, Reverses preds v⟩] (AreReversed preds v) (readListed path preds ids) := by
  unfold readListed
  split
  · next id hfound =>
    refine .fault _ (fun hreverses => ?_) rfl
    have hid := h.1 hreverses id (List.mem_of_find?_eq_some hfound)
    exact absurd (List.find?_some hfound) (by simpa using hid)
  · next hnone =>
    have hlisted (id : String) (hid : id ∈ ids) : id ∈ preds := by
      simpa using List.find?_eq_none.1 hnone id hid
    refine .single (h.2 hlisted) ⟨nodup_distinct ids, ?_, fun hall => absurd hall hv⟩
    exact fun id hid => hlisted id (mem_distinct.1 hid)

theorem checks_readBackwards (preds : List String) (v : Option Value) :
    Checks short [⟨path, Reverses preds v⟩] (AreReversed preds v)
      (readBackwards path preds v) := by
  have hfault (problem : Problem) (h : ¬ Reverses preds v) :
      Checks short [⟨path, Reverses preds v⟩] (AreReversed preds v)
        (Refusal.throwAt path problem) := .fault problem h rfl
  unfold readBackwards
  split
  · exact .single .missing (areReversed_nil (by simp))
  · exact .single .null (areReversed_nil (by simp))
  · exact .single (.truth false) (areReversed_nil (by simp))
  · exact .single (.truth true) ⟨nodup_distinct preds, fun _ => mem_distinct.1, fun _ => rfl⟩
  · next id =>
    refine checks_readListed (by simp) ⟨fun h => ?_, fun h => .single (h id (by simp))⟩
    cases h with
    | single hid => simpa using hid
  · next items =>
    split
    · next ids hids =>
      obtain rfl := mapM_textOf?_eq_some_iff.1 hids
      refine checks_readListed (by simp) ⟨fun h => ?_, .list⟩
      obtain ⟨ids', hids', hlisted⟩ := reverses_list h
      obtain rfl := (List.map_inj_right fun _ _ => Value.str.inj).1 hids'
      exact hlisted
    · next hnone =>
      refine hfault _ fun h => ?_
      obtain ⟨ids, hids, -⟩ := reverses_list h
      rw [mapM_textOf?_eq_some_iff.2 hids] at hnone
      cases hnone
  · next v hnull hfalse htrue htext hlist =>
    refine hfault _ fun h => ?_
    cases h with
    | null => exact hnull rfl
    | truth b => cases b <;> contradiction
    | single => exact htext _ rfl
    | list => exact hlist _ rfl

/-! ## Heads of entries -/

/-- If a message shows something that has no text, numbers are not short. -/
theorem checks_orUnwritable {α : Type} {part : Part} {shown : Option α} {f : α → Problem}
    {β : Type} {post : β → Prop} (hshown : short → ∃ a, shown = some a) (hpart : ¬ part.fits)
    (hpath : part.path = path) : Checks short [part] post
      (Refusal.orUnwritable shown >>= fun a => Refusal.throwAt path (f a)) := by
  cases shown with
  | none => exact .unwritable (fun h => by simpa using hshown h) ⟨part, by simp, hpart⟩
  | some a => exact .fault _ hpart hpath

theorem exists_mapM_text? {entries : Entries} (h : ∀ e ∈ entries, e.1.isShort = true) :
    ∃ ts, entries.mapM (fun e => e.1.text?) = some ts := by
  induction entries with
  | nil => exact ⟨[], rfl⟩
  | cons e entries ih =>
    obtain ⟨hhead, htail⟩ := List.forall_mem_cons.1 h
    obtain ⟨t, ht⟩ := Value.exists_text? hhead
    obtain ⟨ts, hts⟩ := ih htail
    exact ⟨t :: ts, by rw [List.mapM_cons, ht, hts]; rfl⟩

theorem checks_readId (entries : Entries) :
    Checks (∀ e ∈ entries, e.1.isShort = true)
      [⟨path, ∃ (id : String) (value : Value), ownEntries (.mapping entries) = [(.str id, value)]⟩]
      (fun e => ownEntries (.mapping entries) = [(.str e.1, e.2)]) (readId path entries) := by
  have hown : ownEntries (.mapping entries) = entries.filter fun e => !isReserved e.1 := rfl
  have hmem {e : Value × Value} (he : e ∈ ownEntries (.mapping entries)) : e ∈ entries :=
    (List.mem_filter.1 he).1
  unfold readId
  rw [← hown]
  split
  · next hnone => exact .fault _ (by simp [hnone]) rfl
  · next key value hone =>
    split
    · next id => exact .single ⟨id, value, hone⟩ hone
    · next htext =>
      refine checks_orUnwritable (fun hshort => Value.exists_literal? key ?_) ?_ rfl
      · exact hshort (key, value) (hmem (by simp [hone]))
      · rintro ⟨id, v, heq⟩
        rw [hone] at heq
        cases heq
        exact htext id rfl
  · next several hnone hone =>
    have hshown (hshort : ∀ e ∈ entries, e.1.isShort = true) :=
      exists_mapM_text? fun e he => hshort e (hmem he)
    refine checks_orUnwritable hshown ?_ rfl
    rintro ⟨id, v, heq⟩
    exact hone _ _ heq

/-- A reserved key is read wherever it stands, unless it is given twice. -/
theorem checks_readReserved (key : Reserved) (record siblings : Entries) :
    Checks short [⟨path, OnlyOnce key record siblings⟩] (· = underKey key record siblings)
      (readReserved path key record siblings) := by
  unfold readReserved underKey
  split
  · next hrecord hsiblings => exact .fault _ (by simp [OnlyOnce, hrecord, hsiblings]) rfl
  · next hrecord hsiblings =>
    exact .single (.inr hsiblings) (by simp [hrecord])
  · next hrecord => exact .single (.inl hrecord) (by simp [hrecord])

/-- What is known of an entry that was read. -/
structure Entry.IsOf (e : Entry) (v : Value) : Prop where
  ownEntries_eq : ∃ value, ownEntries v = [(.str e.id, value)]
  predecessors_eq : e.predecessors = underKey .predecessors (recordOf v) (entriesOf v)
  backwards_eq : e.backwards = underKey .backwards (recordOf v) (entriesOf v)

theorem Entry.IsOf.of_ownEntries {e : Entry} {v value : Value}
    (h : ownEntries v = [(.str e.id, value)])
    (hpredecessors : e.predecessors = underKey .predecessors (entriesOf value) (entriesOf v))
    (hbackwards : e.backwards = underKey .backwards (entriesOf value) (entriesOf v)) :
    e.IsOf v := by
  refine ⟨⟨value, h⟩, ?_, ?_⟩
  · rw [recordOf_eq h, hpredecessors]
  · rw [recordOf_eq h, hbackwards]

/-- In a record, the label is checked first, and then the reserved keys. -/
theorem checks_record {entries record : Entries} {id : String}
    (hown : ownEntries (.mapping entries) = [(.str id, .mapping record)]) :
    Checks short
      [⟨path, HasLabel (.mapping record)⟩,
        ⟨path ++ [.field "label"], Optionally IsText (Entries.get? "label" record)⟩,
        ⟨path, OnlyOnce .predecessors record entries⟩,
        ⟨path, OnlyOnce .backwards record entries⟩] (·.IsOf (.mapping entries))
      (match Entries.get? "label" record with
        | none | some .null => Refusal.throwAt path .missingLabel
        | some (.str label) => do
          let predecessors ← readReserved path .predecessors record entries
          let backwards ← readReserved path .backwards record entries
          return Entry.mk id label predecessors backwards
        | some _ => Refusal.throwAt (path ++ [.field "label"]) .notText) := by
  split
  · next hnone => exact .fault _ (by simp [hasLabel_mapping_iff, hnone]) rfl
  · next hnull => exact .fault _ (by simp [hasLabel_mapping_iff, hnull]) rfl
  · next label hlabel =>
    refine .cons (hasLabel_mapping_iff.2 ⟨_, hlabel, by simp⟩) (.cons ?_ ?_)
    · rw [hlabel]
      exact ⟨label, rfl⟩
    · refine (checks_readReserved .predecessors record entries).bind fun preds hpreds => ?_
      refine (checks_readReserved .backwards record entries).bind_pure fun backs hbacks => ?_
      exact .of_ownEntries hown hpreds hbacks
  · next label hnull htext hlabel =>
    have hsome : label ≠ .null := fun h => hnull (h ▸ rfl)
    refine .cons (hasLabel_mapping_iff.2 ⟨label, hlabel, hsome⟩) (.fault _ ?_ rfl)
    rw [hlabel, optionally_some_iff hsome]
    rintro ⟨s, rfl⟩
    exact htext s rfl

theorem checks_readEntry (v : Value) :
    Checks (v.isShort = true) (headParts path v) (·.IsOf v) (readEntry path v) := by
  unfold readEntry
  split
  · next entries =>
    have hid : Checks ((Value.mapping entries).isShort = true) _ _ (readId path entries) :=
      (checks_readId entries).mono
        (fun hshort e he => (Value.entriesAreShort_iff.1 hshort e he).1) fun _ hown => hown
    refine .cons ⟨entries, rfl⟩ (hid.bind fun e hown => ?_)
    obtain ⟨id, value⟩ := e
    rw [hown, List.forall_mem_singleton, recordOf_eq hown]
    dsimp only
    split
    · next label =>
      refine .cons (.inl ⟨label, rfl⟩) (.cons trivial (.cons (.inl rfl) (.cons (.inl rfl) ?_)))
      exact .ok (by simp) (.of_ownEntries hown rfl rfl)
    · next record => exact checks_record hown
    · exact .fault _ (by simp [HasLabel, IsText]) rfl
    · next htext hmapping hnull =>
      refine .fault _ ?_ rfl
      rintro (⟨label, rfl⟩ | ⟨record, label, rfl, -⟩)
      · exact htext label rfl
      · exact hmapping record rfl
  · next hmapping => exact .fault _ (not_exists.2 hmapping) rfl

/-! ## Entries -/

theorem checks_ofEntry (category : Category) {v : Value} {e : Entry} (he : e.IsOf v) :
    Checks short (bodyParts path v) (Declares v category) (Node.ofEntry category path e) := by
  have hpredecessors : e.predecessors = predecessorsOf v := he.predecessors_eq
  have hbackwards : e.backwards = backwardsOf v := he.backwards_eq
  unfold bodyParts Node.ofEntry
  obtain ⟨value, hown⟩ := he.ownEntries_eq
  rw [← he.predecessors_eq, ← he.backwards_eq]
  refine (checks_readReferences e.predecessors).bind fun refs hrefs => ?_
  have hreverses : (∃ ids, Lists e.predecessors ids ∧ Reverses ids e.backwards)
      = Reverses (refs.map (·.source)) e.backwards := by
    refine propext ⟨?_, fun h => ⟨_, hrefs.lists, h⟩⟩
    rintro ⟨ids, hids, h⟩
    rwa [Lists.unique hids hrefs.lists] at h
  rw [hreverses]
  refine (checks_readBackwards (refs.map (·.source)) e.backwards).bind fun ids hids => ?_
  split
  · next hblank =>
    refine .single ⟨value, e.id, hown, hblank⟩ ?_
    constructor
    case category_eq => rfl
    case hasId => exact ⟨value, hown, hblank⟩
    case lists => exact hpredecessors ▸ hrefs.lists
    case nodup_labelled => exact Reference.nodup_edgeLabels refs
    case labelled_mem => exact fun _ => Reference.mem_edgeLabels
    case edgeLabel_iff => exact hpredecessors ▸ hrefs.lookup_iff
    case nodup_backwards => exact hids.nodup
    case backwards_mem => exact hids.mem
    case all_backwards =>
      intro hall
      obtain rfl : ids = distinct (refs.map (·.source)) := hids.all (hbackwards.trans hall)
      exact ⟨fun _ => mem_distinct.2, pairwise_idxOf_distinct _⟩
  · next hblank =>
    refine .fault _ ?_ rfl
    rintro ⟨value', id, hown', hnot⟩
    obtain ⟨rfl, -⟩ : e.id = id ∧ value = value' := by simpa using hown.symm.trans hown'
    exact hblank hnot

theorem checks_node (category : Category) (v : Value) :
    Checks (v.isShort = true) (entryParts path v) (Declares v category)
      (Node.ofValue category path v) :=
  (checks_readEntry v).bind fun _ he => checks_ofEntry category he

/-! ## Documents -/

theorem checks_readText (name : String) (entries : Entries) :
    Checks short [⟨[.field name], Optionally IsText (Entries.get? name entries)⟩] (fun _ => True)
      (Document.readText name entries) := by
  unfold Document.readText
  split
  · next hnone => exact .single (by rw [hnone]; trivial) trivial
  · next hnull => exact .single (by rw [hnull]; trivial) trivial
  · next s hs => exact .single (by rw [hs]; exact ⟨s, rfl⟩) trivial
  · next v hnull htext hv =>
    refine .fault _ ?_ rfl
    rw [hv, optionally_some_iff fun h => hnull (h ▸ rfl)]
    rintro ⟨s, rfl⟩
    exact htext s rfl

/-- The nodes are those of the entries in the section of a category. -/
def AreListed (entries : Entries) (category : Category) (nodes : List Node) : Prop :=
  List.Forall₂ (Declares · category) (itemsOf (Entries.get? category.sectionName entries)) nodes

theorem checks_readSection (category : Category) (entries : Entries) :
    Checks ((Value.mapping entries).isShort = true) (sectionParts entries category)
      (AreListed entries category) (Document.readSection category entries) := by
  unfold Document.readSection sectionParts AreListed
  dsimp only
  split
  · next hnone =>
    rw [hnone]
    exact .ok (by simp [Optionally, itemParts, itemsOf]) .nil
  · next hnull =>
    rw [hnull]
    exact .ok (by simp [Optionally, itemParts, itemsOf]) .nil
  · next items hitems =>
    rw [hitems]
    have hitem (path : Path) (v : Value) (hv : v ∈ items) :
        Checks ((Value.mapping entries).isShort = true) (entryParts path v) (Declares v category)
          (Node.ofValue category path v) := by
      refine (checks_node category v).mono (fun hshort => ?_) fun _ h => h
      exact Value.areShort_iff.1 (Value.isShort_of_get? hshort hitems) v hv
    exact .cons ⟨items, rfl⟩ (Checks.readItems hitem)
  · next v hnull hlist hv =>
    refine .fault _ ?_ rfl
    rw [hv, optionally_some_iff fun h => hnull (h ▸ rfl)]
    rintro ⟨items, rfl⟩
    exact hlist items rfl

theorem checks_document (v : Value) :
    Checks (v.isShort = true) (documentParts v)
      (fun d => ∀ category, AreListed (entriesOf v) category (d.listed category))
      (Document.ofValue v) := by
  unfold Document.ofValue
  split
  · next entries =>
    simp only [documentParts, entriesOf, Category.all, List.flatMap_cons, List.flatMap_nil,
      List.cons_append, List.nil_append]
    refine .cons ⟨entries, rfl⟩ ?_
    refine (checks_readText "title" entries).bind fun title _ => ?_
    refine (checks_readText "theme" entries).bind fun theme _ => ?_
    refine (checks_readSection .fact entries).bind fun facts hfacts => ?_
    refine (checks_readSection .attack entries).bind fun attacks hattacks => ?_
    refine (checks_readSection .mitigation entries).bind fun mitigations hmitigations => ?_
    refine (checks_readSection .goal entries).bind fun goals hgoals => ?_
    refine .ok (by simp) fun category => ?_
    cases category with
    | fact => exact hfacts
    | attack => exact hattacks
    | mitigation => exact hmitigations
    | goal => exact hgoals
  · next hmapping => exact .fault _ (not_exists.2 hmapping) rfl

end Readers

/-- **Which values are read as documents.** A value is read exactly if it has the shape of a
document. Else, if its numbers are short enough to be shown, it is refused with the path to the
first of its parts that is not as it should be. -/
theorem Document.ofValue_outcome (v : Value) :
    ((∃ d, ofValue v = .ok d) ↔ IsDocument v)
    ∧ (v.isShort = true → ¬ IsDocument v →
        ∃ m, ofValue v = .error (.malformed m) ∧ IsFirstFault (documentParts v) m.path) := by
  rw [isDocument_iff]
  have hchecks := checks_document v
  generalize ofValue v = r at hchecks
  cases hchecks with
  | ok hparts => exact ⟨iff_of_true ⟨_, rfl⟩ hparts, fun _ hnot => absurd hparts hnot⟩
  | malformed hfault =>
    obtain ⟨p, hp, hfits⟩ := hfault.not_fits
    exact ⟨iff_of_false (by simp) fun h => hfits (h p hp), fun _ _ => ⟨_, rfl, hfault⟩⟩
  | unwritable hlong hfault =>
    obtain ⟨p, hp, hfits⟩ := hfault
    exact ⟨iff_of_false (by simp) fun h => hfits (h p hp), fun hshort => absurd hshort hlong⟩

/-- A value with faults in three entries. The section that comes first in the mapping is not the
first one of a document. -/
def Value.misshapen : Value := .mapping
  [(.str "goals", .list [.mapping [(.int 7, .str "G")]]),
    (.str "facts", .list [.mapping [(.str "a", .str "A"), (.str "backwards", .bool true)],
      .mapping [(.str " ", .mapping [(.str "label", .str "B"), (.str "backwards", .str "x")]),
        (.str "from", .list [.str "a", .mapping [(.str "a", .int 1)]])]])]

theorem Document.ofValue_misshapen : ∃ m, ofValue .misshapen = .error (.malformed m)
    ∧ IsFirstFault (documentParts .misshapen) m.path ∧ m.path.text = "facts[1].from[1]" := by
  have hrefused : ofValue .misshapen = .error (.malformed
      ⟨[.field "facts", .item 1, .field "from", .item 1], .edgeLabelNotText⟩) := by decide
  have hshape : ¬ IsDocument .misshapen := by
    rw [← (ofValue_outcome .misshapen).1, hrefused]
    simp
  obtain ⟨m, hm, hfirst⟩ := (ofValue_outcome .misshapen).2 (by decide +kernel) hshape
  obtain rfl := Refusal.malformed.inj (Except.error.inj (hrefused.symm.trans hm))
  exact ⟨_, hrefused, hfirst, by decide⟩

end ThreatTree
