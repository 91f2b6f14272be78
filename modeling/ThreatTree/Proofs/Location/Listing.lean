import ThreatTree.Document.OfValue
import ThreatTree.Proofs.Location.Entry

/-!
# Which list a reference is found in

An entry can have two lists, that of its predecessors and that of the edges that are drawn
backwards, and a predecessor can stand in both. The search goes through the lists in their order
and takes the first item with the id (`firstReference?_lists`), whatever key the list stands under.

The main statement, `build_blockLists`, says for the outline of a conventional document which list
that is: the list of predecessors, unless the entry has its backward edges first and the predecessor
is among them.
-/

namespace ThreatTree.Location

open Outline

/-! ## Lists in a text -/

/-- The line is an item of a list in an entry. -/
def isListItem (line : List Char) : Bool := "  - ".toList.isPrefixOf line

/-- The lines behind line `first`, up to line `i`. -/
def linesUpTo (lines : List (List Char)) (first i : Nat) : List (List Char) :=
  (lines.take (i + 1)).drop (first + 1)

/-- Line `i` is an item of the list under the key, in the entry that starts at line `first`: all
lines of the entry up to it are indented, and the last of them that is no item has the key. -/
structure IsItemUnder (lines : List (List Char)) (first : Nat) (key : Reserved) (i : Nat) :
    Prop where
  indented : ∀ line ∈ linesUpTo lines first i, line.head? = some ' '
  isItem : (lines[i]?).any isListItem = true
  start_eq : ((linesUpTo lines first i).filter (!isListItem ·)).getLast? = some (listStart key)

instance (lines : List (List Char)) (first : Nat) (key : Reserved) (i : Nat) :
    Decidable (IsItemUnder lines first key i) :=
  decidable_of_iff ((∀ line ∈ linesUpTo lines first i, line.head? = some ' ')
      ∧ (lines[i]?).any isListItem = true
      ∧ ((linesUpTo lines first i).filter (!isListItem ·)).getLast? = some (listStart key))
    ⟨fun h => ⟨h.1, h.2.1, h.2.2⟩, fun h => ⟨h.1, h.2, h.3⟩⟩

variable {lines : List (List Char)} {first i : Nat} {key key' : Reserved}

theorem listStart_inj (h : listStart key = listStart key') : key = key' := by
  cases key <;> cases key' <;> first | rfl | exact absurd h (by decide)

/-- A line is an item of one list. -/
theorem IsItemUnder.iff_eq (h : IsItemUnder lines first key i) :
    IsItemUnder lines first key' i ↔ key = key' := by
  constructor
  · intro h'
    exact listStart_inj (Option.some.inj (h.start_eq.symm.trans h'.start_eq))
  · rintro rfl
    exact h

theorem linesUpTo_append (front rest : List (List Char)) (header : List Char) (k : Nat) :
    linesUpTo (front ++ header :: rest) front.length (front.length + k) = rest.take k := by
  have hdrop : (front ++ header :: rest).drop (front.length + 1) = rest := by
    rw [← List.drop_drop, List.drop_left, List.drop_one, List.tail_cons]
  rw [linesUpTo, List.drop_take, hdrop]
  congr 1
  omega

/-- An item of a list that stands behind other lists. -/
theorem isItemUnder_of_eq {front ahead behind : List (List Char)} {header : List Char}
    {ids : List String} {t : Nat}
    (hlines : lines = front ++ header :: (ahead ++ (Listing.lines ids ⟨key, .block⟩ ++ behind)))
    (hahead : ∀ line ∈ ahead, line.head? = some ' ') (ht : t < ids.length) :
    IsItemUnder lines front.length key (front.length + 1 + ahead.length + 1 + t) := by
  have hi : front.length + 1 + ahead.length + 1 + t = front.length + (ahead.length + (t + 2)) := by
    omega
  rw [hi]
  have hupTo : linesUpTo lines front.length (front.length + (ahead.length + (t + 2)))
      = ahead ++ listStart key ::
        (ids.take (t + 1)).map fun id => ' ' :: ' ' :: '-' :: ' ' :: id.toList := by
    rw [hlines, linesUpTo_append, List.take_length_add_append, lines_block, List.cons_append,
      List.take_succ_cons, List.take_append_of_le_length (by rwa [List.length_map]), List.map_take]
  constructor
  case indented =>
    intro line hline
    rw [hupTo, List.mem_append, List.mem_cons, List.mem_map] at hline
    rcases hline with hline | rfl | ⟨id, -, rfl⟩
    · exact hahead line hline
    · rfl
    · rfl
  case isItem =>
    have hget : lines[front.length + (ahead.length + (t + 2))]?
        = some (' ' :: ' ' :: '-' :: ' ' :: ids[t].toList) := by
      rw [hlines, List.getElem?_append_right (Nat.le_add_right _ _), Nat.add_sub_cancel_left,
        ← Nat.add_assoc, List.getElem?_cons_succ, Nat.add_assoc,
        List.getElem?_append_right (Nat.le_add_right _ _), Nat.add_sub_cancel_left, lines_block,
        List.cons_append, List.getElem?_cons_succ,
        List.getElem?_append_left (by rwa [List.length_map]), List.getElem?_map,
        List.getElem?_eq_getElem ht]
      rfl
    rw [hget]
    rfl
  case start_eq =>
    have hstart : isListItem (listStart key) = false := by cases key <;> decide
    have hitems : ((ids.take (t + 1)).map fun id => ' ' :: ' ' :: '-' :: ' ' :: id.toList).filter
        (!isListItem ·) = [] := by
      refine List.filter_eq_nil_iff.2 fun line hline => ?_
      obtain ⟨id, -, rfl⟩ := List.mem_map.1 hline
      simp [isListItem]
    rw [hupTo, List.filter_append, List.filter_cons_of_pos (by simp [hstart]), hitems,
      List.getLast?_concat]

/-! ## The lists of an entry -/

/-- A node has a list over several lines under each of its keys. -/
def blockLists (keys : Node → List Reserved) (n : Node) : List Listing :=
  (keys n).map (⟨·, .block⟩)

/-- The lines of the lists of a node under some keys. -/
def keyedLines (n : Node) (ks : List Reserved) : List (List Char) :=
  ks.flatMap fun key => Listing.lines (idsUnder n key) ⟨key, .block⟩

theorem bodyLines_blockLists (keys : Node → List Reserved) (n : Node) :
    bodyLines (blockLists keys) n = keyedLines n (keys n) := by
  rw [bodyLines, blockLists, List.flatMap_map]
  rfl

theorem keyedLines_append (n : Node) (before after : List Reserved) :
    keyedLines n (before ++ key :: after) = keyedLines n before
      ++ (Listing.lines (idsUnder n key) ⟨key, .block⟩ ++ keyedLines n after) := by
  rw [keyedLines, List.flatMap_append, List.flatMap_cons]
  rfl

theorem head?_of_mem_keyedLines {n : Node} {ks : List Reserved} {line : List Char}
    (hline : line ∈ keyedLines n ks) : line.head? = some ' ' := by
  obtain ⟨key, -, hline⟩ := List.mem_flatMap.1 hline
  rw [lines_block, List.mem_cons, List.mem_map] at hline
  rcases hline with rfl | ⟨id, -, rfl⟩
  · rfl
  · rfl

variable {n : Node} {p : String}

theorem isPlainId_of_idsUnder (hn : n.IsPlain) (hback : ∀ q ∈ n.backwards, q ∈ n.predecessors)
    (key : Reserved) : ∀ q ∈ idsUnder n key, IsPlainId q.toList := by
  intro q hq
  cases key with
  | predecessors => exact hn.predecessors q hq
  | backwards => exact hn.predecessors q (hback q hq)

/-- A reference is found in the first list that has the id. -/
theorem firstReference?_lists (hplain : ∀ k, ∀ q ∈ idsUnder n k, IsPlainId q.toList)
    {before after : List Reserved} (hbefore : ∀ k ∈ before, p ∉ idsUnder n k)
    (hp : p ∈ idsUnder n key) (i : Nat) :
    firstReference? p.toList i (keyedLines n (before ++ key :: after)) =
      some ⟨i + (keyedLines n before).length + 1 + ((idsUnder n key).takeWhile (· ≠ p)).length, 2,
        p.length + 2⟩ := by
  have hnone (i : Nat) : firstReference? p.toList i (keyedLines n before) = none := by
    induction before generalizing i with
    | nil => rfl
    | cons k before ih =>
      rw [List.forall_mem_cons] at hbefore
      rw [keyedLines, List.flatMap_cons, firstReference?_append, firstReference?_block (hplain k),
        if_neg hbefore.1, Option.none_or]
      exact ih hbefore.2 _
  rw [keyedLines_append, firstReference?_append, hnone, Option.none_or, firstReference?_append,
    firstReference?_block (hplain key), if_pos hp, Option.some_or]

theorem length_takeWhile_lt {ids : List String} (hp : p ∈ ids) :
    (ids.takeWhile (· ≠ p)).length < ids.length := by
  by_contra hle
  have hall := (List.takeWhile_prefix (· ≠ p)).eq_of_length_le (Nat.not_lt.1 hle)
  have hne : (ids.takeWhile (· ≠ p)).all (· ≠ p) = true := List.all_takeWhile
  rw [hall, List.all_eq_true] at hne
  exact absurd (hne p hp) (by simp)

/-- The first list that has a predecessor is that of the predecessors, or one of backward edges in
front of it. -/
theorem exists_first_list {ks : List Reserved} (hkey : .predecessors ∈ ks)
    (hp : p ∈ n.predecessors) :
    ∃ before key after, ks = before ++ key :: after ∧ (∀ k ∈ before, p ∉ idsUnder n k)
      ∧ p ∈ idsUnder n key
      ∧ (key = .backwards ↔ ks.head? = some .backwards ∧ p ∈ n.backwards) := by
  by_cases hfirst : ks.head? = some .backwards ∧ p ∈ n.backwards
  · obtain ⟨hhead, hback⟩ := hfirst
    obtain ⟨after, rfl⟩ := List.head?_eq_some_iff.1 hhead
    exact ⟨[], .backwards, after, rfl, by simp, hback, by simp [hback]⟩
  · obtain ⟨before, after, rfl, hnot⟩ := List.eq_append_cons_of_mem hkey
    refine ⟨before, .predecessors, after, rfl, fun k hk hmem => hfirst ?_, hp,
      by simpa using hfirst⟩
    -- All keys in front are those of backward edges, the first one too.
    have hbackwards (k : Reserved) (hk : k ∈ before) : k = .backwards := by
      cases k with
      | predecessors => exact absurd hk hnot
      | backwards => rfl
    obtain rfl := hbackwards k hk
    cases before with
    | nil => simp at hk
    | cons k' before =>
      obtain rfl := hbackwards k' List.mem_cons_self
      exact ⟨rfl, hmem⟩

/-! ## The index -/

/-- **Which list the span of an edge is in.** In the outline of a conventional document whose
entries have their lists over several lines, every predecessor that is listed is located on an item
of the list of predecessors, unless the entry has its backward edges first and the predecessor is
one of them. Then it is located on an item of that list. -/
theorem build_blockLists {d : Document} (hd : d.IsConventional)
    (hback : ∀ n ∈ d.nodes, ∀ p ∈ n.backwards, p ∈ n.predecessors)
    (keys : Node → List Reserved) (gap : Category → Nat) (tail : Nat) :
    let text := d.outline (blockLists keys) gap tail
    let ix := Index.build text d
    ∀ n ∈ d.nodes, .predecessors ∈ keys n → ∀ p ∈ n.predecessors,
      ∃ t s, ix.node? n.id = some t ∧ ix.edge? p n.id = some s
        ∧ (IsItemUnder (Text.lines text) t.line .predecessors s.line
          ↔ ¬ ((keys n).head? = some .backwards ∧ p ∈ n.backwards))
        ∧ (IsItemUnder (Text.lines text) t.line .backwards s.line
          ↔ (keys n).head? = some .backwards ∧ p ∈ n.backwards) := by
  intro text ix n hn hkey p hp
  have hplain := isPlainId_of_idsUnder (hd.plain n hn) (hback n hn)
  have houtline : d.IsPlainOutline (blockLists keys) := by
    refine ⟨hd, fun m hm l hl => ?_⟩
    obtain ⟨key, -, rfl⟩ := List.mem_map.1 hl
    exact isPlainId_of_idsUnder (hd.plain m hm) (hback m hm) key
  obtain ⟨c, -, hlisted⟩ := List.mem_flatMap.1 hn
  obtain ⟨front, behind, hc⟩ := List.append_of_mem hlisted
  obtain ⟨before, key, after, hks, hbefore, hpkey, hiff⟩ := exists_first_list hkey hp
  have hedge := edge?_outline gap tail houtline hc hp
  rw [bodyLines_blockLists, hks, firstReference?_lists hplain hbefore hpkey] at hedge
  have hlines : Text.lines text = linesBefore d (blockLists keys) gap c front
      ++ firstLine n :: (keyedLines n before ++ (Listing.lines (idsUnder n key) ⟨key, .block⟩
        ++ (keyedLines n after ++ linesAfter d (blockLists keys) gap tail c behind))) := by
    rw [houtline.lines_eq gap tail, outlineLines_eq _ _ _ hc, entryLines_eq,
      bodyLines_blockLists, hks, keyedLines_append]
    simp only [List.cons_append, List.append_assoc]
  have hitem := isItemUnder_of_eq hlines (fun line hline => head?_of_mem_keyedLines hline)
    (length_takeWhile_lt hpkey)
  refine ⟨_, _, node?_outline gap tail houtline hc, hedge, hitem.iff_eq.trans ?_,
    hitem.iff_eq.trans hiff⟩
  rw [← hiff]
  cases key <;> simp

/-- Two attacks with backward edges, listed last in one of them and first in the other. -/
def turned : Document where
  title := "Attack Tree"
  theme := none
  facts := [⟨"guard", "Guard", .fact, [], [], [], by decide⟩]
  attacks := [⟨"bribe", "Bribe", .attack, ["guard", "threat"], [], ["threat"], by decide⟩,
    ⟨"threat", "Threat", .attack, ["guard", "bribe"], [], ["bribe"], by decide⟩]
  mitigations := []
  goals := []

/-- Only the second attack has its backward edges first. -/
def turnedKeys (n : Node) : List Reserved :=
  if n.id = "bribe" then [.predecessors, .backwards]
  else if n.id = "threat" then [.backwards, .predecessors] else []

theorem build_blockLists_turned :
    let text := turned.outline (blockLists turnedKeys) (fun _ => 1) 1
    let ix := Index.build text turned
    turned.IsConventional ∧ (∀ n ∈ turned.nodes, ∀ p ∈ n.backwards, p ∈ n.predecessors)
      ∧ (∃ t s, ix.node? "bribe" = some t ∧ ix.edge? "threat" "bribe" = some s
        ∧ IsItemUnder (Text.lines text) t.line .predecessors s.line)
      ∧ (∃ t s, ix.node? "threat" = some t ∧ ix.edge? "guard" "threat" = some s
        ∧ IsItemUnder (Text.lines text) t.line .predecessors s.line)
      ∧ ∃ t s, ix.node? "threat" = some t ∧ ix.edge? "bribe" "threat" = some s
        ∧ IsItemUnder (Text.lines text) t.line .backwards s.line := by
  have hd : turned.IsConventional := ⟨by decide, by decide +kernel, by decide⟩
  have hback : ∀ n ∈ turned.nodes, ∀ p ∈ n.backwards, p ∈ n.predecessors := by decide
  have hlists := build_blockLists hd hback turnedKeys (fun _ => 1) 1
  refine ⟨hd, hback, ?_, ?_, ?_⟩
  · obtain ⟨t, s, ht, hs, hitem, -⟩ := hlists turned.attacks[0] (by decide) (by decide) "threat"
      (by decide)
    exact ⟨t, s, ht, hs, hitem.2 (by decide)⟩
  · obtain ⟨t, s, ht, hs, hitem, -⟩ := hlists turned.attacks[1] (by decide) (by decide) "guard"
      (by decide)
    exact ⟨t, s, ht, hs, hitem.2 (by decide)⟩
  · obtain ⟨t, s, ht, hs, -, hitem⟩ := hlists turned.attacks[1] (by decide) (by decide) "bribe"
      (by decide)
    exact ⟨t, s, ht, hs, hitem.2 (by decide)⟩

/-- An attack whose one predecessor is also that of a backward edge. -/
def reversed : Document where
  title := "Attack Tree"
  theme := none
  facts := [⟨"mail", "Mail", .fact, [], [], [], by decide⟩]
  attacks := [⟨"phish", "Phishing", .attack, ["mail"], [], ["mail"], by decide⟩]
  mitigations := []
  goals := []

/-- With its backward edges first, the attack has the span of its predecessor there. With the same
lists in brackets, only the list of predecessors is searched. -/
theorem not_isItemUnder_of_backwards_first :
    let keys := fun n : Node =>
      if n.id = "phish" then [Reserved.backwards, .predecessors] else []
    let text := "title: Attack Tree\n\nfacts:\n- mail: Mail\n\nattacks:\n- phish: Phishing\n"
      ++ "  backwards:\n  - mail\n  from:\n  - mail\n\nmitigations:\n\ngoals:\n"
    let ix := Index.build text.toList reversed
    let text' := reversed.outline (fun n => (keys n).map (⟨·, .brackets⟩)) (fun _ => 1) 1
    Document.ofText text = .ok reversed ∧ reversed.IsConventional
      ∧ text.toList = reversed.outline (blockLists keys) (fun _ => 1) 1
      ∧ ix.node? "phish" = some ⟨6, 0, 8⟩ ∧ ix.edge? "mail" "phish" = some ⟨8, 2, 6⟩
      ∧ IsItemUnder (Text.lines text.toList) 6 .backwards 8
      ∧ ¬ IsItemUnder (Text.lines text.toList) 6 .predecessors 8
      ∧ (Text.lines text')[8]? = some "  from: [mail]".toList
      ∧ (Index.build text' reversed).edge? "mail" "phish" = some ⟨8, 9, 4⟩ := by
  intro keys text ix text'
  have hitem : IsItemUnder (Text.lines text.toList) 6 .backwards 8 := by decide +kernel
  have hnot : ¬ IsItemUnder (Text.lines text.toList) 6 .predecessors 8 :=
    mt hitem.iff_eq.1 (by decide)
  exact ⟨by decide +kernel, ⟨by decide, by decide +kernel, by decide⟩, by decide +kernel,
    by decide +kernel, by decide +kernel, hitem, hnot, by decide +kernel, by decide +kernel⟩

end ThreatTree.Location
