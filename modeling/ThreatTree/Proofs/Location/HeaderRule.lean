import ThreatTree.Location.HeaderRule
import ThreatTree.Proofs.Location.Header

/-!
# The scan finds the headers

In front of a line, the scan has in mind what the lines so far say (`Scan.IsAt`): no section, a
section without an item yet, or a section with its first item. Each line keeps this
(`Scan.IsAt.next`), and a line is reported exactly if it is a header (`Scan.IsAt.header?_iff`). So
the scan of a text finds the headers of its lines and no others (`mem_headers_iff`).
-/

namespace ThreatTree.Location

variable {lines : List (List Char)} {i j j' k k' n n' : Nat} {line key key' : List Char}
  {c : Category}

/-! ## Keys at the left margin -/

/-- Line `k` is the last key at the left margin in front of line `i`. -/
def IsLastKey (lines : List (List Char)) (k i : Nat) (key : List Char) : Prop :=
  k < i ∧ (lines[k]?).bind topLevelKey? = some key
    ∧ ∀ j, k < j → j < i → (lines[j]?).bind topLevelKey? = none

theorem isUnderKey_iff : IsUnderKey lines k i key
    ↔ IsLastKey lines k i key ∧ (lines[i]?).bind topLevelKey? = none := by
  constructor
  · intro h
    obtain ⟨hlt, hkey, hnone⟩ := h
    exact ⟨⟨hlt, hkey, fun j hj hji => hnone j hj (Nat.le_of_lt hji)⟩, hnone i hlt (Nat.le_refl i)⟩
  · intro h
    obtain ⟨⟨hlt, hkey, hnone⟩, hline⟩ := h
    refine ⟨hlt, hkey, ?_⟩
    intro j hj hji
    rcases Nat.lt_or_eq_of_le hji with hji | rfl
    · exact hnone j hj hji
    · exact hline

theorem IsLastKey.unique (h : IsLastKey lines k i key) (h' : IsLastKey lines k' i key') :
    k = k' ∧ key = key' := by
  obtain ⟨hlt, hkey, hnone⟩ := h
  obtain ⟨hlt', hkey', hnone'⟩ := h'
  rcases Nat.lt_trichotomy k k' with hk | rfl | hk
  · rw [hnone k' hk hlt'] at hkey'
    exact absurd hkey' (by simp)
  · exact ⟨rfl, Option.some.inj (hkey.symm.trans hkey')⟩
  · rw [hnone' k hk hlt] at hkey
    exact absurd hkey (by simp)

theorem IsUnderKey.unique (h : IsUnderKey lines k i key) (h' : IsUnderKey lines k' i key') :
    k = k' ∧ key = key' :=
  (isUnderKey_iff.1 h).1.unique (isUnderKey_iff.1 h').1

theorem isLastKey_of_key (h : (lines[i]?).bind topLevelKey? = some key) :
    IsLastKey lines i (i + 1) key := by
  refine ⟨Nat.lt_succ_self i, h, ?_⟩
  intro j hj hji
  omega

/-- Behind a line that is no key, the last key is the one in front of it. -/
theorem isLastKey_succ_iff (h : (lines[i]?).bind topLevelKey? = none) :
    IsLastKey lines k (i + 1) key ↔ IsLastKey lines k i key := by
  constructor
  · intro hlast
    obtain ⟨hlt, hkey, hnone⟩ := hlast
    have hne : k ≠ i := by
      intro heq
      rw [heq, h] at hkey
      exact absurd hkey (by simp)
    exact ⟨by omega, hkey, fun j hj hji => hnone j hj (Nat.lt_succ_of_lt hji)⟩
  · intro hlast
    obtain ⟨hlt, hkey, hnone⟩ := isUnderKey_iff.2 ⟨hlast, h⟩
    exact ⟨Nat.lt_succ_of_lt hlt, hkey, fun j hj hji => hnone j hj (Nat.le_of_lt_succ hji)⟩

/-! ## First items -/

theorem isItem_iff {indent : Nat} {id : List Char} :
    IsItem line indent id ↔ ∃ after, itemKey? line = some ⟨indent, id, after⟩ := by
  simp only [itemKey?_eq_some_iff]
  constructor
  · intro h
    obtain ⟨margin, after, h⟩ := h
    exact ⟨after, margin, h⟩
  · intro h
    obtain ⟨after, margin, h⟩ := h
    exact ⟨margin, after, h⟩

theorem isItem_iff_of_itemKey? {item : ItemKey} (h : itemKey? line = some item) {indent : Nat}
    {id : List Char} : IsItem line indent id ↔ item.indent = indent ∧ item.id = id := by
  rw [isItem_iff, h]
  constructor
  · intro hitem
    obtain ⟨after, heq⟩ := hitem
    obtain rfl := Option.some.inj heq
    exact ⟨rfl, rfl⟩
  · intro hitem
    obtain ⟨rfl, rfl⟩ := hitem
    exact ⟨item.after, rfl⟩

theorem not_isItem_of_itemKey? (h : itemKey? line = none) (indent : Nat) (id : List Char) :
    ¬ IsItem line indent id := by
  rw [isItem_iff, h]
  simp

/-- Between line `k` and line `i` there is no list item with a key. -/
def NoItemBetween (lines : List (List Char)) (k i : Nat) : Prop :=
  ∀ m line n id, k < m → m < i → lines[m]? = some line → ¬ IsItem line n id

theorem NoItemBetween.succ (h : NoItemBetween lines k i) (hline : lines[i]? = some line)
    (hitem : itemKey? line = none) : NoItemBetween lines k (i + 1) := by
  intro m line' n id hm hmi hline'
  rcases Nat.lt_or_eq_of_le (Nat.le_of_lt_succ hmi) with hmi | rfl
  · exact h m line' n id hm hmi hline'
  · obtain rfl := Option.some.inj (hline.symm.trans hline')
    exact not_isItem_of_itemKey? hitem n id

theorem NoItemBetween.isFirstItem (h : NoItemBetween lines k i) (hlt : k < i)
    (hline : lines[i]? = some line) {item : ItemKey} (hitem : itemKey? line = some item) :
    IsFirstItem lines k i item.indent :=
  ⟨hlt, ⟨line, item.id, hline, (isItem_iff_of_itemKey? hitem).2 ⟨rfl, rfl⟩⟩, h⟩

theorem IsFirstItem.unique (h : IsFirstItem lines k j n) (h' : IsFirstItem lines k j' n') :
    n = n' := by
  obtain ⟨hlt, ⟨line, id, hline, hitem⟩, hnone⟩ := h
  obtain ⟨hlt', ⟨line', id', hline', hitem'⟩, hnone'⟩ := h'
  rcases Nat.lt_trichotomy j j' with hj | rfl | hj
  · exact absurd hitem (hnone' j line n id hlt hj hline)
  · obtain rfl := Option.some.inj (hline.symm.trans hline')
    obtain ⟨after, hkey⟩ := isItem_iff.1 hitem
    exact ((isItem_iff_of_itemKey? hkey).1 hitem').1
  · exact absurd hitem' (hnone j' line' n' id' hlt' hj hline')

/-- A line under the key of a section, with an item that is not deeper than the first one. -/
theorem isHeader_iff_of_isFirstItem (hunder : IsUnderKey lines k i key)
    (hsection : sectionOf? key = some c) (hline : lines[i]? = some line) {item : ItemKey}
    (hitem : itemKey? line = some item) (hfirst : IsFirstItem lines k j n) {h : Header} :
    h.line = i ∧ IsHeader lines h
      ↔ item.indent = n ∧ h = ⟨i, item.indent, String.ofList item.id, c⟩ := by
  constructor
  · intro hheader
    obtain ⟨rfl, k', key', line', hunder', hsection', hline', hitem', j', hfirst'⟩ := hheader
    obtain ⟨rfl, rfl⟩ := hunder.unique hunder'
    obtain rfl := Option.some.inj (hline.symm.trans hline')
    obtain ⟨hindent, hid⟩ := (isItem_iff_of_itemKey? hitem).1 hitem'
    have hcategory : c = h.category := Option.some.inj (hsection.symm.trans hsection')
    rw [hindent, hid, String.ofList_toList, hcategory]
    exact ⟨hfirst'.unique hfirst, rfl⟩
  · intro hheader
    obtain ⟨rfl, rfl⟩ := hheader
    refine ⟨rfl, k, key, line, hunder, hsection, hline, ?_, j, hfirst⟩
    rw [String.toList_ofList]
    exact (isItem_iff_of_itemKey? hitem).2 ⟨rfl, rfl⟩

theorem not_isHeader_of_itemKey? (hline : lines[i]? = some line) (hitem : itemKey? line = none)
    {h : Header} : ¬ (h.line = i ∧ IsHeader lines h) := by
  intro hheader
  obtain ⟨rfl, -, -, line', -, -, hline', hitem', -⟩ := hheader
  obtain rfl := Option.some.inj (hline.symm.trans hline')
  exact not_isItem_of_itemKey? hitem _ _ hitem'

/-! ## The scan -/

namespace Scan

/-- What the scan has in mind in front of line `i` is what the lines so far say. -/
inductive IsAt (lines : List (List Char)) (i : Nat) : Scan → Prop
  | outside (hnone : ∀ k key, IsLastKey lines k i key → sectionOf? key = none) :
      IsAt lines i ⟨none, none⟩
  | before {k : Nat} {key : List Char} {c : Category} (hkey : IsLastKey lines k i key)
      (hsection : sectionOf? key = some c) (hnone : NoItemBetween lines k i) :
      IsAt lines i ⟨some c, none⟩
  | behind {k j n : Nat} {key : List Char} {c : Category} (hkey : IsLastKey lines k i key)
      (hsection : sectionOf? key = some c) (hlt : j < i) (hfirst : IsFirstItem lines k j n) :
      IsAt lines i ⟨some c, some n⟩

theorem isAt_start (lines : List (List Char)) : start.IsAt lines 0 := by
  apply IsAt.outside
  intro k key hkey
  exact absurd hkey.1 (Nat.not_lt_zero k)

variable {s : Scan}

/-- Behind a key nothing of the lines in front of it is left. -/
theorem isAt_of_key (h : (lines[i]?).bind topLevelKey? = some key) :
    IsAt lines (i + 1) ⟨sectionOf? key, none⟩ := by
  have hlast := isLastKey_of_key h
  cases hsection : sectionOf? key with
  | none =>
    apply IsAt.outside
    intro k' key' hlast'
    rw [(hlast'.unique hlast).2, hsection]
  | some c =>
    apply IsAt.before hlast hsection
    intro m line n id hm hmi
    omega

theorem IsAt.next (h : s.IsAt lines i) (hline : lines[i]? = some line) :
    (s.next line).IsAt lines (i + 1) := by
  unfold Scan.next
  cases hkey : topLevelKey? line with
  | some key => exact isAt_of_key (by rw [hline]; exact hkey)
  | none =>
    have hno : (lines[i]?).bind topLevelKey? = none := by rw [hline]; exact hkey
    cases h with
    | outside hnone =>
      apply IsAt.outside
      intro k key hlast
      exact hnone k key ((isLastKey_succ_iff hno).1 hlast)
    | before hlast hsection hnone =>
      have hlast' := (isLastKey_succ_iff hno).2 hlast
      cases hitem : itemKey? line with
      | none => exact .before hlast' hsection (hnone.succ hline hitem)
      | some item =>
        exact .behind hlast' hsection (Nat.lt_succ_self i)
          (hnone.isFirstItem hlast.1 hline hitem)
    | behind hlast hsection hlt hfirst =>
      have hlast' := (isLastKey_succ_iff hno).2 hlast
      have hlt' := Nat.lt_succ_of_lt hlt
      cases hitem : itemKey? line with
      | none => exact .behind hlast' hsection hlt' hfirst
      | some item => exact .behind hlast' hsection hlt' hfirst

/-- A line is reported exactly if it is a header. -/
theorem IsAt.header?_iff (h : s.IsAt lines i) (hline : lines[i]? = some line) {x : Header} :
    s.header? i line = some x ↔ x.line = i ∧ IsHeader lines x := by
  unfold header?
  cases hkey : topLevelKey? line with
  | some key =>
    refine iff_of_false (by simp) ?_
    intro hheader
    obtain ⟨rfl, k, key', -, hunder, -⟩ := hheader
    have hno := (isUnderKey_iff.1 hunder).2
    rw [hline, Option.bind_some, hkey] at hno
    exact absurd hno (by simp)
  | none =>
    have hno : (lines[i]?).bind topLevelKey? = none := by rw [hline]; exact hkey
    cases h with
    | outside hnone =>
      refine iff_of_false (by simp) ?_
      intro hheader
      obtain ⟨rfl, k, key, -, hunder, hsection, -⟩ := hheader
      rw [hnone k key (isUnderKey_iff.1 hunder).1] at hsection
      exact absurd hsection (by simp)
    | before hlast hsection hnone =>
      have hunder := isUnderKey_iff.2 ⟨hlast, hno⟩
      cases hitem : itemKey? line with
      | none => exact iff_of_false (by simp) (not_isHeader_of_itemKey? hline hitem)
      | some item =>
        have hfirst := hnone.isFirstItem hlast.1 hline hitem
        rw [isHeader_iff_of_isFirstItem hunder hsection hline hitem hfirst]
        simp [eq_comm]
    | behind hlast hsection hlt hfirst =>
      have hunder := isUnderKey_iff.2 ⟨hlast, hno⟩
      cases hitem : itemKey? line with
      | none => exact iff_of_false (by simp) (not_isHeader_of_itemKey? hline hitem)
      | some item =>
        rw [isHeader_iff_of_isFirstItem hunder hsection hline hitem hfirst]
        simp [eq_comm]

theorem IsAt.mem_headers_iff {rest : List (List Char)} (h : s.IsAt lines i)
    (hrest : lines.drop i = rest) {x : Header} :
    x ∈ s.headers i rest ↔ i ≤ x.line ∧ IsHeader lines x := by
  induction rest generalizing s i with
  | nil =>
    refine iff_of_false (by simp) ?_
    intro hheader
    obtain ⟨hle, -, -, line, -, -, hline, -⟩ := hheader
    have hlt := (List.getElem?_eq_some_iff.1 hline).1
    rw [List.drop_eq_nil_iff] at hrest
    omega
  | cons line rest ih =>
    have hline : lines[i]? = some line := by
      rw [← Nat.add_zero i, ← List.getElem?_drop, hrest]
      rfl
    have hrest' : lines.drop (i + 1) = rest := by
      rw [← List.drop_drop, hrest, List.drop_one, List.tail_cons]
    rw [headers_cons, List.mem_append, Option.mem_toList, h.header?_iff hline,
      ih (h.next hline) hrest', ← or_and_right]
    apply and_congr_left'
    omega

end Scan

/-- **The headers that are found are the lines that are headers.** -/
theorem mem_headers_iff {h : Header} : h ∈ headers lines ↔ IsHeader lines h := by
  rw [headers_eq, (Scan.isAt_start lines).mem_headers_iff (List.drop_zero)]
  simp

end ThreatTree.Location
