/-!
# First occurrences

Dropping all but the first of the elements that share a key. The result has each key once
(`nodup_distinctBy`), keeps the order of the list, and loses no key (`mem_distinct`). Its elements
stand in the order in which the list has them for the first time (`pairwise_idxOf_distinct`).
-/

namespace ThreatTree

variable {α β : Type} [DecidableEq β]

/-- The elements whose key occurs for the first time. -/
def distinctBy (key : α → β) : List α → List α
  | [] => []
  | a :: l => a :: (distinctBy key l).filter fun b => key b ≠ key a

/-- The elements of a list, each at its first place. -/
def distinct (l : List β) : List β := distinctBy id l

theorem distinctBy_sublist (key : α → β) (l : List α) : (distinctBy key l).Sublist l := by
  induction l with
  | nil => exact List.Sublist.slnil
  | cons a l ih => exact (List.filter_sublist.trans ih).cons_cons a

theorem nodup_distinctBy (key : α → β) (l : List α) : ((distinctBy key l).map key).Nodup := by
  induction l with
  | nil => simp [distinctBy]
  | cons a l ih =>
    simp only [distinctBy, List.map_cons, List.nodup_cons, List.mem_map, List.mem_filter,
      decide_eq_true_eq, not_exists, not_and]
    refine ⟨fun b hb hk => hb.2 hk, ?_⟩
    exact ih.sublist (List.filter_sublist.map key)

theorem nodup_distinct (l : List β) : (distinct l).Nodup := by
  simpa [distinct] using nodup_distinctBy id l

theorem mem_distinct {b : β} {l : List β} : b ∈ distinct l ↔ b ∈ l := by
  induction l with
  | nil => simp [distinct, distinctBy]
  | cons a l ih =>
    simp only [distinct, distinctBy, List.mem_cons, List.mem_filter, id_eq] at ih ⊢
    by_cases h : b = a <;> simp [h, ih]

theorem distinct_cons (a : β) (l : List β) :
    distinct (a :: l) = a :: (distinct l).filter fun b => b ≠ a := rfl

/-- Elements keep the order of their first places. -/
theorem pairwise_idxOf_distinct (l : List β) :
    (distinct l).Pairwise fun a b => l.idxOf a < l.idxOf b := by
  induction l with
  | nil => exact List.Pairwise.nil
  | cons a l ih =>
    have hshift {b : β} (hb : b ≠ a) : (a :: l).idxOf b = l.idxOf b + 1 := by
      rw [List.idxOf_cons, beq_false_of_ne (Ne.symm hb), cond_false]
    rw [distinct_cons, List.pairwise_cons]
    refine ⟨fun b hb => ?_, ?_⟩
    · obtain ⟨-, hb⟩ := List.mem_filter.1 hb
      rw [List.idxOf_cons_self, hshift (by simpa using hb)]
      exact Nat.succ_pos _
    · refine (ih.filter _).imp_of_mem fun {b c} hb hc hlt => ?_
      obtain ⟨-, hb⟩ := List.mem_filter.1 hb
      obtain ⟨-, hc⟩ := List.mem_filter.1 hc
      rw [hshift (by simpa using hb), hshift (by simpa using hc)]
      exact Nat.succ_lt_succ hlt

theorem distinct_of_nodup {l : List β} (h : l.Nodup) : distinct l = l := by
  induction l with
  | nil => rfl
  | cons a l ih =>
    obtain ⟨ha, hl⟩ := List.nodup_cons.1 h
    have hne : ∀ b ∈ l, decide (b ≠ a) = true := by
      intro b hb
      simpa using ne_of_mem_of_not_mem hb ha
    rw [distinct_cons, ih hl, List.filter_eq_self.2 hne]

theorem distinct_concat (l : List β) (b : β) :
    distinct (l ++ [b]) = if b ∈ l then distinct l else distinct l ++ [b] := by
  induction l with
  | nil => rfl
  | cons a l ih =>
    rw [List.cons_append, distinct_cons, distinct_cons, ih]
    by_cases hba : b = a
    · subst hba
      by_cases hb : b ∈ l <;> simp [hb]
    · by_cases hb : b ∈ l <;> simp [hb, hba]

/-- Nothing is dropped exactly if no element is repeated. -/
theorem length_distinct_eq_iff {l : List β} :
    (distinct l).length = l.length ↔ l.Nodup := by
  constructor
  · intro h
    rw [← (distinctBy_sublist id l).eq_of_length h]
    exact nodup_distinct l
  · intro h
    rw [distinct_of_nodup h]

/-! ## Distinct keys -/

/-- Where keys are distinct, what is found by a key is the one element that has it. -/
theorem find?_key_eq_some_iff {key : α → β} {l : List α} (h : (l.map key).Nodup) {k : β} {a : α} :
    (l.find? fun b => key b = k) = some a ↔ a ∈ l ∧ key a = k := by
  induction l with
  | nil => simp
  | cons b l ih =>
    obtain ⟨hb, hl⟩ := List.nodup_cons.1 h
    rw [List.find?_cons]
    by_cases hk : key b = k
    · simp only [hk, decide_true, Option.some.injEq, List.mem_cons]
      constructor
      · rintro rfl
        exact ⟨.inl rfl, hk⟩
      · rintro ⟨rfl | ha, hka⟩
        · rfl
        · exact absurd (List.mem_map_of_mem ha) (hka.trans hk.symm ▸ hb)
    · simp only [hk, decide_false, ih hl, List.mem_cons]
      constructor
      · rintro ⟨ha, hka⟩
        exact ⟨.inr ha, hka⟩
      · rintro ⟨rfl | ha, hka⟩
        · exact absurd hka hk
        · exact ⟨ha, hka⟩

end ThreatTree
