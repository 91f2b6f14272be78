import ThreatTree.Decimal.Reading

/-!
# Digits of a number

The digits that write a number in a base have the value of the number, in every way of reading
them that reads the digits of the base (`ofDigits_map_toDigits`).
-/

namespace ThreatTree.Decimal

theorem ofDigits_concat (base : Nat) (ds : List Nat) (d : Nat) :
    ofDigits base (ds ++ [d]) = ofDigits base ds * base + d := by
  rw [ofDigits, List.foldl_append]
  rfl

/-- What is written is read back. -/
theorem ofDigits_map_toDigits {base : Nat} (hbase : 1 < base) {value : Char → Nat}
    (hvalue : ∀ d < base, value (Nat.digitChar d) = d) (n : Nat) :
    ofDigits base ((Nat.toDigits base n).map value) = n := by
  induction n using Nat.strongRecOn with
  | ind n ih =>
    by_cases hlt : n < base
    · rw [Nat.toDigits_of_lt_base hlt, List.map_singleton, hvalue n hlt]
      simp [ofDigits]
    · have hpos : 0 < n := by omega
      rw [Nat.toDigits_of_base_le hbase (by omega), List.map_append, List.map_singleton,
        ofDigits_concat, ih (n / base) (Nat.div_lt_self hpos hbase),
        hvalue _ (Nat.mod_lt n (by omega))]
      exact Nat.div_add_mod' n base

/-- What holds of the digits of a base holds of all digits that are written. -/
theorem forall_mem_toDigits {base : Nat} (hbase : 1 < base) {P : Char → Prop}
    (h : ∀ d < base, P (Nat.digitChar d)) (n : Nat) : ∀ c ∈ Nat.toDigits base n, P c := by
  induction n using Nat.strongRecOn with
  | ind n ih =>
    by_cases hlt : n < base
    · rw [Nat.toDigits_of_lt_base hlt]
      simpa using h n hlt
    · have hpos : 0 < n := by omega
      rw [Nat.toDigits_of_base_le hbase (by omega), List.forall_mem_append]
      refine ⟨ih (n / base) (Nat.div_lt_self hpos hbase), ?_⟩
      simpa using h _ (Nat.mod_lt n (by omega))

/-- No zero stands in front of the other digits of a number. -/
theorem head?_toDigits_ne {base n : Nat} (hbase : 1 < base)
    (hzero : ∀ d < base, 0 < d → Nat.digitChar d ≠ '0') (hn : 0 < n) :
    (Nat.toDigits base n).head? ≠ some '0' := by
  induction n using Nat.strongRecOn with
  | ind n ih =>
    by_cases hlt : n < base
    · rw [Nat.toDigits_of_lt_base hlt, List.head?_cons]
      simpa using hzero n hlt hn
    · have hle : base ≤ n := Nat.not_lt.1 hlt
      have hfront := ih (n / base) (Nat.div_lt_self hn hbase) (Nat.div_pos hle (by omega))
      rw [Nat.toDigits_of_base_le hbase hle, List.head?_append]
      cases hhead : (Nat.toDigits base (n / base)).head? with
      | none => exact absurd (List.head?_eq_none_iff.1 hhead) Nat.toDigits_ne_nil
      | some c => rwa [hhead] at hfront

end ThreatTree.Decimal
