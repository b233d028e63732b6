import TracingConsole.Library.KeyedTable

/-!
# Multisets kept as tables of fixed-width counts

A multiset over an ordered type can be kept as a table from an element to the number of
its occurrences, the counts being words of a fixed width: arithmetic on them is modulo
`M`.  `tallyInc` counts one more occurrence and `tallyDec` one less, dropping the key
when its count reaches zero.

`Tallies M t m` says that `t` is the table of `m`.  Counting up keeps it always
(`tallies_inc`); counting down keeps it as long as no element occurs more than `M` times
(`tallies_dec`), which is where a wrapped count would be mistaken for an empty one.
`head?_keys` and `getLast?_keys` read the least and the greatest element off the table.
-/

set_option autoImplicit false

namespace TracingConsole.Library

open Std (ExtTreeMap TransOrd LawfulEqOrd)

section Tally

variable {κ : Type} [Ord κ] [TransOrd κ]

/-- INTERNAL: count one more occurrence of `k`, modulo `M`. -/
def tallyInc (M : ℕ) (t : ExtTreeMap κ ℕ) (k : κ) : ExtTreeMap κ ℕ :=
  t.insert k ((t.getD k 0 + 1) % M)

/-- INTERNAL: count one occurrence of `k` less, modulo `M`, and drop the key when its
count becomes zero. -/
def tallyDec (M : ℕ) (t : ExtTreeMap κ ℕ) (k : κ) : ExtTreeMap κ ℕ :=
  match t[k]? with
  | none => t
  | some c => if (c + (M - 1)) % M = 0 then t.erase k else t.insert k ((c + (M - 1)) % M)

variable [LawfulEqOrd κ] [DecidableEq κ]

/-- INTERNAL: `t` holds, for every element of `m`, its number of occurrences modulo `M`,
and nothing else. -/
def Tallies (M : ℕ) (t : ExtTreeMap κ ℕ) (m : Multiset κ) : Prop :=
  ∀ k : κ, t[k]? = if m.count k = 0 then none else some (m.count k % M)

omit [LawfulEqOrd κ] in
/-- INTERNAL: the empty table is the table of the empty multiset. -/
theorem tallies_empty (M : ℕ) : Tallies M (∅ : ExtTreeMap κ ℕ) 0 := by
  intro k
  simp

/-- INTERNAL: counting up is exact for every width. -/
theorem tallies_inc (M : ℕ) (t : ExtTreeMap κ ℕ) (m : Multiset κ) (k : κ)
    (h : Tallies M t m) : Tallies M (tallyInc M t k) (k ::ₘ m) := by
  intro a
  have hold : t.getD k 0 % M = m.count k % M := by
    rw [ExtTreeMap.getD_eq_getD_getElem?, h k]
    split
    · next h0 => simp [h0]
    · simp
  rw [tallyInc, getElem?_insert_eq, Multiset.count_cons]
  by_cases ha : a = k
  · subst ha
    rw [if_pos rfl, if_pos rfl, if_neg (by omega), Nat.add_mod, hold, ← Nat.add_mod]
  · rw [if_neg ha, if_neg ha, h a, Nat.add_zero]

/-- INTERNAL: one less, modulo `M`. -/
theorem pred_mod (M c : ℕ) (hM : 0 < M) (hc : 0 < c) :
    (c % M + (M - 1)) % M = (c - 1) % M := by
  obtain ⟨d, rfl⟩ : ∃ d, c = d + 1 := ⟨c - 1, by omega⟩
  rw [Nat.add_mod, Nat.mod_mod, ← Nat.add_mod]
  have : d + 1 + (M - 1) = d + M := by omega
  rw [this, Nat.add_mod_right, Nat.add_sub_cancel]

/-- INTERNAL: counting down is exact as long as the count fits the width; a count of `M`
is stored as zero, but it is not dropped, and one less than it fits again. -/
theorem tallies_dec (M : ℕ) (t : ExtTreeMap κ ℕ) (m : Multiset κ) (k : κ)
    (h : Tallies M t m) (hk : k ∈ m) (hM : m.count k ≤ M) :
    Tallies M (tallyDec M t k) (m.erase k) := by
  have hpos : 0 < m.count k := Multiset.count_pos.mpr hk
  have hread : t[k]? = some (m.count k % M) := by rw [h k, if_neg (by omega)]
  have hpred := pred_mod M (m.count k) (by omega) hpos
  have hsmall : (m.count k - 1) % M = m.count k - 1 := Nat.mod_eq_of_lt (by omega)
  intro a
  rw [tallyDec, hread]
  simp only [hpred, hsmall]
  by_cases ha : a = k
  · subst ha
    rw [Multiset.count_erase_self]
    split
    · rw [getElem?_erase_eq, if_pos rfl]
    · rw [getElem?_insert_eq, if_pos rfl, hsmall]
  · rw [Multiset.count_erase_of_ne ha]
    split
    · rw [getElem?_erase_eq, if_neg ha, h a]
    · rw [getElem?_insert_eq, if_neg ha, h a]

omit [LawfulEqOrd κ] in
/-- INTERNAL: the keys of the table are the elements of the multiset. -/
theorem mem_of_tallies (M : ℕ) (t : ExtTreeMap κ ℕ) (m : Multiset κ) (h : Tallies M t m)
    (k : κ) : k ∈ t ↔ k ∈ m := by
  rw [← ExtTreeMap.isSome_getElem?_iff_mem, h k, ← Multiset.count_pos]
  by_cases h0 : m.count k = 0
  · simp [h0]
  · simp [h0, Nat.pos_of_ne_zero h0]

end Tally

/-! ## Least and greatest element -/

/-- INTERNAL: the keys of a table over the naturals are strictly increasing. -/
theorem keys_pairwise_lt (t : ExtTreeMap ℕ ℕ) : t.keys.Pairwise (· < ·) := by
  refine (ExtTreeMap.ordered_keys (t := t)).imp ?_
  intro a b hab
  exact Nat.compare_eq_lt.mp hab

/-- INTERNAL: the first key is the least element. -/
theorem head?_keys (M : ℕ) (t : ExtTreeMap ℕ ℕ) (l : List ℕ) (h : Tallies M t l) :
    t.keys.head? = l.min? := by
  have hmem : ∀ k, k ∈ t.keys ↔ k ∈ l := fun k => by
    rw [ExtTreeMap.mem_keys, mem_of_tallies M t l h k, Multiset.mem_coe]
  have hsorted := keys_pairwise_lt t
  cases hk : t.keys with
  | nil =>
    have : l = [] := List.eq_nil_iff_forall_not_mem.mpr fun a ha => by
      simpa [hk] using (hmem a).mpr ha
    simp [this]
  | cons a rest =>
    rw [hk] at hsorted
    symm
    rw [List.head?_cons, List.min?_eq_some_iff]
    refine ⟨(hmem a).mp (by simp [hk]), fun b hb => ?_⟩
    have hb' := (hmem b).mpr hb
    rw [hk] at hb'
    rcases List.mem_cons.mp hb' with rfl | hb'
    · exact le_rfl
    · exact le_of_lt ((List.pairwise_cons.mp hsorted).1 b hb')

/-- INTERNAL: the last key is the greatest element. -/
theorem getLast?_keys (M : ℕ) (t : ExtTreeMap ℕ ℕ) (l : List ℕ) (h : Tallies M t l) :
    t.keys.getLast? = l.max? := by
  have hmem : ∀ k, k ∈ t.keys ↔ k ∈ l := fun k => by
    rw [ExtTreeMap.mem_keys, mem_of_tallies M t l h k, Multiset.mem_coe]
  have hsorted := keys_pairwise_lt t
  rcases List.eq_nil_or_concat t.keys with hk | ⟨rest, a, hk⟩
  · have : l = [] := List.eq_nil_iff_forall_not_mem.mpr fun a ha => by
      simpa [hk] using (hmem a).mpr ha
    simp [hk, this]
  · rw [List.concat_eq_append] at hk
    rw [hk] at hsorted
    rw [hk, List.getLast?_append, List.getLast?_singleton, Option.some_or]
    symm
    rw [List.max?_eq_some_iff]
    refine ⟨(hmem a).mp (by simp [hk]), fun b hb => ?_⟩
    have hb' := (hmem b).mpr hb
    rw [hk] at hb'
    rcases List.mem_append.mp hb' with hb' | hb'
    · exact le_of_lt ((List.pairwise_append.mp hsorted).2.2 b hb' a (by simp))
    · exact (List.mem_singleton.mp hb').le

end TracingConsole.Library
