import TracingConsole.Model.Reference

/-!
# A bucket as the tally of its entries

`BucketState` (state.rs:14-81) is the incremental form of statistics that are defined by a
bag of `(total, self)` pairs.  `Holds fits st c` says that `st` is the state of the bag
`c`.  The count and the sums are right whatever happens; the two multisets are right while
no bag has more than `2 ^ 32` elements, which is where a `u32` count would wrap, and are
claimed under the proposition `fits` that says so.  `toStackStats_of_holds` reads the
statistics of the bag off the state.

`BucketsOf fits buckets m` lifts this to the whole map: every key holds the entries of `m` in
that bucket, and a key without an entry is absent.  The three ways the aggregator edits
the map, adding an entry, dropping one and rewriting a self time, have one lemma each.
-/

set_option autoImplicit false

namespace TracingConsole.Analysis

open Std (ExtTreeMap)
open TracingConsole.Library TracingConsole.Model

/-! ## One bucket -/

/-- INTERNAL: `st` is the state of a bucket with the contributions `c`; its multisets are,
if `fits` holds.
SRCLINE: state.rs:14-23 -/
structure Holds (fits : Prop) (st : BucketState) (c : Multiset (ℕ × ℕ)) : Prop where
  count_eq : st.count = c.card
  total_sum : st.totalSumNs = (c.map Prod.fst).sum
  self_sum : st.selfSumNs = (c.map Prod.snd).sum
  totals : fits → Tallies (2 ^ 32) st.totalNsMultiset (c.map Prod.fst)
  selves : fits → Tallies (2 ^ 32) st.selfNsMultiset (c.map Prod.snd)

variable (fits : Prop)

/-- INTERNAL: an empty bucket holds nothing. -/
theorem holds_empty : Holds fits {} 0 :=
  ⟨rfl, rfl, rfl, fun _ => tallies_empty _, fun _ => tallies_empty _⟩

/-- INTERNAL: SRCLINE: state.rs:26-32 -/
theorem holds_add (st : BucketState) (c : Multiset (ℕ × ℕ)) (t s : ℕ) (h : Holds fits st c) :
    Holds fits (st.add t s) ((t, s) ::ₘ c) := by
  refine ⟨?_, ?_, ?_, ?_, ?_⟩
  · simp [BucketState.add, h.count_eq]
  · simp [BucketState.add, h.total_sum, Nat.add_comm]
  · simp [BucketState.add, h.self_sum, Nat.add_comm]
  · intro hf
    simp only [Multiset.map_cons]
    exact tallies_inc _ _ _ _ (h.totals hf)
  · intro hf
    simp only [Multiset.map_cons]
    exact tallies_inc _ _ _ _ (h.selves hf)

/-- INTERNAL: a removal is exact while no `u32` count can have wrapped to zero.
SRCLINE: state.rs:34-44 -/
theorem holds_remove (st : BucketState) (c : Multiset (ℕ × ℕ)) (t s : ℕ)
    (h : Holds fits st ((t, s) ::ₘ c)) (hcard : fits → c.card + 1 ≤ 2 ^ 32) :
    Holds fits (st.remove t s) c := by
  have hcount : fits → ∀ (f : ℕ × ℕ → ℕ) (k : ℕ),
      (f (t, s) ::ₘ c.map f).count k ≤ 2 ^ 32 := by
    intro hf f k
    apply (Multiset.count_le_card k _).trans
    simp only [Multiset.card_map, Multiset.card_cons]
    exact hcard hf
  refine ⟨?_, ?_, ?_, ?_, ?_⟩
  · simp [BucketState.remove, h.count_eq]
  · simp [BucketState.remove, h.total_sum]
  · simp [BucketState.remove, h.self_sum]
  · intro hf
    have hold := h.totals hf
    simp only [Multiset.map_cons] at hold
    have hnew := tallies_dec _ _ _ t hold (Multiset.mem_cons_self _ _) (hcount hf Prod.fst t)
    simp only [Multiset.erase_cons_head] at hnew
    exact hnew
  · intro hf
    have hold := h.selves hf
    simp only [Multiset.map_cons] at hold
    have hnew := tallies_dec _ _ _ s hold (Multiset.mem_cons_self _ _) (hcount hf Prod.snd s)
    simp only [Multiset.erase_cons_head] at hnew
    exact hnew

/-- INTERNAL: the least and the greatest element, from a table of counts.
SRCLINE: state.rs:77-82 -/
theorem msMinMax_of_tallies (t : ExtTreeMap ℕ ℕ) (l : List ℕ) (h : Tallies (2 ^ 32) t l) :
    msMinMax t = (l.min?.getD 0, l.max?.getD 0) := by
  unfold msMinMax
  rw [head?_keys _ t l h, getLast?_keys _ t l h]
  cases l with
  | nil => rfl
  | cons a l =>
    obtain ⟨min, hmin⟩ := Option.isSome_iff_exists.mp
      (List.isSome_min?_of_ne_nil (List.cons_ne_nil a l))
    obtain ⟨max, hmax⟩ := Option.isSome_iff_exists.mp
      (List.isSome_max?_of_ne_nil (List.cons_ne_nil a l))
    rw [hmin, hmax]
    rfl

/-- INTERNAL: **the projected statistics are those computed from scratch**.
SRCLINE: state.rs:50-63 -/
theorem toStackStats_of_holds (st : BucketState) (pairs : List (ℕ × ℕ)) (hf : fits)
    (h : Holds fits st pairs) : st.toStackStats = statsOf pairs := by
  have htotal := msMinMax_of_tallies _ (pairs.map Prod.fst) (h.totals hf)
  have hself := msMinMax_of_tallies _ (pairs.map Prod.snd) (h.selves hf)
  have hcount : st.count = pairs.length := by simpa using h.count_eq
  have htsum : st.totalSumNs = (pairs.map Prod.fst).sum := by simpa using h.total_sum
  have hssum : st.selfSumNs = (pairs.map Prod.snd).sum := by simpa using h.self_sum
  simp only [BucketState.toStackStats, statsOf, htotal, hself, hcount, htsum, hssum]

/-! ## The map of buckets -/

/-- INTERNAL: what the entries of `m` contribute to the bucket `key`.
SRCLINE: state.rs:84-93 -/
def contribution (m : Multiset Entry) (key : BucketKey) : Multiset (ℕ × ℕ) :=
  (m.filter fun e => e.bucket = key).map fun e => (e.totalNs, e.selfNs)

/-- INTERNAL: without entries a bucket gets nothing. -/
@[simp] theorem contribution_zero (key : BucketKey) : contribution 0 key = 0 := by
  simp [contribution]

/-- INTERNAL: one more entry counts in its bucket. -/
theorem contribution_cons (e : Entry) (m : Multiset Entry) (key : BucketKey) :
    contribution (e ::ₘ m) key =
      if e.bucket = key then (e.totalNs, e.selfNs) ::ₘ contribution m key
      else contribution m key := by
  unfold contribution
  rw [Multiset.filter_cons]
  split
  · rw [Multiset.singleton_add, Multiset.map_cons]
  · rw [Multiset.zero_add]

/-- INTERNAL: a bucket has no more entries than the ring. -/
theorem card_contribution_le (m : Multiset Entry) (key : BucketKey) :
    (contribution m key).card ≤ m.card := by
  unfold contribution
  rw [Multiset.card_map]
  exact Multiset.card_le_card (Multiset.filter_le _ m)

/-- INTERNAL: the map holds the aggregate of `m` and no bucket besides.
SRCLINE: state.rs:114-118 -/
structure BucketsOf (buckets : ExtTreeMap BucketKey BucketState) (m : Multiset Entry) :
    Prop where
  absent : ∀ key, contribution m key = 0 → buckets[key]? = none
  present : ∀ key, contribution m key ≠ 0 →
    ∃ st, buckets[key]? = some st ∧ Holds fits st (contribution m key)

/-- INTERNAL: no buckets without entries. -/
theorem bucketsOf_empty : BucketsOf fits ∅ 0 :=
  ⟨fun _ _ => by simp, fun key h => absurd (contribution_zero key) h⟩

/-- INTERNAL: a stored bucket holds its entries. -/
theorem holds_of_get (buckets : ExtTreeMap BucketKey BucketState) (m : Multiset Entry)
    (h : BucketsOf fits buckets m) (key : BucketKey) (st : BucketState)
    (hget : buckets[key]? = some st) :
    contribution m key ≠ 0 ∧ Holds fits st (contribution m key) := by
  by_cases h0 : contribution m key = 0
  · rw [h.absent key h0] at hget
    cases hget
  · obtain ⟨st', hget', hholds⟩ := h.present key h0
    rw [hget] at hget'
    cases hget'
    exact ⟨h0, hholds⟩

/-- INTERNAL: the buckets are those of the entries. -/
theorem BucketsOf.mem_iff (buckets : ExtTreeMap BucketKey BucketState) (m : Multiset Entry)
    (h : BucketsOf fits buckets m) (key : BucketKey) :
    key ∈ buckets ↔ ∃ e ∈ m, e.bucket = key := by
  constructor
  · intro hin
    obtain ⟨st, hget⟩ := Option.isSome_iff_exists.mp (ExtTreeMap.isSome_getElem?_iff_mem.mpr hin)
    obtain ⟨x, hx⟩ := Multiset.exists_mem_of_ne_zero (holds_of_get fits buckets m h key st hget).1
    obtain ⟨e, he, -⟩ := Multiset.mem_map.mp hx
    exact ⟨e, Multiset.mem_filter.mp he⟩
  · rintro ⟨e, he, rfl⟩
    have hpair : (e.totalNs, e.selfNs) ∈ contribution m e.bucket :=
      Multiset.mem_map_of_mem _ (Multiset.mem_filter.mpr ⟨he, rfl⟩)
    have hne : contribution m e.bucket ≠ 0 := by
      intro hzero
      rw [hzero] at hpair
      exact Multiset.notMem_zero _ hpair
    obtain ⟨st, hget, -⟩ := h.present e.bucket hne
    exact ExtTreeMap.isSome_getElem?_iff_mem.mp (by rw [hget]; rfl)

/-- INTERNAL: storing the right state under one key and changing no other is enough. -/
theorem bucketsOf_insert_of (buckets : ExtTreeMap BucketKey BucketState)
    (m m' : Multiset Entry) (h : BucketsOf fits buckets m) (key : BucketKey) (st : BucketState)
    (hst : Holds fits st (contribution m' key)) (hne : contribution m' key ≠ 0)
    (hrest : ∀ k, k ≠ key → contribution m' k = contribution m k) :
    BucketsOf fits (buckets.insert key st) m' := by
  refine ⟨fun k hk => ?_, fun k hk => ?_⟩
  · have hkey : k ≠ key := fun heq => hne (heq ▸ hk)
    rw [getElem?_insert_eq, if_neg hkey]
    exact h.absent k (by rw [← hrest k hkey]; exact hk)
  · rw [getElem?_insert_eq]
    by_cases hkey : k = key
    · rw [if_pos hkey]
      exact ⟨st, rfl, hkey ▸ hst⟩
    · rw [if_neg hkey, hrest k hkey]
      exact h.present k (by rw [← hrest k hkey]; exact hk)

/-- INTERNAL: an entry is added to its bucket.
SRCLINE: state.rs:281-283 -/
theorem bucketsOf_add (buckets : ExtTreeMap BucketKey BucketState) (m : Multiset Entry)
    (e : Entry) (h : BucketsOf fits buckets m) :
    BucketsOf fits (buckets.insert e.bucket
      ((buckets.getD e.bucket {}).add e.totalNs e.selfNs)) (e ::ₘ m) := by
  have hold : Holds fits (buckets.getD e.bucket {}) (contribution m e.bucket) := by
    rw [ExtTreeMap.getD_eq_getD_getElem?]
    by_cases h0 : contribution m e.bucket = 0
    · rw [h.absent _ h0, h0]
      exact holds_empty fits
    · obtain ⟨st, hget, hst⟩ := h.present _ h0
      rw [hget]
      exact hst
  apply bucketsOf_insert_of fits buckets m _ h
  · rw [contribution_cons, if_pos rfl]
    exact holds_add fits _ _ _ _ hold
  · rw [contribution_cons, if_pos rfl]
    exact Multiset.cons_ne_zero
  · intro k hk
    rw [contribution_cons, if_neg (Ne.symm hk)]

/-- INTERNAL: an entry is dropped from its bucket, and the bucket with its last entry.
SRCLINE: state.rs:343-348 -/
theorem bucketsOf_drop (a : Aggregator) (e : Entry) (m : Multiset Entry)
    (h : BucketsOf fits a.buckets (e ::ₘ m)) (hcard : fits → m.card + 1 ≤ 2 ^ 32) :
    BucketsOf fits (a.dropContribution e).buckets m := by
  have hkey : contribution (e ::ₘ m) e.bucket =
      (e.totalNs, e.selfNs) ::ₘ contribution m e.bucket := by
    rw [contribution_cons, if_pos rfl]
  have hrest : ∀ k, k ≠ e.bucket → contribution m k = contribution (e ::ₘ m) k := by
    intro k hk
    rw [contribution_cons, if_neg (Ne.symm hk)]
  obtain ⟨st, hget, hst⟩ := h.present e.bucket (by rw [hkey]; exact Multiset.cons_ne_zero)
  have hsmall := card_contribution_le m e.bucket
  have hrem : Holds fits (st.remove e.totalNs e.selfNs) (contribution m e.bucket) := by
    apply holds_remove
    · rw [← hkey]
      exact hst
    · intro hf
      exact (Nat.succ_le_succ hsmall).trans (hcard hf)
  unfold Aggregator.dropContribution
  rw [hget]
  dsimp only
  split
  · next hzero =>
    have hnone : contribution m e.bucket = 0 := by
      rw [← Multiset.card_eq_zero, ← hrem.count_eq]
      exact hzero
    refine ⟨fun k hk => ?_, fun k hk => ?_⟩
    · rw [getElem?_erase_eq]
      by_cases hke : k = e.bucket
      · rw [if_pos hke]
      · rw [if_neg hke]
        exact h.absent k (by rw [← hrest k hke]; exact hk)
    · have hke : k ≠ e.bucket := fun heq => hk (heq ▸ hnone)
      rw [getElem?_erase_eq, if_neg hke, hrest k hke]
      exact h.present k (by rw [← hrest k hke]; exact hk)
  · next hpos =>
    apply bucketsOf_insert_of fits a.buckets _ m h _ _ hrem
    · intro h0
      rw [hrem.count_eq, h0] at hpos
      exact hpos rfl
    · exact hrest

/-- INTERNAL: the self time of an entry is rewritten in its bucket.
SRCLINE: state.rs:382-390 -/
theorem bucketsOf_reself (buckets : ExtTreeMap BucketKey BucketState) (m : Multiset Entry)
    (e : Entry) (n : ℕ) (h : BucketsOf fits buckets (e ::ₘ m))
    (hcard : fits → m.card + 1 ≤ 2 ^ 32) :
    ∃ st : BucketState, buckets[e.bucket]? = some st ∧
      BucketsOf fits (buckets.insert e.bucket ((st.remove e.totalNs e.selfNs).add e.totalNs n))
        ({ e with selfNs := n } ::ₘ m) := by
  have hkey : contribution (e ::ₘ m) e.bucket =
      (e.totalNs, e.selfNs) ::ₘ contribution m e.bucket := by
    rw [contribution_cons, if_pos rfl]
  obtain ⟨st, hget, hst⟩ := h.present e.bucket (by rw [hkey]; exact Multiset.cons_ne_zero)
  have hsmall := card_contribution_le m e.bucket
  refine ⟨st, hget, ?_⟩
  apply bucketsOf_insert_of fits buckets _ _ h
  · rw [contribution_cons, if_pos rfl]
    apply holds_add
    apply holds_remove
    · rw [← hkey]
      exact hst
    · intro hf
      exact (Nat.succ_le_succ hsmall).trans (hcard hf)
  · rw [contribution_cons, if_pos rfl]
    exact Multiset.cons_ne_zero
  · intro k hk
    rw [contribution_cons, contribution_cons, if_neg (Ne.symm hk), if_neg (Ne.symm hk)]

end TracingConsole.Analysis
