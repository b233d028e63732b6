import TracingConsole.Analysis.AggregatorRuns

/-!
# The statistics of the aggregator are exact

`Exact a` says that everything the aggregator keeps incrementally is what a computation
from scratch over the entries of the ring gives: which buckets there are, their counts,
sums, minima and maxima, the total and the self time of every entry, and the running sum of
every parent.

`statistics_exact`: every run that absorbs distinct ids, on a ring of at most `2 ^ 32`
spans, ends in an exact state.  The bound is that of the `u32` counts of a bucket's
multisets (state.rs:21-22); `statistics_overflow` is a run on a ring of one span more whose
bucket forgets its minimum.
-/

set_option autoImplicit false

namespace TracingConsole.Analysis

open Std (ExtTreeMap)
open TracingConsole.Library TracingConsole.Model TracingConsole.Model.Aggregator

/-! ## From scratch -/

/-- INTERNAL: the `(total, self)` pairs of the ring entries in a bucket, oldest first. -/
def bucketPairs (a : Aggregator) (key : BucketKey) : List (ℕ × ℕ) :=
  (a.ringEntries.filter fun e => e.bucket = key).map fun e => (e.totalNs, e.selfNs)

/-- INTERNAL: the spans of the ring, oldest first. -/
def ringList (a : Aggregator) : List WireSpan := a.ringEntries.map Entry.span

/-- INTERNAL: **the aggregator is exactly the aggregate of its ring**.
SRCLINE: state.rs:25-122 -/
structure Exact (a : Aggregator) : Prop where
  ids_eq : (ringList a).map WireSpan.id = a.order
  key_iff : ∀ key, key ∈ a.buckets ↔ ∃ e ∈ a.ringEntries, e.bucket = key
  stats_eq : ∀ key st, a.buckets[key]? = some st → st.toStackStats = statsOf (bucketPairs a key)
  total_eq : ∀ e ∈ a.ringEntries, e.totalNs = totalOf e.span
  self_eq : ∀ e ∈ a.ringEntries, e.selfNs = e.totalNs - childTotal (ringList a) e.span.id
  child_sum_eq : ∀ id ∈ a.order, a.childSumFor id = childTotal (ringList a) id

/-- INTERNAL: an entry of the ring is stored under an id of the queue. -/
theorem mem_ringEntries (a : Aggregator) (e : Entry) :
    e ∈ a.ringEntries ↔ ∃ id ∈ a.order, a.byId[id]? = some e := by
  unfold ringEntries
  rw [List.mem_filterMap]

/-- INTERNAL: the pairs of a bucket are what its entries contribute. -/
theorem coe_bucketPairs (a : Aggregator) (hlocked : Locked a) (key : BucketKey) :
    (bucketPairs a key : Multiset (ℕ × ℕ)) = contribution (ring a) key := by
  rw [bucketPairs, ← Multiset.map_coe, ← Multiset.filter_coe, coe_ringEntries a hlocked,
    contribution]

/-- INTERNAL: a row is a bucket with its statistics.
SRCLINE: state.rs:406-425 -/
theorem mem_rows (a : Aggregator) (row : BucketKey × StackStats) :
    row ∈ a.rows ↔ ∃ st, a.buckets[row.1]? = some st ∧ row.2 = st.toStackStats := by
  unfold Aggregator.rows
  rw [List.mem_insertionSort, List.mem_map]
  constructor
  · rintro ⟨kv, hkv, rfl⟩
    exact ⟨kv.2, ExtTreeMap.mem_toList_iff_getElem?_eq_some.mp hkv, rfl⟩
  · rintro ⟨st, hst, hstats⟩
    refine ⟨(row.1, st), ExtTreeMap.mem_toList_iff_getElem?_eq_some.mpr hst, ?_⟩
    rw [← hstats]

/-- INTERNAL: the ids of the spans of the ring are those of the queue. -/
theorem ringList_ids (a : Aggregator) (hlocked : Locked a)
    (hid : ∀ id x, located a id = some x → x.1.id = id) :
    (ringList a).map WireSpan.id = a.order := by
  unfold ringList ringEntries
  rw [List.map_map, List.map_filterMap]
  rw [← List.filterMap_some (l := a.order)]
  rw [List.filterMap_filterMap]
  apply List.filterMap_congr
  intro id hin
  obtain ⟨e, he⟩ := Option.isSome_iff_exists.mp
    (ExtTreeMap.isSome_getElem?_iff_mem.mpr ((hlocked.mem_iff id).mp hin))
  have hname : e.span.id = id := hid id _ (by rw [located, he]; rfl)
  simp [he, hname]

/-- INTERNAL: **the invariants of the ring say that its aggregate is exact**. -/
theorem exact_of_invariants (a : Aggregator) (hlocked : Locked a)
    (hid : ∀ id x, located a id = some x → x.1.id = id) (htallied : Tallied True a)
    (hbalanced : Balanced a 0) : Exact a := by
  have hring := coe_ringEntries a hlocked
  have hspans : (ringList a : Multiset WireSpan) = ringSpans a := by
    rw [ringList, ← Multiset.map_coe, hring, ringSpans]
  have hentry : ∀ e, e ∈ a.ringEntries → a.byId[e.span.id]? = some e := by
    intro e he
    obtain ⟨id, -, hget⟩ := (mem_ringEntries a e).mp he
    have hname : e.span.id = id := hid id _ (by rw [located, hget]; rfl)
    rw [hname]
    exact hget
  have hpairs := coe_bucketPairs a hlocked
  refine ⟨?_, ?_, ?_, ?_, ?_, ?_⟩
  · exact ringList_ids a hlocked hid
  · intro key
    rw [htallied.buckets.mem_iff, ← hring]
    exact Iff.rfl
  · intro key st hget
    have hholds := (holds_of_get True _ _ htallied.buckets key st hget).2
    rw [← hpairs] at hholds
    exact toStackStats_of_holds True st _ trivial hholds
  · intro e he
    exact htallied.total_eq e.span.id e (hentry e he)
  · intro e he
    have hself := hbalanced.self_eq e.span.id e (hentry e he)
    have hsum := hbalanced.sum_eq e.span.id e (hentry e he)
    rw [add_zero] at hsum
    rw [hspans, ← hsum]
    exact hself
  · intro id hin
    obtain ⟨e, he⟩ := Option.isSome_iff_exists.mp
      (ExtTreeMap.isSome_getElem?_iff_mem.mpr ((hlocked.mem_iff id).mp hin))
    have hsum := hbalanced.sum_eq id e he
    rw [add_zero] at hsum
    rw [hspans]
    exact hsum

/-! ## The two books along a run -/

/-- INTERNAL: the ids are distinct and the totals of the children of any one parent fit a
word.
SRCLINE: state.rs:105-108 -/
def WordSums (spans : Multiset WireSpan) : Prop :=
  DistinctIds spans ∧ ∀ p, childTotal spans p < 2 ^ 64

/-- INTERNAL: fewer spans have sums within a word too. -/
theorem WordSums.mono (s t : Multiset WireSpan) (hle : s ≤ t) (h : WordSums t) : WordSums s :=
  ⟨DistinctIds.mono s t hle h.1, fun p => (childTotal_mono s t hle p).trans_lt (h.2 p)⟩

/-- INTERNAL: in every run the buckets are the aggregate of the ring, and their multisets
too when the ring cannot outgrow a `u32`.
SRCLINE: state.rs:147-153, 213-306, 427-462 -/
theorem tallied_runInvariant (budget : ℕ) (fits : Prop) (good : Multiset WireSpan → Prop)
    (hgood : ∀ s, good s → DistinctIds s)
    (hsize : fits → ∀ seen a work, good seen → Kept budget seen a work →
      a.order.length ≤ 2 ^ 32) :
    RunInvariant good fun seen a work => Kept budget seen a work ∧ Tallied fits a := by
  apply ((kept_runInvariant budget).strengthen _ _ _ hgood).and
  · intro seen c c' hseen hkept _ h hc
    have hids := hgood seen hseen
    have hlen := fun hf => hsize hf seen c.agg c.work hseen hkept
    rcases cascadeStep_cases _ _ hc with
      ⟨w, rest, p, -, -, -, rfl⟩ | ⟨w, rest, b, r, a', hwork, -, hplace, rfl⟩
    · obtain ⟨-, -, hbyId, -, hbuckets⟩ := parkPending_frame c.agg p w
      exact tallied_congr _ c.agg _ hbyId hbuckets h
    · rw [hwork] at hkept
      obtain ⟨hnone, -⟩ := hkept.placeable _ _ _ _ _ hids
      obtain ⟨-, -, hbyId, -, hbuckets⟩ := takeWaiters_frame a' w.id
      apply tallied_congr _ a' _ hbyId hbuckets
      exact tallied_place _ c.agg a' w b r hplace h hkept.locked hnone hlen
  · intro seen a w _ h
    exact h
  · intro seen a keys _
    have hring : ring (cleared a keys) = 0 := values_empty
    refine ⟨fun id e he => by simp [cleared] at he, ?_⟩
    rw [hring]
    exact bucketsOf_empty _
  · intro seen seen' a b _ h' _
    exact tallied_congr _ b _ rfl rfl h'

/-- INTERNAL: tallies hold without the bound on the words. -/
theorem Tallied.weaken (fits : Prop) (a : Aggregator) (h : Tallied fits a) : Tallied False a := by
  refine ⟨h.total_eq, h.buckets.absent, ?_⟩
  intro key hkey
  obtain ⟨st, hget, hholds⟩ := h.buckets.present key hkey
  exact ⟨st, hget, hholds.count_eq, hholds.total_sum, hholds.self_sum, False.elim, False.elim⟩

/-- INTERNAL: in every run the running sums and self times are those of the children.
SRCLINE: state.rs:147-153, 213-306, 427-462 -/
theorem balanced_runInvariant (budget : ℕ) (fits : Prop) (good : Multiset WireSpan → Prop)
    (hgood : ∀ s, good s → WordSums s)
    (hsize : fits → ∀ seen a work, good seen → Kept budget seen a work →
      a.order.length ≤ 2 ^ 32) :
    RunInvariant good fun seen a work =>
      (Kept budget seen a work ∧ Tallied fits a) ∧ Balanced a 0 := by
  apply (tallied_runInvariant budget fits good (fun s h => (hgood s h).1) hsize).and
  · intro seen c c' hseen hold _ h hc
    obtain ⟨hkept, htallied⟩ := hold
    have hsums := hgood seen hseen
    rcases cascadeStep_cases _ _ hc with
      ⟨w, rest, p, -, -, -, rfl⟩ | ⟨w, rest, b, r, a', hwork, hres, hplace, rfl⟩
    · obtain ⟨-, -, hbyId, hsum, -⟩ := parkPending_frame c.agg p w
      exact balanced_congr c.agg _ 0 hbyId hsum h
    · rw [hwork] at hkept
      obtain ⟨hnone, hchildless⟩ := hkept.placeable _ _ _ _ _ hsums.1
      obtain ⟨-, -, hbyId, hrunning, -⟩ := takeWaiters_frame a' w.id
      apply balanced_congr a' _ 0 hbyId hrunning
      apply balanced_place c.agg a' w b r hplace h (htallied.weaken _ _) hnone
      · intro p hp
        rcases resolve_eq_some c.agg w b r hres with ⟨hroot, -⟩ | ⟨-, -, -, -, -, hr⟩
        · rw [hp] at hroot
          cases hroot
        · exact hr
      · intro v hv
        rcases Multiset.mem_cons.mp hv with rfl | hold
        · intro hself
          exact (hkept.parent_past _ _ _ _ _ hsums.1 b r hres v.id hself).1 rfl
        · exact hchildless v hold
      · intro p
        apply (childTotal_mono _ seen _ p).trans_lt (hsums.2 p)
        refine le_trans ?_ hkept.bag
        rw [← Multiset.cons_coe, Multiset.add_cons, Multiset.add_cons]
        exact Multiset.cons_le_cons w (Multiset.le_add_right _ _)
  · intro seen a w _ h
    exact h
  · intro seen a keys _
    refine ⟨?_, ?_, ?_⟩
    · intro id e he
      simp [cleared] at he
    · intro id e he
      simp [cleared] at he
    · intro id _
      simp [cleared]
  · intro seen seen' a b _ h' _
    exact balanced_congr b _ 0 rfl rfl h'

/-! ## Every run is exact -/

/-- CODE: state.rs:231-391, 430-462 — **the statistics are exact after every run** of
absorptions and split changes on a ring of at most `2 ^ 32` spans, whatever is evicted,
parked, drained or rebuilt on the way. -/
theorem statistics_exact (budget : ℕ) (ops : List AggregatorOp) (hpos : 1 ≤ budget)
    (hfits : budget ≤ 2 ^ 32) (hids : ((absorbedSpans ops).map WireSpan.id).Nodup)
    (hword : ∀ p, childTotal (absorbedSpans ops) p < 2 ^ 64) :
    ∃ a, run AggregatorOp.perform (Aggregator.new budget) ops = some a ∧ Exact a := by
  obtain ⟨a, hrun⟩ := run_total ops (Aggregator.new budget) hpos
  have hgood : WordSums (0 + (absorbedSpans ops : Multiset WireSpan)) := by
    rw [zero_add]
    exact ⟨distinctIds_coe (absorbedSpans ops) hids, hword⟩
  have hstart : (Kept budget 0 (Aggregator.new budget) [] ∧
      Tallied True (Aggregator.new budget)) ∧
        Balanced (Aggregator.new budget) 0 :=
    ⟨⟨kept_new budget, tallied_new _ budget⟩, balanced_new budget⟩
  have hinvariant := balanced_runInvariant budget True WordSums (fun _ h => h)
    fun _ seen a work _ hkept => hkept.room.trans hfits
  obtain ⟨⟨hkept, htallied⟩, hbalanced⟩ := run_kept WordSums _ hinvariant WordSums.mono
    (fun seen a h => (Multiset.le_add_right _ _).trans h.1.1.bag) ops 0
    (Aggregator.new budget) a hgood hstart hrun
  exact ⟨a, hrun, exact_of_invariants a hkept.locked hkept.id_eq htallied hbalanced⟩

/-- INTERNAL: a closed span without fields, by its id, its parent and its total. -/
def plainSpan (id : ℕ) (parentId : Option ℕ) (totalNs : ℕ) : WireSpan where
  id := id
  parentId := parentId
  name := "a"
  target := "t"
  level := .info
  fields := []
  events := []
  openedAtNs := 0
  closedAtNs := some totalNs

/-- INTERNAL: the children of one span are among all. -/
theorem childTotal_le_sum (m : Multiset WireSpan) (p : ℕ) :
    childTotal m p ≤ (m.map totalOf).sum := by
  obtain ⟨d, hd⟩ := Multiset.le_iff_exists_add.mp (Multiset.filter_le (·.parentId = some p) m)
  have hsum := congrArg (fun s => (s.map totalOf).sum) hd
  simp only [Multiset.map_add, Multiset.sum_add] at hsum
  unfold childTotal
  omega

/-- CODE: state.rs:231-391, 430-462 — a ring of two spans through a parked child, a split
rebuild and an eviction. -/
theorem statistics_exact_small :
    ∃ a, run AggregatorOp.perform (Aggregator.new 2)
      [.absorb (plainSpan 2 (some 1) 3), .absorb (plainSpan 1 none 7), .setSplitKeys {"api"},
        .absorb (plainSpan 3 none 5)] = some a ∧ Exact a := by
  apply statistics_exact
  · decide
  · decide
  · decide
  · intro p
    apply (childTotal_le_sum _ p).trans_lt
    decide

/-! ## Beyond `2 ^ 32` spans a bucket forgets -/

/-- INTERNAL: the bucket of every root `plainSpan`. -/
def plainKey : BucketKey := ⟨["a"], []⟩

/-- INTERNAL: the ring holds the roots `0, …, n - 1`, all of total 7, and nothing waits. -/
structure Flooded (budget n : ℕ) (a : Aggregator) : Prop where
  order_eq : a.order = List.range n
  entry_eq : ∀ id : ℕ, a.byId[id]? =
    if id < n then some ⟨plainSpan id none 7, plainKey, 7, 7⟩ else none
  holds : Holds True (a.buckets.getD plainKey {}) (Multiset.replicate n (7, 7))
  stored : 0 < n → plainKey ∈ a.buckets
  childSum_eq : a.childSum = ∅
  pending_eq : a.pending = ∅
  budget_eq : a.historyBudget = budget

/-- INTERNAL: the flood starts empty. -/
theorem flooded_new (budget : ℕ) : Flooded budget 0 (Aggregator.new budget) := by
  refine ⟨rfl, ?_, ?_, ?_, rfl, rfl, rfl⟩
  · intro id
    simp [Aggregator.new]
  · simpa [Aggregator.new] using holds_empty True
  · intro h
    omega

/-- INTERNAL: absorbing a root that nothing waits for is placing it. -/
theorem absorb_plain (a a₁ : Aggregator) (id total : ℕ) (hsums : a.childSum = ∅)
    (hroom : a.makeRoom = some a₁) (hpending₁ : a₁.pending = ∅) :
    AggregatorOp.perform a (.absorb (plainSpan id none total)) =
      some (a₁.insertEntry ⟨plainSpan id none total, plainKey, total, total⟩) := by
  have hresolve : a.resolve (plainSpan id none total) = some (plainKey, false) := by
    simp [Aggregator.resolve, plainSpan, resolveRoot, collectSplits, pushSplits, plainKey]
  have hentry : a.entryOf (plainSpan id none total) plainKey =
      ⟨plainSpan id none total, plainKey, total, total⟩ := by
    simp [entryOf, hsums, totalOf, plainSpan]
  have hcharge : a₁.chargeParent false (plainSpan id none total) = a₁ := rfl
  have htake : (a₁.insertEntry ⟨plainSpan id none total, plainKey, total, total⟩).takeWaiters id =
      ([], a₁.insertEntry ⟨plainSpan id none total, plainKey, total, total⟩) := by
    unfold takeWaiters
    have : (a₁.insertEntry ⟨plainSpan id none total, plainKey, total, total⟩).pending = ∅ :=
      hpending₁
    rw [this]
    simp
  have hid : (plainSpan id none total).id = id := rfl
  simp only [AggregatorOp.perform, absorb, absorbResolvedAll, absorbResolved, hresolve, place,
    hroom, hentry, hcharge, Option.map_some, hid, htake, List.foldlM_nil]
  rfl

/-- INTERNAL: one more root, while there is room. -/
theorem flooded_step (budget n : ℕ) (a : Aggregator) (h : Flooded budget n a)
    (hroom : n < budget) :
    ∃ a', AggregatorOp.perform a (.absorb (plainSpan n none 7)) = some a' ∧
      Flooded budget (n + 1) a' := by
  have hmake : a.makeRoom = some a := by
    apply makeRoom_of_room
    rw [h.order_eq, List.length_range, h.budget_eq]
    exact hroom
  refine ⟨_, absorb_plain a a n 7 h.childSum_eq hmake h.pending_eq, ?_⟩
  refine ⟨?_, ?_, ?_, ?_, h.childSum_eq, h.pending_eq, h.budget_eq⟩
  · rw [(insertEntry_frame _ _).2.2.1, h.order_eq, List.range_succ]
    rfl
  · intro id
    unfold insertEntry
    rw [getElem?_insert_eq, h.entry_eq id]
    change (if id = n then _ else _) = _
    by_cases hid : id = n
    · subst hid
      simp
    · have : id < n ↔ id < n + 1 := by omega
      simp [hid, this]
  · have hadd := holds_add True _ _ 7 7 h.holds
    rw [← Multiset.replicate_succ] at hadd
    unfold insertEntry
    rw [ExtTreeMap.getD_eq_getD_getElem?, getElem?_insert_eq, if_pos rfl, Option.getD_some]
    exact hadd
  · intro _
    unfold insertEntry
    exact ExtTreeMap.mem_insert_self

/-- INTERNAL: `n` equal roots. -/
def floodOps (n : ℕ) : List AggregatorOp :=
  (List.range n).map fun id => .absorb (plainSpan id none 7)

/-- INTERNAL: a flood that fits goes through. -/
theorem flooded_run (budget n : ℕ) (hroom : n ≤ budget) :
    ∃ a, run AggregatorOp.perform (Aggregator.new budget) (floodOps n) = some a ∧
      Flooded budget n a := by
  induction n with
  | zero => exact ⟨_, rfl, flooded_new budget⟩
  | succ n ih =>
    obtain ⟨a, hrun, hflooded⟩ := ih (by omega)
    obtain ⟨a', hstep, hflooded'⟩ := flooded_step budget n a hflooded (by omega)
    refine ⟨a', ?_, hflooded'⟩
    have hsplit : floodOps (n + 1) = floodOps n ++ [.absorb (plainSpan n none 7)] := by
      unfold floodOps
      rw [List.range_succ, List.map_append, List.map_singleton]
    rw [hsplit, run_append, hrun]
    change (AggregatorOp.perform a (.absorb (plainSpan n none 7))).bind _ = some a'
    rw [hstep]
    rfl

/-- INTERNAL: the count of `B` equal values is stored as one, and one removal drops the key
although there are `B - 1` left.
SRCLINE: state.rs:66-75 -/
theorem wrapped_msDec (t : ExtTreeMap ℕ ℕ) (B v : ℕ) (hB : B % 2 ^ 32 = 1)
    (h : Tallies (2 ^ 32) t (Multiset.replicate B v)) : Tallies (2 ^ 32) (msDec t v) 0 := by
  have hread : t[v]? = some 1 := by
    have hcount := h v
    have hne : B ≠ 0 := by
      rintro rfl
      omega
    rw [Multiset.count_replicate_self, if_neg hne, hB] at hcount
    exact hcount
  have hdrop : msDec t v = t.erase v := by
    unfold msDec tallyDec
    simp only [hread]
    rfl
  intro k
  rw [hdrop, getElem?_erase_eq, Multiset.count_zero, if_pos rfl]
  by_cases hk : k = v
  · rw [if_pos hk]
  · have hother := h k
    rw [Multiset.count_replicate, if_neg (Ne.symm hk), if_pos rfl] at hother
    rw [if_neg hk]
    exact hother

section FullRing

variable (k : ℕ) (a : Aggregator) (h : Flooded (k + 1) (k + 1) a)

include h

/-- INTERNAL: the ring of the flood, oldest first. -/
theorem flooded_order : a.order = 0 :: (List.range k).map Nat.succ := by
  rw [h.order_eq, List.range_succ_eq_map]

/-- INTERNAL: the first span of the flood is in the ring. -/
theorem flooded_first : a.byId[0]? = some ⟨plainSpan 0 none 7, plainKey, 7, 7⟩ := by
  rw [h.entry_eq 0, if_pos (Nat.succ_pos k)]

/-- INTERNAL: making room in a full ring is one eviction.
SRCLINE: state.rs:252-298 -/
theorem flooded_makeRoom : a.makeRoom = some a.evictOldest := by
  have hlen : a.order.length = k + 1 := by
    rw [h.order_eq, List.length_range]
  have hbudget : a.evictOldest.historyBudget = k + 1 :=
    (congrArg (fun c => c.2.2) (evictOldest_config a)).trans h.budget_eq
  have hlt : a.evictOldest.order.length < a.evictOldest.historyBudget := by
    rw [evictOldest_order, List.length_tail, hlen, hbudget]
    omega
  have hfull : ¬ a.order.length < a.historyBudget := by
    rw [hlen, h.budget_eq]
    omega
  have hstop : makeRoomWithin k a.evictOldest = some a.evictOldest := by
    cases k with
    | zero =>
      unfold makeRoomWithin
      rw [if_pos hlt]
    | succ k =>
      unfold makeRoomWithin
      rw [if_pos hlt]
  unfold makeRoom
  rw [hlen, makeRoomWithin, if_neg hfull]
  exact hstop

/-- INTERNAL: its eviction parks nothing. -/
theorem flooded_evicted_pending : a.evictOldest.pending = ∅ := by
  have htake : a.takeWaiters 0 = ([], a) := by
    unfold takeWaiters
    rw [h.pending_eq]
    simp
  have hpool := pool_evictOldest a 0 _ _ (flooded_order k a h) (flooded_first k a h)
  rw [htake] at hpool
  exact (congrArg Prod.fst hpool).trans h.pending_eq

/-- INTERNAL: the bucket without the root that is evicted.
SRCLINE: state.rs:321-364 -/
theorem flooded_evicted_bucket (htwo : 2 ≤ k + 1) (st : BucketState)
    (hst : a.buckets[plainKey]? = some st) (hcard : st.count = k + 1) :
    a.evictOldest.buckets[plainKey]? = some (st.remove 7 7) := by
  obtain ⟨c, hstages, -, -, hbuckets⟩ := evictOldest_stages a 0 _ _ (flooded_order k a h)
    (flooded_first k a h)
  have hcount : (st.remove 7 7).count ≠ 0 := by
    change st.count - 1 ≠ 0
    omega
  rw [hstages]
  change ((c.dropContribution _).buckets)[plainKey]? = _
  unfold dropContribution
  rw [hbuckets]
  simp only [hst]
  rw [if_neg hcount, getElem?_insert_eq, if_pos rfl]

end FullRing

/-- INTERNAL: in a ring full of `B` equal roots, the next root of another total evicts one
of them and the bucket forgets the total of the rest.
SRCLINE: state.rs:252-298, 321-364 -/
theorem flooded_overflow (B : ℕ) (hB : B % 2 ^ 32 = 1) (htwo : 2 ≤ B) (a : Aggregator)
    (h : Flooded B B a) :
    ∃ a', AggregatorOp.perform a (.absorb (plainSpan B none 9)) = some a' ∧ ¬ Exact a' := by
  obtain ⟨k, rfl⟩ : ∃ k, B = k + 1 := ⟨B - 1, by omega⟩
  have horder := flooded_order k a h
  have hroom := flooded_makeRoom k a h
  have hpending := flooded_evicted_pending k a h
  -- the bucket after the eviction
  obtain ⟨st, hst⟩ := Option.isSome_iff_exists.mp
    (ExtTreeMap.isSome_getElem?_iff_mem.mpr (h.stored (by omega)))
  have hholds := h.holds
  rw [ExtTreeMap.getD_eq_getD_getElem?, hst, Option.getD_some] at hholds
  have hcard : st.count = k + 1 := by
    rw [hholds.count_eq, Multiset.card_replicate]
  have hevicted := flooded_evicted_bucket k a h htwo st hst hcard
  refine ⟨_, absorb_plain a a.evictOldest (k + 1) 9 h.childSum_eq hroom hpending, ?_⟩
  intro hexact
  set a' := a.evictOldest.insertEntry ⟨plainSpan (k + 1) none 9, plainKey, 9, 9⟩ with ha'
  -- the bucket knows the total of the new root only
  have hstats := hexact.stats_eq plainKey ((st.remove 7 7).add 9 9) (by
    rw [ha', insertEntry, ExtTreeMap.getD_eq_getD_getElem?, hevicted, getElem?_insert_eq,
      if_pos rfl, Option.getD_some])
  have hmin : ((st.remove 7 7).add 9 9).toStackStats.totalMinNs = 9 := by
    have htotals := hholds.totals trivial
    rw [Multiset.map_replicate] at htotals
    have htally := tallies_inc _ _ _ 9 (wrapped_msDec _ (k + 1) 7 hB htotals)
    have hread := msMinMax_of_tallies _ [9] htally
    change (msMinMax (tallyInc (2 ^ 32) (msDec st.totalNsMultiset 7) 9)).1 = 9
    rw [hread]
    rfl
  -- but the root 1 is in the ring, with a total of 7
  have hlocated : located a' 1 = some (plainSpan 1 none 7, plainKey, 7) := by
    rw [ha', located_insertEntry, located_evictOldest a 0 _ 1 horder]
    have hne : ¬ 1 = (plainSpan (k + 1) none 9).id := by
      change ¬ 1 = k + 1
      omega
    rw [if_neg hne, if_neg (by decide), located, h.entry_eq 1, if_pos (by omega)]
    rfl
  obtain ⟨e, he, heq⟩ := Option.map_eq_some_iff.mp hlocated
  simp only [Prod.mk.injEq] at heq
  have hmem : (7, e.selfNs) ∈ bucketPairs a' plainKey := by
    unfold bucketPairs
    rw [List.mem_map]
    refine ⟨e, ?_, by rw [heq.2.2]⟩
    rw [List.mem_filter]
    refine ⟨(mem_ringEntries a' e).mpr ⟨1, ?_, he⟩, by simpa using heq.2.1⟩
    rw [ha', (insertEntry_frame _ _).2.2.1, evictOldest_order, horder, List.tail_cons]
    apply List.mem_append_left
    rw [List.mem_map]
    exact ⟨0, by rw [List.mem_range]; omega, rfl⟩
  rw [hstats] at hmin
  change (((bucketPairs a' plainKey).map Prod.fst).min?).getD 0 = 9 at hmin
  cases hlow : ((bucketPairs a' plainKey).map Prod.fst).min? with
  | none =>
    rw [hlow] at hmin
    cases hmin
  | some low =>
    rw [hlow, Option.getD_some] at hmin
    have hle := (List.min?_eq_some_iff.mp hlow).2 7 (List.mem_map.mpr ⟨_, hmem, rfl⟩)
    omega

/-- INTERNAL: one root more than a `u32` counts, and a root of another total. -/
def overflowOps : List AggregatorOp :=
  floodOps (2 ^ 32 + 1) ++ [.absorb (plainSpan (2 ^ 32 + 1) none 9)]

/-- INTERNAL: what a flood absorbs. -/
theorem absorbedSpans_flood (n : ℕ) :
    absorbedSpans (floodOps n ++ [.absorb (plainSpan n none 9)]) =
      (List.range n).map (fun id => plainSpan id none 7) ++ [plainSpan n none 9] := by
  unfold absorbedSpans floodOps
  rw [List.filterMap_append, List.filterMap_map]
  congr 1
  rw [← List.filterMap_eq_map]
  rfl

/-- CODE: state.rs:21-22, 66-75 — on a ring of `2 ^ 32 + 1` spans the statistics are not
exact: the `u32` count of a total shared by all of them wraps to one, and the eviction of
the first span erases the total of all the others. -/
theorem statistics_overflow :
    ((absorbedSpans overflowOps).map WireSpan.id).Nodup ∧
    (∀ p, childTotal (absorbedSpans overflowOps) p < 2 ^ 64) ∧
    ∃ a, run AggregatorOp.perform (Aggregator.new (2 ^ 32 + 1)) overflowOps = some a ∧
      ¬ Exact a := by
  have key : ∀ n : ℕ, n % 2 ^ 32 = 1 → 2 ≤ n →
      ((absorbedSpans (floodOps n ++ [.absorb (plainSpan n none 9)])).map WireSpan.id).Nodup ∧
      (∀ p, childTotal (absorbedSpans (floodOps n ++ [.absorb (plainSpan n none 9)])) p <
        2 ^ 64) ∧
      ∃ a, run AggregatorOp.perform (Aggregator.new n)
        (floodOps n ++ [.absorb (plainSpan n none 9)]) = some a ∧ ¬ Exact a := by
    intro n hn htwo
    rw [absorbedSpans_flood]
    refine ⟨?_, ?_, ?_⟩
    · have hids : ((List.range n).map (fun id => plainSpan id none 7) ++
          [plainSpan n none 9]).map WireSpan.id = List.range (n + 1) := by
        rw [List.map_append, List.map_map, List.range_succ]
        congr 1
        exact List.map_id _
      rw [hids]
      exact List.nodup_range
    · intro p
      rw [childTotal_eq_zero]
      · decide
      · intro w hw
        rw [Multiset.mem_coe, List.mem_append, List.mem_map, List.mem_singleton] at hw
        rcases hw with ⟨id, -, rfl⟩ | rfl
        · exact (Option.some_ne_none p).symm
        · exact (Option.some_ne_none p).symm
    · obtain ⟨a, hrun, hflooded⟩ := flooded_run n n le_rfl
      obtain ⟨a', hlast, hinexact⟩ := flooded_overflow n hn htwo a hflooded
      refine ⟨a', ?_, hinexact⟩
      rw [run_append, hrun]
      change (AggregatorOp.perform a (.absorb (plainSpan n none 9))).bind _ = some a'
      rw [hlast]
      rfl
  exact key (2 ^ 32 + 1) (by decide) (by decide)

end TracingConsole.Analysis
