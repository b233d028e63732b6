import TracingConsole.Analysis.AggregatorRuns
import TracingConsole.Model.Snapshot

/-!
# The counter of the pending pool

The pool keeps its length in a counter of its own and drops buckets while that exceeds the cap.
The counter is right and within the cap in every state a run reaches, so what is parked there
can be parked again, one span after the other, without a drop (`parkAll_fits`).  A span is parked
under its parent, and only while that is not in the ring (`Waiting`).
-/

set_option autoImplicit false

namespace TracingConsole.Analysis

open Std (ExtTreeMap)
open TracingConsole.Library TracingConsole.Model TracingConsole.Model.Aggregator

/-- INTERNAL: the counter is the number of parked spans.
SRCLINE: state.rs:110-113 -/
def Counted (a : Aggregator) : Prop := a.pendingLen = (parked a).card

/-- INTERNAL: **the pool is counted and within its cap**.
SRCLINE: state.rs:110-122 -/
structure Pooled (a : Aggregator) : Prop where
  counted : Counted a
  bounded : a.pendingLen ≤ a.pendingCap
  cap_eq : a.pendingCap = max (a.historyBudget / 4) 1

/-- INTERNAL: the aggregator starts with nothing parked. -/
theorem pooled_new (budget : ℕ) : Pooled (Aggregator.new budget) := by
  refine ⟨?_, Nat.zero_le _, rfl⟩
  have hparked : parked (Aggregator.new budget) = 0 := parkedIn_empty
  unfold Counted
  rw [hparked]
  rfl

/-- INTERNAL: the pool and its cap are all there is to it. -/
theorem pooled_congr (a a' : Aggregator) (hpool : pool a' = pool a) (hconfig : config a' = config a)
    (h : Pooled a) : Pooled a' := by
  have hlen : a'.pendingLen = a.pendingLen := congrArg Prod.snd hpool
  have hcap : a'.pendingCap = a.pendingCap := congrArg Prod.fst hconfig
  have hbudget : a'.historyBudget = a.historyBudget := congrArg (fun c => c.2.2) hconfig
  refine ⟨?_, ?_, ?_⟩
  · unfold Counted
    rw [hlen, parked_congr a a' hpool]
    exact h.counted
  · rw [hlen, hcap]
    exact h.bounded
  · rw [hcap, hbudget]
    exact h.cap_eq

/-- INTERNAL: taking the spans of one parent out.
SRCLINE: state.rs:300-302, 331-333 -/
theorem pooled_takeWaiters (a : Aggregator) (id : ℕ) (h : Pooled a) :
    Pooled (a.takeWaiters id).2 := by
  have hsplit := congrArg Multiset.card (parked_takeWaiters a id)
  rw [Multiset.card_add, Multiset.coe_card, ← h.counted] at hsplit
  have hlen : (a.takeWaiters id).2.pendingLen =
      a.pendingLen - (a.takeWaiters id).1.length := by
    unfold takeWaiters
    split <;> rfl
  obtain ⟨hconfig, -⟩ := takeWaiters_frame a id
  have hcap : (a.takeWaiters id).2.pendingCap = a.pendingCap := congrArg Prod.fst hconfig
  have hbudget : (a.takeWaiters id).2.historyBudget = a.historyBudget :=
    congrArg (fun c => c.2.2) hconfig
  have hbounded := h.bounded
  refine ⟨?_, ?_, by rw [hcap, hbudget, h.cap_eq]⟩
  · unfold Counted
    omega
  · omega

/-- INTERNAL: the trim loop ends within the cap; it can drop every bucket once.
SRCLINE: state.rs:311-318 -/
theorem counted_trimPending (fuel : ℕ) (a : Aggregator) (h : Counted a)
    (hfuel : a.pending.size ≤ fuel) :
    Counted (trimPending fuel a) ∧ (trimPending fuel a).pendingLen ≤ a.pendingCap := by
  induction fuel generalizing a with
  | zero =>
    have hempty : a.pending = ∅ := ExtTreeMap.eq_empty_iff_size_eq_zero.mpr (by omega)
    have hnone : a.pendingLen = 0 := by
      rw [h, parked, hempty, parkedIn_empty, Multiset.card_zero]
    exact ⟨h, by rw [trimPending, hnone]; exact Nat.zero_le _⟩
  | succ fuel ih =>
    unfold trimPending
    split
    · next hover =>
      split
      · next p dropped rest hpop =>
        obtain ⟨hread, hrest, -⟩ := popFirst_eq_some _ _ _ _ hpop
        have hcard := congrArg Multiset.card (parkedIn_eq_add a.pending p dropped hread)
        rw [Multiset.card_add, Multiset.coe_card, ← hrest] at hcard
        have hlen : a.pendingLen = (parkedIn a.pending).card := h
        have hsize : rest.size ≤ fuel := by
          have hin : a.pending.contains p = true :=
            ExtTreeMap.isSome_getElem?_iff_mem.mp (by rw [hread]; rfl)
          rw [hrest, ExtTreeMap.size_erase, if_pos hin]
          omega
        apply ih { a with pending := rest, pendingLen := a.pendingLen - dropped.length }
        · change a.pendingLen - dropped.length = (parkedIn rest).card
          omega
        · exact hsize
      · next hnone =>
        have hempty : a.pending = ∅ := (popFirst_eq_none _).mp hnone
        have hzero : a.pendingLen = 0 := by
          rw [h, parked, hempty, parkedIn_empty, Multiset.card_zero]
        omega
    · next hfits => exact ⟨h, by omega⟩

/-- INTERNAL: SRCLINE: state.rs:308-319 -/
theorem pooled_parkPending (a : Aggregator) (p : ℕ) (w : WireSpan) (h : Pooled a) :
    Pooled (a.parkPending p w) := by
  have hconfig := (parkPending_frame a p w).1
  have hpushed := congrArg Multiset.card (parkedIn_push a.pending p w)
  rw [Multiset.card_cons] at hpushed
  have hlen : a.pendingLen = (parkedIn a.pending).card := h.counted
  have htrim := counted_trimPending (a.pending.insert p (a.pending.getD p [] ++ [w])).size
    { a with
      pending := a.pending.insert p (a.pending.getD p [] ++ [w])
      pendingLen := a.pendingLen + 1 }
    (by
      change a.pendingLen + 1 = (parkedIn (a.pending.insert p (a.pending.getD p [] ++ [w]))).card
      omega) le_rfl
  have hcap : (a.parkPending p w).pendingCap = a.pendingCap := congrArg Prod.fst hconfig
  have hbudget : (a.parkPending p w).historyBudget = a.historyBudget :=
    congrArg (fun c => c.2.2) hconfig
  refine ⟨htrim.1, ?_, by rw [hcap, hbudget, h.cap_eq]⟩
  rw [hcap]
  exact htrim.2

/-- INTERNAL: an eviction takes out what waited for the evicted span.
SRCLINE: state.rs:321-364 -/
theorem pooled_evictOldest (a : Aggregator) (h : Pooled a) : Pooled a.evictOldest := by
  by_cases hnone : ∀ id rest, a.order = id :: rest → a.byId[id]? = none
  · have hsame : pool a.evictOldest = pool a := by
      unfold evictOldest
      cases horder : a.order with
      | nil => rfl
      | cons id rest => simp only [hnone id rest horder]; rfl
    exact pooled_congr a _ hsame (evictOldest_config a) h
  · push Not at hnone
    obtain ⟨id, rest, horder, hsome⟩ := hnone
    obtain ⟨e, he⟩ := Option.ne_none_iff_exists'.mp hsome
    have hpool := pool_evictOldest a id rest e horder he
    have hconfig := (evictOldest_config a).trans (takeWaiters_frame a id).1.symm
    exact pooled_congr _ _ hpool hconfig (pooled_takeWaiters a id h)

/-- INTERNAL: SRCLINE: state.rs:252-298 -/
theorem pooled_place (a a' : Aggregator) (w : WireSpan) (b : BucketKey) (r : Bool)
    (hplace : a.place w b r = some a') (h : Pooled a) : Pooled a' := by
  obtain ⟨a₁, hroom, rfl⟩ := place_eq_some a a' w b r hplace
  have h₁ : Pooled a₁ := (makeRoomWithin_invariant Pooled pooled_evictOldest _ a a₁ h hroom).1
  obtain ⟨hconfig, hpool, -⟩ := placed_frame a₁ r w (a.entryOf w b)
  exact pooled_congr a₁ _ hpool hconfig h₁

/-- INTERNAL: a cascade step keeps the pool counted and bounded. -/
theorem pooled_step (c c' : Cascade) (h : Pooled c.agg) (hc : CascadeStep c c') :
    Pooled c'.agg := by
  rcases cascadeStep_cases _ _ hc with
    ⟨w, rest, p, -, -, -, rfl⟩ | ⟨w, rest, b, r, a', -, -, hplace, rfl⟩
  · exact pooled_parkPending c.agg p w h
  · exact pooled_takeWaiters a' w.id (pooled_place c.agg a' w b r hplace h)

/-- INTERNAL: SRCLINE: state.rs:434-446 -/
theorem pooled_cleared (a : Aggregator) (keys : Finset String) (h : Pooled a) :
    Pooled (cleared a keys) := by
  refine ⟨?_, Nat.zero_le _, h.cap_eq⟩
  have hparked : parked (cleared a keys) = 0 := parkedIn_empty
  unfold Counted
  rw [hparked]
  rfl

/-- INTERNAL: SRCLINE: state.rs:457-461 -/
theorem pooled_restored (a b : Aggregator) (h : Pooled a) (h' : Pooled b)
    (hbudget : b.historyBudget = a.historyBudget) :
    Pooled { b with pending := a.pending, pendingLen := a.pendingLen } := by
  have hcap : b.pendingCap = a.pendingCap := by rw [h.cap_eq, h'.cap_eq, hbudget]
  refine ⟨h.counted, ?_, h'.cap_eq⟩
  change a.pendingLen ≤ b.pendingCap
  rw [hcap]
  exact h.bounded

/-! ## Parking the pool again -/

/-- INTERNAL: parking the spans of one parent in a pool that has room for them.
SRCLINE: state.rs:557-559 -/
theorem parkAll_fits (b : Aggregator) (p : ℕ) (ws : List WireSpan)
    (hfits : b.pendingLen + ws.length ≤ b.pendingCap) :
    ∃ pending, b.parkAll p ws =
        { b with pending := pending, pendingLen := b.pendingLen + ws.length } ∧
      ∀ k, pending.getD k [] = b.pending.getD k [] ++ if k = p then ws else [] := by
  induction ws generalizing b with
  | nil =>
    refine ⟨b.pending, rfl, fun k => ?_⟩
    simp
  | cons w ws ih =>
    rw [List.length_cons] at hfits
    have hone := parkPending_of_fits b p w (by omega)
    obtain ⟨pending, hall, hread⟩ := ih (b.parkPending p w) (by
      rw [hone]
      dsimp only
      omega)
    refine ⟨pending, ?_, fun k => ?_⟩
    · unfold parkAll at hall ⊢
      rw [List.foldl_cons, hall, hone, List.length_cons]
      simp only [Nat.add_assoc, Nat.add_comm 1]
    · rw [hread k, hone]
      dsimp only
      rw [ExtTreeMap.getD_eq_getD_getElem?, getElem?_insert_eq]
      by_cases hk : k = p
      · subst hk
        simp
      · simp [hk, ExtTreeMap.getD_eq_getD_getElem?]

/-- INTERNAL: parking bucket after bucket.
SRCLINE: state.rs:556-560 -/
theorem parkBuckets_fits (b : Aggregator) (kvs : List (ℕ × List WireSpan))
    (hfits : b.pendingLen + (kvs.map fun kv => kv.2.length).sum ≤ b.pendingCap) :
    ∃ pending len, kvs.foldl (fun agg kv => agg.parkAll kv.1 kv.2) b =
        { b with pending := pending, pendingLen := len } ∧
      ∀ k, pending.getD k [] =
        b.pending.getD k [] ++ (kvs.flatMap fun kv => if k = kv.1 then kv.2 else []) := by
  induction kvs generalizing b with
  | nil => exact ⟨b.pending, b.pendingLen, rfl, fun k => by simp⟩
  | cons kv kvs ih =>
    rw [List.map_cons, List.sum_cons] at hfits
    obtain ⟨pending₁, hone, hread₁⟩ := parkAll_fits b kv.1 kv.2 (by omega)
    obtain ⟨pending, len, hall, hread⟩ := ih (b.parkAll kv.1 kv.2) (by
      rw [hone]
      dsimp only
      omega)
    refine ⟨pending, len, ?_, fun k => ?_⟩
    · rw [List.foldl_cons, hall, hone]
    · rw [hread k, hone, List.flatMap_cons, ← List.append_assoc]
      dsimp only
      rw [hread₁ k]

/-- INTERNAL: a table read bucket by bucket. -/
theorem flatMap_toList (t : ExtTreeMap ℕ (List WireSpan)) (k : ℕ) :
    (t.toList.flatMap fun kv => if k = kv.1 then kv.2 else []) = t.getD k [] := by
  have hother : ∀ kvs : List (ℕ × List WireSpan), (∀ kv ∈ kvs, kv.1 ≠ k) →
      (kvs.flatMap fun kv => if k = kv.1 then kv.2 else []) = [] := by
    intro kvs hne
    rw [List.flatMap_eq_nil_iff]
    intro kv hkv
    exact if_neg (Ne.symm (hne kv hkv))
  rw [ExtTreeMap.getD_eq_getD_getElem?]
  cases hget : t[k]? with
  | none =>
    apply hother
    rintro ⟨k', ws⟩ hkv rfl
    rw [ExtTreeMap.mem_toList_iff_getElem?_eq_some.mp hkv] at hget
    cases hget
  | some ws =>
    have hmem : (k, ws) ∈ t.toList := ExtTreeMap.mem_toList_iff_getElem?_eq_some.mpr hget
    have hdistinct := ExtTreeMap.distinct_keys_toList (t := t)
    obtain ⟨before, after, hsplit⟩ := List.append_of_mem hmem
    rw [hsplit, List.pairwise_append, List.pairwise_cons] at hdistinct
    have hbefore := hother before fun kv hkv heq => by
      have hne := hdistinct.2.2 kv hkv (k, ws) (by simp)
      exact hne (by rw [heq]; exact Std.ReflCmp.compare_self)
    have hafter := hother after fun kv hkv heq => by
      have hne := hdistinct.2.1.1 kv hkv
      exact hne (by rw [heq]; exact Std.ReflCmp.compare_self)
    rw [hsplit, List.flatMap_append, List.flatMap_cons, hbefore, hafter]
    simp

/-! ## Who waits for whom -/

/-- INTERNAL: **a span is parked under its parent, which is not in the ring**.
SRCLINE: state.rs:243-247, 300-333 -/
structure Waiting (a : Aggregator) : Prop where
  keyed : ∀ (p : ℕ) (ws : List WireSpan), a.pending[p]? = some ws → ∀ v ∈ ws, v.parentId = some p
  apart : ∀ (p : ℕ) (ws : List WireSpan), a.pending[p]? = some ws → a.byId[p]? = none

/-- INTERNAL: with fewer buckets and fewer entries. -/
theorem waiting_sub (a a' : Aggregator)
    (hpending : ∀ (p : ℕ) (ws : List WireSpan), a'.pending[p]? = some ws → a.pending[p]? = some ws)
    (hbyId : ∀ p : ℕ, a.byId[p]? = none → a'.byId[p]? = none) (h : Waiting a) : Waiting a' :=
  ⟨fun p ws hget => h.keyed p ws (hpending p ws hget),
    fun p ws hget => hbyId p (h.apart p ws (hpending p ws hget))⟩

/-- INTERNAL: an eviction drops the bucket of the evicted span and no other.
SRCLINE: state.rs:321-333 -/
theorem pending_evictOldest (a : Aggregator) (p : ℕ) (ws : List WireSpan)
    (hget : a.evictOldest.pending[p]? = some ws) : a.pending[p]? = some ws := by
  by_cases hnone : ∀ id rest, a.order = id :: rest → a.byId[id]? = none
  · rw [evictOldest_of_none a hnone] at hget
    exact hget
  · push Not at hnone
    obtain ⟨id, rest, horder, hsome⟩ := hnone
    obtain ⟨e, he⟩ := Option.ne_none_iff_exists'.mp hsome
    have hpool := congrArg Prod.fst (pool_evictOldest a id rest e horder he)
    have hpending : a.evictOldest.pending = a.pending.erase id :=
      hpool.trans (takeWaiters_pool a id).2
    rw [hpending, getElem?_erase_eq] at hget
    split at hget
    · cases hget
    · exact hget

/-- INTERNAL: SRCLINE: state.rs:321-364 -/
theorem waiting_evictOldest (a : Aggregator) (h : Waiting a) : Waiting a.evictOldest := by
  apply waiting_sub a _ (pending_evictOldest a) _ h
  intro p hnone
  rw [← located_eq_none] at hnone ⊢
  cases horder : a.order with
  | nil =>
    have hsame : a.evictOldest = a := by simp [evictOldest, horder]
    rw [hsame]
    exact hnone
  | cons id rest =>
    rw [located_evictOldest a id rest p horder]
    split
    · rfl
    · exact hnone

/-- INTERNAL: a placed span has taken its waiters out.
SRCLINE: state.rs:252-306 -/
theorem waiting_place (a a' : Aggregator) (w : WireSpan) (b : BucketKey) (r : Bool)
    (hplace : a.place w b r = some a') (h : Waiting a) : Waiting (a'.takeWaiters w.id).2 := by
  obtain ⟨a₁, hroom, rfl⟩ := place_eq_some a a' w b r hplace
  have h₁ : Waiting a₁ := (makeRoomWithin_invariant Waiting waiting_evictOldest _ a a₁ h hroom).1
  set a' := (a₁.chargeParent r w).insertEntry (a.entryOf w b) with ha'
  have hpool : a'.pending = a₁.pending :=
    congrArg Prod.fst (placed_frame a₁ r w (a.entryOf w b)).2.1
  have hbyId : (a'.takeWaiters w.id).2.byId = a'.byId := (takeWaiters_frame a' w.id).2.2.1
  have hpending : ∀ (p : ℕ) (ws : List WireSpan),
      (a'.takeWaiters w.id).2.pending[p]? = some ws → p ≠ w.id ∧ a₁.pending[p]? = some ws := by
    intro p ws hget
    rw [(takeWaiters_pool a' w.id).2, hpool, getElem?_erase_eq] at hget
    split at hget
    · cases hget
    · next hne => exact ⟨hne, hget⟩
  refine ⟨fun p ws hget => h₁.keyed p ws (hpending p ws hget).2, fun p ws hget => ?_⟩
  obtain ⟨hne, hold⟩ := hpending p ws hget
  have hnone := h₁.apart p ws hold
  rw [hbyId, ← located_eq_none, ha', located_placed,
    if_neg (show p ≠ (a.entryOf w b).span.id from hne)]
  exact (located_eq_none a₁ p).mpr hnone

/-- INTERNAL: the waiters of `id` name it as their parent, and were parked.
SRCLINE: state.rs:300-302 -/
theorem waiters_parent (a a' : Aggregator) (h : Waiting a) (id : ℕ)
    (hsub : ∀ ws : List WireSpan, a'.pending[id]? = some ws → a.pending[id]? = some ws)
    (v : WireSpan) (hv : v ∈ (a'.takeWaiters id).1) :
    v.parentId = some id ∧ a.pending[id]? ≠ none := by
  rw [(takeWaiters_pool a' id).1, ExtTreeMap.getD_eq_getD_getElem?] at hv
  cases hget : a'.pending[id]? with
  | none =>
    rw [hget] at hv
    cases hv
  | some ws =>
    rw [hget, Option.getD_some] at hv
    have hold := hsub ws hget
    exact ⟨h.keyed id ws hold v hv, by rw [hold]; exact Option.some_ne_none ws⟩

/-- INTERNAL: a placement parks nobody.
SRCLINE: state.rs:252-298 -/
theorem pending_place (a a' : Aggregator) (w : WireSpan) (b : BucketKey) (r : Bool)
    (hplace : a.place w b r = some a') (p : ℕ) (ws : List WireSpan)
    (hget : a'.pending[p]? = some ws) : a.pending[p]? = some ws := by
  obtain ⟨a₁, hroom, rfl⟩ := place_eq_some a a' w b r hplace
  have hpool : ((a₁.chargeParent r w).insertEntry (a.entryOf w b)).pending = a₁.pending :=
    congrArg Prod.fst (placed_frame a₁ r w (a.entryOf w b)).2.1
  rw [hpool] at hget
  have hsub := (makeRoomWithin_invariant
    (fun x => ∀ ws : List WireSpan, x.pending[p]? = some ws → a.pending[p]? = some ws)
    (fun x hx ws hws => hx ws (pending_evictOldest x p ws hws)) _ a a₁ (fun _ h => h) hroom).1
  exact hsub ws hget

/-- INTERNAL: SRCLINE: state.rs:231-319 -/
theorem waiting_step (c c' : Cascade) (h : Waiting c.agg) (hc : CascadeStep c c') :
    Waiting c'.agg := by
  rcases cascadeStep_cases _ _ hc with
    ⟨w, rest, p, -, hp, hnone, rfl⟩ | ⟨w, rest, b, r, a', -, -, hplace, rfl⟩
  · obtain ⟨-, -, hbyId, -, -⟩ := parkPending_frame c.agg p w
    refine ⟨fun k ws hget v hv => ?_, fun k ws hget => ?_⟩
    · rcases pending_parkPending c.agg p k w ws hget with ⟨rfl, rfl⟩ | ⟨-, hold⟩
      · rcases List.mem_append.mp hv with hold | hnew
        · rw [ExtTreeMap.getD_eq_getD_getElem?] at hold
          cases hread : c.agg.pending[k]? with
          | none =>
            rw [hread] at hold
            cases hold
          | some ws =>
            rw [hread] at hold
            exact h.keyed k ws hread v hold
        · rw [List.mem_singleton.mp hnew]
          exact hp
      · exact h.keyed k ws hold v hv
    · dsimp only
      rw [hbyId]
      rcases pending_parkPending c.agg p k w ws hget with ⟨rfl, -⟩ | ⟨-, hold⟩
      · exact hnone
      · exact h.apart k ws hold
  · exact waiting_place c.agg a' w b r hplace h

/-- INTERNAL: so nothing waits. -/
theorem waiting_new (budget : ℕ) : Waiting (Aggregator.new budget) := by
  refine ⟨fun p ws hget => ?_, fun p ws hget => ?_⟩
  · simp [Aggregator.new] at hget
  · simp [Aggregator.new] at hget

/-- INTERNAL: **in every run the parked spans wait for parents that are not in the ring**.
SRCLINE: state.rs:147-153, 213-333, 427-462 -/
theorem waiting_runInvariant (budget : ℕ) :
    RunInvariant DistinctIds fun seen a work => (Kept budget seen a work ∧ Pooled a) ∧ Waiting a := by
  have hkept := kept_runInvariant budget
  refine ⟨?_, ?_, ?_, ?_⟩
  · intro seen c c' hids h hc
    exact ⟨⟨hkept.step seen c c' hids h.1.1 hc, pooled_step c c' h.1.2 hc⟩,
      waiting_step c c' h.2 hc⟩
  · intro seen a w hids h
    exact ⟨⟨hkept.arrive seen a w hids h.1.1, h.1.2⟩, h.2⟩
  · intro seen a keys h
    refine ⟨⟨hkept.clear seen a keys h.1.1, pooled_cleared a keys h.1.2⟩, ?_, ?_⟩
    · intro p ws hget
      simp [cleared] at hget
    · intro p ws hget
      simp [cleared] at hget
  · intro seen seen' a b h h' hle
    have hpooled := pooled_restored a b h.1.2 h'.1.2
      (h'.1.1.budget_eq.trans h.1.1.budget_eq.symm)
    refine ⟨⟨hkept.restore seen seen' a b h.1.1 h'.1.1 hle, hpooled⟩, h.2.keyed, ?_⟩
    -- what is in the rebuilt ring was in the ring before
    intro p ws hget
    have hnone := h.2.apart p ws hget
    change b.byId[p]? = none
    rw [Option.eq_none_iff_forall_ne_some]
    intro e he
    have hid : e.span.id = p := h'.1.1.id_eq p _ (by rw [located, he]; rfl)
    have hring : e.span ∈ ringSpans b := (mem_ringSpans b e.span).mpr ⟨p, e, he, rfl⟩
    have hold : e.span ∈ ringSpans a := Multiset.mem_of_le
      (((Multiset.le_add_right _ _).trans h'.1.1.bag).trans hle) hring
    obtain ⟨k, ea, hea, hsame⟩ := (mem_ringSpans a e.span).mp hold
    have hk : ea.span.id = k := h.1.1.id_eq k _ (by rw [located, hea]; rfl)
    rw [hsame, hid] at hk
    rw [← hk, hnone] at hea
    cases hea

end TracingConsole.Analysis
