import TracingConsole.Analysis.BucketTallies
import TracingConsole.Analysis.Cascade

/-!
# The books of the ring

Two things tie the incremental records of the aggregator to the entries of the ring.

`Tallied fits a`: the buckets are the aggregate of the entries.  This holds of whatever
self times the entries have, since a bucket is patched with the self time it was given.

`Balanced a owed`: the running sum of an entry is the sum of the totals of its children,
and its self time is what they leave.  `owed` are spans that are counted in the running sums
without being in the ring: in the middle of an insertion the arriving span, whose parent has
been charged already, and in the middle of an eviction the leaving one, whose total has not
been returned yet.  `balanced_bump` settles such a debt on the books of one parent.
-/

set_option autoImplicit false

namespace TracingConsole.Analysis

open Std (ExtTreeMap)
open TracingConsole.Library TracingConsole.Model TracingConsole.Model.Aggregator

/-! ## The ring as a bag -/

/-- INTERNAL: the entries of the ring, in no order.
SRCLINE: state.rs:97-101 -/
def ring (a : Aggregator) : Multiset Entry := values a.byId

/-- INTERNAL: the spans of the ring, in no order. -/
def ringSpans (a : Aggregator) : Multiset WireSpan := (ring a).map Entry.span

/-- INTERNAL: the children in two parts. -/
theorem childTotal_add (m m' : Multiset WireSpan) (p : ℕ) :
    childTotal (m + m') p = childTotal m p + childTotal m' p := by
  simp [childTotal, Multiset.filter_add]

/-- INTERNAL: one more span. -/
theorem childTotal_cons (w : WireSpan) (m : Multiset WireSpan) (p : ℕ) :
    childTotal (w ::ₘ m) p = (if w.parentId = some p then totalOf w else 0) + childTotal m p := by
  unfold childTotal
  rw [Multiset.filter_cons]
  split
  · rw [Multiset.singleton_add, Multiset.map_cons, Multiset.sum_cons]
  · rw [Multiset.zero_add, Nat.zero_add]

/-- INTERNAL: a single span. -/
theorem childTotal_singleton (w : WireSpan) (p : ℕ) :
    childTotal {w} p = if w.parentId = some p then totalOf w else 0 := by
  rw [← Multiset.cons_zero, childTotal_cons]
  simp [childTotal]

/-- INTERNAL: fewer spans have no more time. -/
theorem childTotal_mono (m m' : Multiset WireSpan) (h : m ≤ m') (p : ℕ) :
    childTotal m p ≤ childTotal m' p := by
  obtain ⟨d, rfl⟩ := Multiset.le_iff_exists_add.mp h
  rw [childTotal_add]
  exact Nat.le_add_right _ _

/-- INTERNAL: a parent without a child is owed nothing. -/
theorem childTotal_eq_zero (m : Multiset WireSpan) (p : ℕ)
    (h : ∀ w ∈ m, w.parentId ≠ some p) : childTotal m p = 0 := by
  unfold childTotal
  rw [Multiset.filter_eq_nil.mpr h]
  rfl

/-- INTERNAL: a span is in the ring iff some id is stored with it. -/
theorem mem_ringSpans (a : Aggregator) (w : WireSpan) :
    w ∈ ringSpans a ↔ ∃ (id : ℕ) (e : Entry), a.byId[id]? = some e ∧ e.span = w := by
  unfold ringSpans ring
  rw [Multiset.mem_map]
  constructor
  · rintro ⟨e, he, rfl⟩
    obtain ⟨id, hid⟩ := (mem_values _ _).mp he
    exact ⟨id, e, hid, rfl⟩
  · rintro ⟨id, e, hid, rfl⟩
    exact ⟨e, (mem_values _ _).mpr ⟨id, hid⟩, rfl⟩

/-- INTERNAL: the bag of spans depends on what is located where, and not on self times. -/
theorem ringSpans_congr (a a' : Aggregator) (h : ∀ id, located a id = located a' id) :
    ringSpans a = ringSpans a' := by
  apply values_map_congr
  intro id
  have := congrArg (Option.map Prod.fst) (h id)
  simpa [located, Option.map_map, Function.comp_def] using this

/-- INTERNAL: SRCLINE: state.rs:300-302 -/
@[simp] theorem ringSpans_takeWaiters (a : Aggregator) (t : ℕ) :
    ringSpans (a.takeWaiters t).2 = ringSpans a :=
  ringSpans_congr _ _ fun id => located_takeWaiters a t id

/-- INTERNAL: SRCLINE: state.rs:308-319 -/
@[simp] theorem ringSpans_parkPending (a : Aggregator) (p : ℕ) (w : WireSpan) :
    ringSpans (a.parkPending p w) = ringSpans a :=
  ringSpans_congr _ _ fun id => located_parkPending a p id w

/-- INTERNAL: the entries in queue order are the ring.
SRCLINE: state.rs:155-163 -/
theorem coe_ringEntries (a : Aggregator) (h : Locked a) :
    (a.ringEntries : Multiset Entry) = ring a :=
  filterMap_keys a.byId a.order h.nodup h.mem_iff

/-- INTERNAL: the ring has as many entries as the queue has ids. -/
theorem card_ring (a : Aggregator) (h : Locked a) : (ring a).card = a.order.length := by
  rw [← coe_ringEntries a h, Multiset.coe_card, ringEntries, List.filterMap_length_eq_length]
  intro id hid
  exact ExtTreeMap.isSome_getElem?_iff_mem.mpr ((h.mem_iff id).mp hid)

/-- INTERNAL: making room only takes away.
SRCLINE: state.rs:259-262 -/
theorem makeRoom_shrinks (a a₁ : Aggregator) (h : a.makeRoom = some a₁) :
    ringSpans a₁ ≤ ringSpans a ∧ parked a₁ ≤ parked a ∧
    (∀ id x, located a₁ id = some x → located a id = some x) ∧
    a₁.order.length < a₁.historyBudget := by
  have hevict : ∀ x : Aggregator, ringSpans x.evictOldest ≤ ringSpans x ∧
      ∀ id y, located x.evictOldest id = some y → located x id = some y := by
    intro x
    cases horder : x.order with
    | nil => simp [evictOldest, horder]
    | cons id rest =>
      have hloc := fun k => located_evictOldest x id rest k horder
      refine ⟨?_, ?_⟩
      · have hspans : ringSpans x.evictOldest =
            ringSpans { x with byId := x.byId.erase id } := by
          apply ringSpans_congr
          intro k
          rw [hloc k]
          unfold located
          rw [getElem?_erase_eq]
          split <;> rfl
        rw [hspans]
        cases he : x.byId[id]? with
        | none =>
          rw [erase_of_none x.byId id he]
        | some e =>
          have hring : ring x = e ::ₘ values (x.byId.erase id) := values_eq_cons_erase _ id e he
          rw [ringSpans, ringSpans, hring, Multiset.map_cons]
          exact Multiset.le_cons_self _ _
      · intro k y hk
        rw [hloc k] at hk
        split at hk
        · cases hk
        · exact hk
  obtain ⟨⟨hspans, hparked, hloc⟩, hroom⟩ := makeRoomWithin_invariant
    (fun x => ringSpans x ≤ ringSpans a ∧ parked x ≤ parked a ∧
      ∀ id y, located x id = some y → located a id = some y)
    (fun x hx => ⟨(hevict x).1.trans hx.1, (parked_evictOldest_le x).trans hx.2.1,
      fun id y hy => hx.2.2 id y ((hevict x).2 id y hy)⟩)
    _ a a₁ ⟨le_rfl, le_rfl, fun _ _ hx => hx⟩ h
  exact ⟨hspans, hparked, hloc, hroom⟩

/-- INTERNAL: the ring after an insertion. -/
theorem ring_insertEntry (a : Aggregator) (e : Entry) (hnew : a.byId[e.span.id]? = none) :
    ring (a.insertEntry e) = e ::ₘ ring a :=
  values_insert_of_none _ _ _ hnew

/-- INTERNAL: an entry after an insertion is the new one or an old one. -/
theorem entry_insertEntry (a : Aggregator) (e e' : Entry) (id : ℕ)
    (h : (a.insertEntry e).byId[id]? = some e') :
    (id = e.span.id ∧ e' = e) ∨ a.byId[id]? = some e' := by
  unfold insertEntry at h
  rw [getElem?_insert_eq] at h
  by_cases hid : id = e.span.id
  · rw [if_pos hid] at h
    exact Or.inl ⟨hid, (Option.some.inj h).symm⟩
  · rw [if_neg hid] at h
    exact Or.inr h

/-- INTERNAL: nothing new is stored under an id before its entry is.
SRCLINE: state.rs:259-279 -/
theorem charged_none (a a₁ : Aggregator) (w : WireSpan) (r : Bool) (id : ℕ)
    (h : a.makeRoom = some a₁) (hnew : located a id = none) :
    (a₁.chargeParent r w).byId[id]? = none := by
  obtain ⟨-, -, hloc, -⟩ := makeRoom_shrinks a a₁ h
  rw [← located_eq_none, located_chargeParent, Option.eq_none_iff_forall_ne_some]
  intro x hx
  have hold := hloc _ x hx
  rw [hnew] at hold
  cases hold

/-- INTERNAL: the ring after a placement.
SRCLINE: state.rs:252-298 -/
theorem ringSpans_place (a a' : Aggregator) (w : WireSpan) (b : BucketKey) (r : Bool)
    (h : a.place w b r = some a') (hnew : located a w.id = none) :
    ∃ a₁, a.makeRoom = some a₁ ∧ ringSpans a' = w ::ₘ ringSpans a₁ ∧ parked a' = parked a₁ ∧
      ∀ id, located a' id =
        if id = w.id then some (w, b, totalOf w) else located a₁ id := by
  obtain ⟨a₁, hroom, rfl⟩ := place_eq_some a a' w b r h
  refine ⟨a₁, hroom, ?_, ?_, ?_⟩
  · have hnone : (a₁.chargeParent r w).byId[(a.entryOf w b).span.id]? = none :=
      charged_none a a₁ w r w.id hroom hnew
    have hcharge : ringSpans (a₁.chargeParent r w) = ringSpans a₁ :=
      ringSpans_congr _ _ fun id => located_chargeParent a₁ r w id
    rw [← hcharge]
    unfold ringSpans
    rw [ring_insertEntry _ _ hnone, Multiset.map_cons]
    rfl
  · exact parked_congr _ _ (placed_frame a₁ r w (a.entryOf w b)).2.1
  · exact fun id => located_placed a₁ r w (a.entryOf w b) id

/-- INTERNAL: an entry after a placement is the new one or an old one.
SRCLINE: state.rs:231-298 -/
theorem located_place_cases (a a' : Aggregator) (w : WireSpan) (b : BucketKey) (r : Bool)
    (h : a.place w b r = some a') (hnew : located a w.id = none) (id : ℕ) (x)
    (hx : located a' id = some x) :
    (id = w.id ∧ x = (w, b, totalOf w)) ∨ (id ≠ w.id ∧ located a id = some x) := by
  obtain ⟨a₁, hroom, -, -, hloc⟩ := ringSpans_place a a' w b r h hnew
  obtain ⟨-, -, hsub, -⟩ := makeRoom_shrinks a a₁ hroom
  rw [hloc id] at hx
  split at hx
  · next hid =>
    cases hx
    exact Or.inl ⟨hid, rfl⟩
  · next hid => exact Or.inr ⟨hid, hsub id x hx⟩

/-! ## The two invariants -/

/-- INTERNAL: **the buckets are the aggregate of the ring**, the multisets if `fits` holds.
SRCLINE: state.rs:95-122 -/
structure Tallied (fits : Prop) (a : Aggregator) : Prop where
  total_eq : ∀ (id : ℕ) e, a.byId[id]? = some e → e.totalNs = totalOf e.span
  buckets : BucketsOf fits a.buckets (ring a)

/-- INTERNAL: **the running sums and the self times are those of the children**, up to the
spans in `owed`, which are counted in the sums but not in the ring.
SRCLINE: state.rs:103-108 -/
structure Balanced (a : Aggregator) (owed : Multiset WireSpan) : Prop where
  self_eq : ∀ (id : ℕ) e, a.byId[id]? = some e → e.selfNs = e.totalNs - a.childSumFor id
  sum_eq : ∀ (id : ℕ) e, a.byId[id]? = some e →
    a.childSumFor id = childTotal (ringSpans a + owed) id
  no_sum : ∀ id : ℕ, a.byId[id]? = none → a.childSum[id]? = none

/-- INTERNAL: the aggregator starts tallied. -/
theorem tallied_new (fits : Prop) (budget : ℕ) : Tallied fits (Aggregator.new budget) := by
  refine ⟨?_, ?_⟩
  · intro id e he
    simp [Aggregator.new] at he
  · have hring : ring (Aggregator.new budget) = 0 := values_empty
    simp only [hring]
    exact bucketsOf_empty fits

/-- INTERNAL: it starts balanced. -/
theorem balanced_new (budget : ℕ) : Balanced (Aggregator.new budget) 0 := by
  refine ⟨?_, ?_, ?_⟩
  · intro id e he
    simp [Aggregator.new] at he
  · intro id e he
    simp [Aggregator.new] at he
  · intro id _
    simp [Aggregator.new]

/-- INTERNAL: the pool and the queue are not part of the books. -/
theorem tallied_congr (fits : Prop) (a a' : Aggregator) (hbyId : a'.byId = a.byId)
    (hbuckets : a'.buckets = a.buckets) (h : Tallied fits a) : Tallied fits a' := by
  have hring : ring a' = ring a := congrArg values hbyId
  refine ⟨?_, ?_⟩
  · simp only [hbyId]
    exact h.total_eq
  · simp only [hbuckets, hring]
    exact h.buckets

/-- INTERNAL: the entries and the child sums are all there is to it. -/
theorem balanced_congr (a a' : Aggregator) (owed : Multiset WireSpan)
    (hbyId : a'.byId = a.byId) (hsum : a'.childSum = a.childSum) (h : Balanced a owed) :
    Balanced a' owed := by
  have hspans : ringSpans a' = ringSpans a :=
    congrArg (fun t => (values t).map Entry.span) hbyId
  refine ⟨?_, ?_, ?_⟩
  · simp only [hbyId, childSumFor, hsum]
    exact h.self_eq
  · simp only [hbyId, childSumFor, hsum, hspans]
    exact h.sum_eq
  · simp only [hbyId, hsum]
    exact h.no_sum

/-- INTERNAL: a debt no entry of the ring is charged for may be written off. -/
theorem balanced_owed (a : Aggregator) (owed owed' : Multiset WireSpan) (h : Balanced a owed)
    (hsame : ∀ (id : ℕ) e, a.byId[id]? = some e → childTotal owed' id = childTotal owed id) :
    Balanced a owed' := by
  refine ⟨h.self_eq, ?_, h.no_sum⟩
  intro id e he
  have hold := h.sum_eq id e he
  simp only [childTotal_add] at hold ⊢
  have := hsame id e he
  omega

/-! ## Bumping a parent -/

/-- INTERNAL: what a bump makes of the ring.
SRCLINE: state.rs:366-391 -/
theorem byId_bumpParentSelf (a : Aggregator) (p n : ℕ) (e : Entry) (he : a.byId[p]? = some e) :
    (a.bumpParentSelf p n).byId = a.byId.insert p { e with selfNs := e.totalNs - n } := by
  refine ExtTreeMap.ext_getElem? fun id => ?_
  rw [bumpParentSelf_byId, getElem?_insert_eq]
  by_cases hid : id = p
  · subst hid
    simp [he]
  · simp [hid]

/-- INTERNAL: an entry after a bump is one of before, with its self time rewritten at `p`.
SRCLINE: state.rs:366-391 -/
theorem entry_bumpParentSelf (a : Aggregator) (p n id : ℕ) (e' : Entry)
    (h : (a.bumpParentSelf p n).byId[id]? = some e') :
    ∃ e, a.byId[id]? = some e ∧
      e' = if id = p then { e with selfNs := e.totalNs - n } else e := by
  rw [bumpParentSelf_byId] at h
  obtain ⟨e, he, heq⟩ := Option.map_eq_some_iff.mp h
  exact ⟨e, he, heq.symm⟩

/-- INTERNAL: a bump keeps the buckets the aggregate of the ring.
SRCLINE: state.rs:366-391 -/
theorem tallied_bumpParentSelf (fits : Prop) (a : Aggregator) (p n : ℕ) (h : Tallied fits a)
    (hcard : fits → (ring a).card ≤ 2 ^ 32) : Tallied fits (a.bumpParentSelf p n) := by
  refine ⟨?_, ?_⟩
  · intro id e' he'
    obtain ⟨e, he, rfl⟩ := entry_bumpParentSelf a p n id e' he'
    have := h.total_eq id e he
    split <;> exact this
  · have hbuckets := h.buckets
    cases he : a.byId[p]? with
    | none =>
      have hsame : a.bumpParentSelf p n = a := by
        unfold bumpParentSelf
        simp only [he]
      simp only [hsame]
      exact hbuckets
    | some e =>
      have hold : ring a = e ::ₘ values (a.byId.erase p) := values_eq_cons_erase _ p e he
      have hnew : ring (a.bumpParentSelf p n) =
          { e with selfNs := e.totalNs - n } ::ₘ values (a.byId.erase p) := by
        rw [ring, byId_bumpParentSelf a p n e he, values_insert]
      simp only [hold, Multiset.card_cons] at hcard
      simp only [hold] at hbuckets
      obtain ⟨st, hget, hset⟩ :=
        bucketsOf_reself fits _ _ e (e.totalNs - n) hbuckets hcard
      simp only [hnew]
      unfold bumpParentSelf
      simp only [he]
      split
      · -- nothing is written when the self time does not change
        next hsame =>
        simp only [hsame]
        exact hbuckets
      · simp only [hget]
        exact hset

/-- INTERNAL: **settling a debt on the books of one parent**: the running sum of `p` is
rewritten to the total that is right with `owed'`, and its self time with it.
SRCLINE: state.rs:264-279, 353-363 -/
theorem balanced_bump (a : Aggregator) (owed owed' : Multiset WireSpan) (p n : ℕ)
    (sums : ExtTreeMap ℕ ℕ) (h : Balanced a owed)
    (hread : ∀ id, sums.getD id 0 = if id = p then n else a.childSumFor id)
    (hnone : ∀ id : ℕ, a.byId[id]? = none → sums[id]? = none)
    (hn : n = childTotal (ringSpans a + owed') p)
    (hrest : ∀ id, id ≠ p → childTotal owed' id = childTotal owed id) :
    Balanced ({ a with childSum := sums }.bumpParentSelf p n) owed' := by
  set b : Aggregator := { a with childSum := sums } with hb
  have hspans : ringSpans (b.bumpParentSelf p n) = ringSpans a :=
    ringSpans_congr _ _ fun id => located_bumpParentSelf b p n id
  have hsums : (b.bumpParentSelf p n).childSum = sums := (bumpParentSelf_frame b p n).2.2.2
  have hfor : ∀ id, (b.bumpParentSelf p n).childSumFor id =
      if id = p then n else a.childSumFor id := by
    intro id
    rw [childSumFor, hsums]
    exact hread id
  refine ⟨?_, ?_, ?_⟩
  · intro id e' he'
    obtain ⟨e, he, rfl⟩ := entry_bumpParentSelf b p n id e' he'
    have hold := h.self_eq id e he
    simp only [hfor]
    by_cases hid : id = p
    · simp only [if_pos hid]
    · simp only [if_neg hid]
      exact hold
  · intro id e' he'
    obtain ⟨e, he, -⟩ := entry_bumpParentSelf b p n id e' he'
    have hold := h.sum_eq id e he
    simp only [hfor, hspans]
    by_cases hid : id = p
    · rw [if_pos hid, hid]
      exact hn
    · have := hrest id hid
      simp only [childTotal_add] at hold ⊢
      simp only [if_neg hid]
      omega
  · intro id hid
    rw [bumpParentSelf_byId, Option.map_eq_none_iff] at hid
    simp only [hsums]
    exact hnone id hid

/-! ## Evicting -/

/-- INTERNAL: the stages of an eviction: the entry is taken out with its running sum, its
contribution is dropped, its total returned.
SRCLINE: state.rs:321-364 -/
theorem evictOldest_stages (a : Aggregator) (id : ℕ) (rest : List ℕ) (e : Entry)
    (horder : a.order = id :: rest) (he : a.byId[id]? = some e) :
    ∃ c : Aggregator, a.evictOldest = (c.dropContribution e).returnToParent e ∧
      c.byId = a.byId.erase id ∧ c.childSum = a.childSum.erase id ∧ c.buckets = a.buckets := by
  set b : Aggregator := { a with order := rest, byId := a.byId.erase id } with hb
  refine ⟨{ (b.takeWaiters id).2 with childSum := (b.takeWaiters id).2.childSum.erase id },
    ?_, ?_, ?_, ?_⟩
  · unfold evictOldest
    simp only [horder, he]
    rfl
  · exact (takeWaiters_frame b id).2.2.1
  · simp only [takeWaiters_frame]
    rfl
  · exact (takeWaiters_frame b id).2.2.2.2

/-- INTERNAL: an eviction that finds no entry changes the queue at most.
SRCLINE: state.rs:321-328 -/
theorem evictOldest_of_none (a : Aggregator)
    (h : ∀ id rest, a.order = id :: rest → a.byId[id]? = none) :
    a.evictOldest = { a with order := a.order.tail } := by
  unfold evictOldest
  cases horder : a.order with
  | nil =>
    have hsame : a = { a with order := [] } := by rw [← horder]
    exact hsame
  | cons id rest => simp only [h id rest horder, List.tail_cons]

/-- INTERNAL: **an eviction keeps the buckets the aggregate of the ring**.
SRCLINE: state.rs:321-364 -/
theorem tallied_evictOldest (fits : Prop) (a : Aggregator) (h : Tallied fits a)
    (hcard : fits → (ring a).card ≤ 2 ^ 32) : Tallied fits a.evictOldest := by
  by_cases hnone : ∀ id rest, a.order = id :: rest → a.byId[id]? = none
  · rw [evictOldest_of_none a hnone]
    exact tallied_congr fits a _ rfl rfl h
  · push Not at hnone
    obtain ⟨id, rest, horder, hsome⟩ := hnone
    obtain ⟨e, he⟩ := Option.ne_none_iff_exists'.mp hsome
    obtain ⟨c, hstages, hbyId, -, hbuckets⟩ := evictOldest_stages a id rest e horder he
    have hring : ring a = e ::ₘ values (a.byId.erase id) := values_eq_cons_erase _ id e he
    simp only [hring, Multiset.card_cons] at hcard
    have hdrop : (c.dropContribution e).byId = a.byId.erase id :=
      (dropContribution_frame c e).2.2.2.1.trans hbyId
    have hdropRing : ring (c.dropContribution e) = values (a.byId.erase id) :=
      congrArg values hdrop
    have hstay : ∀ (k : ℕ) e', (c.dropContribution e).byId[k]? = some e' →
        a.byId[k]? = some e' := by
      intro k e' he'
      rw [hdrop, getElem?_erase_eq] at he'
      split at he'
      · cases he'
      · exact he'
    have hmid : Tallied fits (c.dropContribution e) := by
      refine ⟨fun k e' he' => h.total_eq k e' (hstay k e' he'), ?_⟩
      rw [hdropRing]
      apply bucketsOf_drop
      · rw [hbuckets, ← hring]
        exact h.buckets
      · exact hcard
    have hcard' : fits → (ring (c.dropContribution e)).card ≤ 2 ^ 32 := by
      intro hf
      have := hcard hf
      rw [hdropRing]
      omega
    rw [hstages]
    unfold returnToParent
    split
    · exact hmid
    · split
      · split
        · exact hmid
        · apply tallied_bumpParentSelf
          · exact tallied_congr fits (c.dropContribution e) _ rfl rfl hmid
          · exact hcard'
      · exact hmid

/-- INTERNAL: the total of a leaving span is returned to its parent.
SRCLINE: state.rs:353-363 -/
theorem balanced_returnToParent (a : Aggregator) (e : Entry) (h : Balanced a {e.span})
    (htotal : e.totalNs = totalOf e.span) : Balanced (a.returnToParent e) 0 := by
  have hzero : ∀ id, childTotal 0 id = 0 := fun id => childTotal_eq_zero 0 id (by simp)
  have hother : ∀ id, e.span.parentId ≠ some id → childTotal 0 id = childTotal {e.span} id := by
    intro id hid
    rw [childTotal_singleton, if_neg hid, hzero]
  unfold returnToParent
  split
  · next hp =>
    apply balanced_owed a _ _ h
    intro id e' _
    apply hother
    rw [hp]
    exact (Option.some_ne_none id).symm
  · next p hp =>
    have hpay : childTotal {e.span} p = e.totalNs := by
      rw [childTotal_singleton, if_pos hp, htotal]
    have hother' : ∀ id, id ≠ p → childTotal 0 id = childTotal {e.span} id := by
      intro id hid
      apply hother
      rw [hp]
      simpa using Ne.symm hid
    split
    · next hin =>
      obtain ⟨ep, hep⟩ := Option.isSome_iff_exists.mp
        (ExtTreeMap.isSome_getElem?_iff_mem.mpr hin)
      have hsum := h.sum_eq p ep hep
      simp only [childTotal_add, hpay] at hsum
      split
      · next hnone =>
        -- no running sum: the children of `p` have no total at all
        have hempty : a.childSumFor p = 0 := by
          rw [childSumFor, ExtTreeMap.getD_eq_getD_getElem?, hnone, Option.getD_none]
        apply balanced_owed a _ _ h
        intro id e' _
        by_cases hid : id = p
        · rw [hid, hpay, hzero]
          omega
        · exact hother' id hid
      · next sum hget =>
        have hsum' : a.childSumFor p = sum := by
          rw [childSumFor, ExtTreeMap.getD_eq_getD_getElem?, hget, Option.getD_some]
        apply balanced_bump a {e.span} 0 p _ _ h
        · intro id
          rw [ExtTreeMap.getD_eq_getD_getElem?]
          split
          · next hz =>
            rw [getElem?_erase_eq]
            by_cases hid : id = p
            · rw [if_pos hid, if_pos hid, hz, Option.getD_none]
            · rw [if_neg hid, if_neg hid, ← ExtTreeMap.getD_eq_getD_getElem?, childSumFor]
          · rw [getElem?_insert_eq]
            by_cases hid : id = p
            · rw [if_pos hid, if_pos hid, Option.getD_some]
            · rw [if_neg hid, if_neg hid, ← ExtTreeMap.getD_eq_getD_getElem?, childSumFor]
        · intro id hid
          have hne : id ≠ p := by
            rintro rfl
            rw [hep] at hid
            cases hid
          have hold := h.no_sum id hid
          split
          · rw [getElem?_erase_eq, if_neg hne]
            exact hold
          · rw [getElem?_insert_eq, if_neg hne]
            exact hold
        · rw [childTotal_add, hzero]
          omega
        · exact hother'
    · next hout =>
      apply balanced_owed a _ _ h
      intro id e' he'
      apply hother'
      rintro rfl
      exact hout (ExtTreeMap.isSome_getElem?_iff_mem.mp (by simp [he']))

/-- INTERNAL: **an eviction keeps the running sums and self times**.
SRCLINE: state.rs:321-364 -/
theorem balanced_evictOldest (a : Aggregator) (h : Balanced a 0)
    (htotal : ∀ (id : ℕ) e, a.byId[id]? = some e → e.totalNs = totalOf e.span) :
    Balanced a.evictOldest 0 := by
  by_cases hnone : ∀ id rest, a.order = id :: rest → a.byId[id]? = none
  · rw [evictOldest_of_none a hnone]
    exact balanced_congr a _ 0 rfl rfl h
  · push Not at hnone
    obtain ⟨id, rest, horder, hsome⟩ := hnone
    obtain ⟨e, he⟩ := Option.ne_none_iff_exists'.mp hsome
    obtain ⟨c, hstages, hbyId, hsums, -⟩ := evictOldest_stages a id rest e horder he
    have hring : ring a = e ::ₘ values (a.byId.erase id) := values_eq_cons_erase _ id e he
    have hdrop : (c.dropContribution e).byId = a.byId.erase id :=
      (dropContribution_frame c e).2.2.2.1.trans hbyId
    have hdropSum : (c.dropContribution e).childSum = a.childSum.erase id :=
      (dropContribution_frame c e).2.2.2.2.trans hsums
    have hspans : ringSpans (c.dropContribution e) + {e.span} = ringSpans a := by
      have hdropRing : ring (c.dropContribution e) = values (a.byId.erase id) :=
        congrArg values hdrop
      rw [ringSpans, ringSpans, hdropRing, hring, Multiset.map_cons, ← Multiset.singleton_add,
        add_comm]
    -- the entries that stay keep the running sums they had
    have hstay : ∀ (k : ℕ) e', (c.dropContribution e).byId[k]? = some e' →
        a.byId[k]? = some e' ∧ (c.dropContribution e).childSumFor k = a.childSumFor k := by
      intro k e' he'
      rw [hdrop, getElem?_erase_eq] at he'
      by_cases hk : k = id
      · rw [if_pos hk] at he'
        cases he'
      · rw [if_neg hk] at he'
        refine ⟨he', ?_⟩
        rw [childSumFor, childSumFor, hdropSum, ExtTreeMap.getD_eq_getD_getElem?,
          ExtTreeMap.getD_eq_getD_getElem?, getElem?_erase_eq, if_neg hk]
    rw [hstages]
    apply balanced_returnToParent _ e _ (htotal id e he)
    refine ⟨?_, ?_, ?_⟩
    · intro k e' he'
      obtain ⟨hold, hsum⟩ := hstay k e' he'
      rw [hsum]
      exact h.self_eq k e' hold
    · intro k e' he'
      obtain ⟨hold, hsum⟩ := hstay k e' he'
      have hbal := h.sum_eq k e' hold
      simp only [add_zero] at hbal
      rw [hsum, hspans]
      exact hbal
    · intro k hk
      rw [hdrop, getElem?_erase_eq] at hk
      rw [hdropSum, getElem?_erase_eq]
      by_cases hki : k = id
      · rw [if_pos hki]
      · rw [if_neg hki] at hk ⊢
        exact h.no_sum k hk

/-! ## Inserting -/

/-- INTERNAL: SRCLINE: state.rs:264-279 -/
theorem tallied_chargeParent (fits : Prop) (a : Aggregator) (r : Bool) (w : WireSpan)
    (h : Tallied fits a) (hcard : fits → (ring a).card ≤ 2 ^ 32) :
    Tallied fits (a.chargeParent r w) := by
  unfold chargeParent
  split
  · exact h
  · split
    · apply tallied_bumpParentSelf
      · exact tallied_congr fits a _ rfl rfl h
      · exact hcard
    · exact h

/-- INTERNAL: the total of an arriving span is charged to its parent, if that is in the
ring; the sum fits its word.
SRCLINE: state.rs:264-279 -/
theorem balanced_chargeParent (a : Aggregator) (r : Bool) (w : WireSpan) (h : Balanced a 0)
    (hr : ∀ p, w.parentId = some p → r = true)
    (hword : ∀ p, childTotal (w ::ₘ ringSpans a) p < 2 ^ 64) :
    Balanced (a.chargeParent r w) {w} := by
  have hzero : ∀ id, childTotal 0 id = 0 := fun id => childTotal_eq_zero 0 id (by simp)
  have hother : ∀ id, w.parentId ≠ some id → childTotal {w} id = childTotal 0 id := by
    intro id hid
    rw [childTotal_singleton, if_neg hid, hzero]
  unfold chargeParent
  split
  · next hp =>
    apply balanced_owed a _ _ h
    intro id e _
    apply hother
    rw [hp]
    exact (Option.some_ne_none id).symm
  · next p hp =>
    have hpay : childTotal {w} p = totalOf w := by
      rw [childTotal_singleton, if_pos hp]
    have hother' : ∀ id, id ≠ p → childTotal {w} id = childTotal 0 id := by
      intro id hid
      apply hother
      rw [hp]
      simpa using Ne.symm hid
    simp only [hr p hp, Bool.true_and]
    split
    · next hin =>
      obtain ⟨ep, hep⟩ := Option.isSome_iff_exists.mp
        (ExtTreeMap.isSome_getElem?_iff_mem.mpr hin)
      have hsum := h.sum_eq p ep hep
      have hfit := hword p
      simp only [add_zero] at hsum
      simp only [childTotal_cons, if_pos hp, ← hsum, childSumFor] at hfit
      apply balanced_bump a 0 {w} p _ _ h
      · intro id
        rw [ExtTreeMap.getD_eq_getD_getElem?, getElem?_insert_eq]
        by_cases hid : id = p
        · rw [if_pos hid, if_pos hid, Option.getD_some]
        · rw [if_neg hid, if_neg hid, ← ExtTreeMap.getD_eq_getD_getElem?, childSumFor]
      · intro id hid
        have hne : id ≠ p := by
          rintro rfl
          rw [hep] at hid
          cases hid
        rw [getElem?_insert_eq, if_neg hne]
        exact h.no_sum id hid
      · have hexact : a.childSum.getD p 0 + totalOf w = childTotal (ringSpans a + {w}) p := by
          rw [childTotal_add, hpay, ← hsum, childSumFor]
        rw [← hexact]
        apply Nat.mod_eq_of_lt
        omega
      · exact hother'
    · next hout =>
      apply balanced_owed a _ _ h
      intro id e he
      apply hother'
      rintro rfl
      exact hout (ExtTreeMap.isSome_getElem?_iff_mem.mp (by simp [he]))

/-- INTERNAL: SRCLINE: state.rs:281-297 -/
theorem tallied_insertEntry (fits : Prop) (a : Aggregator) (e : Entry) (h : Tallied fits a)
    (hnew : a.byId[e.span.id]? = none) (htotal : e.totalNs = totalOf e.span) :
    Tallied fits (a.insertEntry e) := by
  refine ⟨?_, ?_⟩
  · intro id e' he'
    rcases entry_insertEntry a e e' id he' with ⟨rfl, rfl⟩ | hold
    · exact htotal
    · exact h.total_eq id e' hold
  · rw [ring_insertEntry a e hnew]
    exact bucketsOf_add fits _ _ e h.buckets

/-- INTERNAL: the entry of a span no entry of the ring is a child of is added.
SRCLINE: state.rs:281-297 -/
theorem balanced_insertEntry (a : Aggregator) (e : Entry) (h : Balanced a {e.span})
    (hnew : a.byId[e.span.id]? = none) (hself : e.selfNs = e.totalNs)
    (hchildless : childTotal (ringSpans a + {e.span}) e.span.id = 0) :
    Balanced (a.insertEntry e) 0 := by
  have hspans : ringSpans (a.insertEntry e) + 0 = ringSpans a + {e.span} := by
    rw [ringSpans, ring_insertEntry a e hnew, Multiset.map_cons, add_zero,
      ← Multiset.singleton_add, add_comm, ringSpans]
  have hnosum : a.childSumFor e.span.id = 0 := by
    rw [childSumFor, ExtTreeMap.getD_eq_getD_getElem?, h.no_sum _ hnew, Option.getD_none]
  refine ⟨?_, ?_, ?_⟩
  · intro id e' he'
    change e'.selfNs = e'.totalNs - a.childSumFor id
    rcases entry_insertEntry a e e' id he' with ⟨rfl, rfl⟩ | hold
    · rw [hnosum, hself, Nat.sub_zero]
    · exact h.self_eq id e' hold
  · intro id e' he'
    change a.childSumFor id = _
    rw [hspans]
    rcases entry_insertEntry a e e' id he' with ⟨rfl, rfl⟩ | hold
    · rw [hnosum, hchildless]
    · exact h.sum_eq id e' hold
  · intro id hid
    unfold insertEntry at hid
    rw [getElem?_insert_eq] at hid
    by_cases hide : id = e.span.id
    · rw [if_pos hide] at hid
      cases hid
    · rw [if_neg hide] at hid
      exact h.no_sum id hid

/-! ## Placing -/

/-- INTERNAL: SRCLINE: state.rs:252-298 -/
theorem tallied_place (fits : Prop) (a a' : Aggregator) (w : WireSpan) (b : BucketKey)
    (r : Bool) (hplace : a.place w b r = some a') (h : Tallied fits a) (hlocked : Locked a)
    (hnew : located a w.id = none) (hcard : fits → a.order.length ≤ 2 ^ 32) :
    Tallied fits a' := by
  obtain ⟨a₁, hroom, rfl⟩ := place_eq_some a a' w b r hplace
  have hshort : ∀ x : Aggregator, Locked x ∧ x.order.length ≤ a.order.length →
      fits → (ring x).card ≤ 2 ^ 32 := by
    intro x hx hf
    rw [card_ring x hx.1]
    exact hx.2.trans (hcard hf)
  obtain ⟨⟨htallied, hsize⟩, -⟩ := makeRoomWithin_invariant
    (fun x => Tallied fits x ∧ Locked x ∧ x.order.length ≤ a.order.length)
    (fun x hx => by
      refine ⟨tallied_evictOldest fits x hx.1 (hshort x hx.2), locked_evictOldest x hx.2.1, ?_⟩
      rw [evictOldest_order, List.length_tail]
      have := hx.2.2
      omega)
    _ a a₁ ⟨h, hlocked, le_rfl⟩ hroom
  apply tallied_insertEntry
  · exact tallied_chargeParent fits a₁ r w htallied (hshort a₁ hsize)
  · exact charged_none a a₁ w r w.id hroom hnew
  · rfl

/-- INTERNAL: SRCLINE: state.rs:252-298 -/
theorem balanced_place (a a' : Aggregator) (w : WireSpan) (b : BucketKey) (r : Bool)
    (hplace : a.place w b r = some a') (h : Balanced a 0) (htallied : Tallied False a)
    (hnew : located a w.id = none) (hr : ∀ p, w.parentId = some p → r = true)
    (hchildless : ∀ v ∈ w ::ₘ ringSpans a, v.parentId ≠ some w.id)
    (hword : ∀ p, childTotal (w ::ₘ ringSpans a) p < 2 ^ 64) : Balanced a' 0 := by
  obtain ⟨a₁, hroom, rfl⟩ := place_eq_some a a' w b r hplace
  obtain ⟨hsub, -, -, -⟩ := makeRoom_shrinks a a₁ hroom
  obtain ⟨⟨hbalanced, -⟩, -⟩ := makeRoomWithin_invariant
    (fun x => Balanced x 0 ∧ Tallied False x)
    (fun x hx => ⟨balanced_evictOldest x hx.1 hx.2.total_eq,
      tallied_evictOldest False x hx.2 False.elim⟩)
    _ a a₁ ⟨h, htallied⟩ hroom
  have hspans : ringSpans (a₁.chargeParent r w) = ringSpans a₁ :=
    ringSpans_congr _ _ fun id => located_chargeParent a₁ r w id
  have hcons : w ::ₘ ringSpans a₁ ≤ w ::ₘ ringSpans a := Multiset.cons_le_cons w hsub
  apply balanced_insertEntry
  · apply balanced_chargeParent a₁ r w hbalanced hr
    intro p
    exact (childTotal_mono _ _ hcons p).trans_lt (hword p)
  · exact charged_none a a₁ w r w.id hroom hnew
  · -- no running sum was kept for a span that was not in the ring
    have hnone : a.byId[w.id]? = none := (located_eq_none a w.id).mp hnew
    change totalOf w - a.childSum.getD w.id 0 = totalOf w
    rw [ExtTreeMap.getD_eq_getD_getElem?, h.no_sum _ hnone, Option.getD_none, Nat.sub_zero]
  · rw [hspans, add_comm, Multiset.singleton_add]
    apply childTotal_eq_zero
    intro v hv
    exact hchildless v (Multiset.mem_of_le hcons hv)

end TracingConsole.Analysis
