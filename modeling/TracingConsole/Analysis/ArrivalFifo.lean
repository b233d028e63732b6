import TracingConsole.Analysis.PendingPool
import TracingConsole.Analysis.RingWellFormed
import Mathlib.Data.List.DropRight

/-!
# The ring as a queue of what an arrival reports

An arrival reports the span and everything below it that was parked.  Every placement adds one
id at the end of the queue and takes at most one from its front, so in the end the queue holds
the last ids of what it held before and the report (`Draining`).  What leaves the front has no
spans waiting for it: the ids that were there before wait for nothing, and those of the report
have been drained when they were placed.
-/

set_option autoImplicit false

namespace TracingConsole.Analysis

open Std (ExtTreeMap)
open TracingConsole.Library TracingConsole.Model TracingConsole.Model.Aggregator

/-! ## Making room for one span -/

/-- INTERNAL: **a ring within a positive budget makes room with one eviction at most**.
SRCLINE: state.rs:259-262 -/
theorem makeRoom_cases (a a₁ : Aggregator) (hpos : 1 ≤ a.historyBudget)
    (hle : a.order.length ≤ a.historyBudget) (h : a.makeRoom = some a₁) :
    a₁ = a ∨ ∃ id rest, a.order = id :: rest ∧ a.order.length = a.historyBudget ∧
      a₁ = a.evictOldest := by
  by_cases hroom : a.order.length < a.historyBudget
  · rw [makeRoom_of_room a hroom] at h
    exact Or.inl (Option.some.inj h).symm
  · right
    cases horder : a.order with
    | nil =>
      rw [horder, List.length_nil] at hroom
      omega
    | cons id rest =>
      have hlen := congrArg List.length horder
      rw [List.length_cons] at hlen
      refine ⟨id, rest, rfl, by rw [← horder]; omega, ?_⟩
      have hbudget : a.evictOldest.historyBudget = a.historyBudget :=
        congrArg (fun c => c.2.2) (evictOldest_config a)
      have hroom' : a.evictOldest.order.length < a.evictOldest.historyBudget := by
        rw [evictOldest_order, horder, List.tail_cons, hbudget]
        omega
      unfold makeRoom at h
      rw [hlen, makeRoomWithin, if_neg hroom] at h
      cases rest with
      | nil =>
        rw [List.length_nil, makeRoomWithin, if_pos hroom'] at h
        exact (Option.some.inj h).symm
      | cons _ _ =>
        rw [List.length_cons, makeRoomWithin, if_pos hroom'] at h
        exact (Option.some.inj h).symm

/-- INTERNAL: evicting a span for which nothing waits leaves the pool alone.
SRCLINE: state.rs:321-333 -/
theorem pool_evictOldest_free (a : Aggregator) (id : ℕ) (rest : List ℕ)
    (horder : a.order = id :: rest) (hfree : a.pending[id]? = none) :
    pool a.evictOldest = pool a := by
  cases hget : a.byId[id]? with
  | none =>
    unfold evictOldest
    rw [horder]
    simp only [hget]
    rfl
  | some e =>
    rw [pool_evictOldest a id rest e horder hget]
    unfold takeWaiters
    rw [hfree]

/-- INTERNAL: **placing a span when nothing waits for the front of a full ring** leaves the pool
alone, and every span of the ring but that one.
SRCLINE: state.rs:252-298 -/
theorem place_free (a a' : Aggregator) (v : WireSpan) (b : BucketKey) (r : Bool)
    (hpos : 1 ≤ a.historyBudget) (hle : a.order.length ≤ a.historyBudget)
    (hfree : ∀ id rest, a.order = id :: rest → a.order.length = a.historyBudget →
      a.pending[id]? = none)
    (hplace : a.place v b r = some a') :
    pool a' = pool a ∧ a'.byId[v.id]? ≠ none ∧
      ∀ k : ℕ, a.byId[k]? ≠ none →
        (∀ rest, a.order = k :: rest → a.order.length ≠ a.historyBudget) →
        a'.byId[k]? ≠ none := by
  obtain ⟨a₁, hroom, rfl⟩ := place_eq_some a a' v b r hplace
  have hpool := (placed_frame a₁ r v (a.entryOf v b)).2.1
  have hloc : ∀ k, located ((a₁.chargeParent r v).insertEntry (a.entryOf v b)) k =
      if k = v.id then some (v, b, totalOf v) else located a₁ k := fun k =>
    located_placed a₁ r v (a.entryOf v b) k
  have hkept : pool a₁ = pool a ∧ ∀ k : ℕ, a.byId[k]? ≠ none →
      (∀ rest, a.order = k :: rest → a.order.length ≠ a.historyBudget) →
      located a₁ k ≠ none := by
    rcases makeRoom_cases a a₁ hpos hle hroom with rfl | ⟨id, rest, horder, hfull, rfl⟩
    · exact ⟨rfl, fun k hk _ => by rwa [Ne, located_eq_none]⟩
    · refine ⟨pool_evictOldest_free a id rest horder (hfree id rest horder hfull), ?_⟩
      intro k hk hother
      have hne : k ≠ id := by
        rintro rfl
        exact hother rest horder hfull
      rwa [located_evictOldest a id rest k horder, if_neg hne, Ne, located_eq_none]
  refine ⟨hpool.trans hkept.1, ?_, fun k hk hother => ?_⟩
  · rw [Ne, ← located_eq_none, hloc, if_pos rfl]
    exact Option.some_ne_none _
  · rw [Ne, ← located_eq_none, hloc]
    split
    · exact Option.some_ne_none _
    · exact hkept.2 k hk hother

/-- INTERNAL: the queue after one placement, as the end of a longer list. -/
theorem rtake_snoc (l : List ℕ) (n x : ℕ) (hpos : 1 ≤ n) :
    (l.rtake n).drop ((l.rtake n).length + 1 - n) ++ [x] = (l ++ [x]).rtake n := by
  unfold List.rtake
  rw [List.drop_drop, List.length_drop, List.length_append, List.length_singleton,
    List.drop_append_of_le_length (by omega)]
  congr 2
  omega

/-! ## The report -/

/-- INTERNAL: `v` is parked below `w`: its parent is `w`, or is parked below `w`.
SRCLINE: state.rs:300-305 -/
inductive HangsFrom (pool : Multiset WireSpan) (w : WireSpan) : WireSpan → Prop
  | child (v : WireSpan) : v ∈ pool → v.parentId = some w.id → HangsFrom pool w v
  | deeper (u v : WireSpan) :
    HangsFrom pool w u → v ∈ pool → v.parentId = some u.id → HangsFrom pool w v

/-- INTERNAL: every span comes after its parent, which is `w` or in the list. -/
def ParentsFirst (w : WireSpan) (family : List WireSpan) : Prop :=
  ∀ (i : ℕ) (v : WireSpan), family[i]? = some v →
    ∃ u ∈ w :: family.take i, v.parentId = some u.id

/-- INTERNAL: **what an arrival reports**.  The family of the span is what was parked below it.
SRCLINE: state.rs:213-306 -/
structure Reported (budget : ℕ) (a : Aggregator) (w : WireSpan) (a' : Aggregator)
    (inserted : List ℕ) : Prop where
  order_eq : a'.order =
    (a.order ++ inserted).rtake (min budget (a.order ++ inserted).length)
  empty_iff : inserted = [] ↔ ∃ p, w.parentId = some p ∧ p ∉ a.order
  family : inserted ≠ [] → ∃ family : List WireSpan,
    inserted = (w :: family).map WireSpan.id ∧ (w :: family).Nodup ∧
    (∀ v, v ∈ family ↔ HangsFrom (parked a) w v) ∧
    ParentsFirst w family ∧ ∀ v ∈ w :: family, v ∉ parked a'

/-- INTERNAL: a span after its parent. -/
theorem parentsFirst_snoc (w v : WireSpan) (family : List WireSpan) (h : ParentsFirst w family)
    (hparent : ∃ u ∈ w :: family, v.parentId = some u.id) : ParentsFirst w (family ++ [v]) := by
  intro i u hget
  rcases Nat.lt_or_ge i family.length with hlt | hge
  · rw [List.getElem?_append_left hlt] at hget
    rw [List.take_append_of_le_length (by omega)]
    exact h i u hget
  · rw [List.getElem?_append_right hge] at hget
    have hlast : i - family.length = 0 := by
      have hin := (List.getElem?_eq_some_iff.mp hget).1
      rw [List.length_singleton] at hin
      omega
    rw [hlast] at hget
    cases hget
    obtain rfl : i = family.length := by omega
    rw [List.take_left']
    · exact hparent
    · rfl

/-- INTERNAL: **the cascade of `w` under way**, from the state `a`.
SRCLINE: state.rs:231-306 -/
structure Draining (budget : ℕ) (a : Aggregator) (w : WireSpan) (c : Cascade) : Prop where
  budget_eq : c.agg.historyBudget = budget
  order_eq : c.agg.order = (a.order ++ c.inserted).rtake budget
  pending_sub : ∀ (p : ℕ) (ws : List WireSpan), c.agg.pending[p]? = some ws →
    a.pending[p]? = some ws ∧ p ∉ c.inserted
  family : ∃ family : List WireSpan, c.inserted = (w :: family).map WireSpan.id ∧
    (family : Multiset WireSpan) + (c.work + parked c.agg) = parked a ∧ ParentsFirst w family
  ready : ∀ v ∈ c.work, ∃ p ∈ c.inserted, v.parentId = some p
  resident : c.work ≠ [] → ∀ id ∈ c.inserted, id ∉ a.order ∧ c.agg.byId[id]? ≠ none

/-- INTERNAL: what is known of the ring and its pool before the span arrives. -/
structure Rested (budget : ℕ) (a : Aggregator) : Prop where
  budget_eq : a.historyBudget = budget
  room : a.order.length ≤ budget
  locked : Locked a
  pooled : Pooled a
  waiting : Waiting a
  apart : ∀ v ∈ parked a, v.id ∉ a.order
  distinct : DistinctIds (parked a)

/-- INTERNAL: a parked span is in the bucket of its parent. -/
theorem mem_parked_key (a : Aggregator) (h : Waiting a) (v : WireSpan) (hv : v ∈ parked a) :
    ∃ p ws, v.parentId = some p ∧ a.pending[p]? = some ws := by
  obtain ⟨p, ws, hget, hin⟩ := (mem_parkedIn a.pending v).mp hv
  exact ⟨p, ws, h.keyed p ws hget v hin, hget⟩

/-- INTERNAL: nothing waits for a span of the ring. -/
theorem Rested.free {budget : ℕ} {a : Aggregator} (h : Rested budget a) (id : ℕ)
    (hid : id ∈ a.order) : a.pending[id]? = none := by
  rw [Option.eq_none_iff_forall_ne_some]
  intro ws hws
  have hin := (h.locked.mem_iff id).mp hid
  rw [mem_byId_iff, (located_eq_none a id).mpr (h.waiting.apart id ws hws)] at hin
  cases hin

/-- INTERNAL: the family and what is still to come fit the pool. -/
theorem Rested.count {budget : ℕ} {a : Aggregator} (h : Rested budget a)
    (family work : List WireSpan) (left : Multiset WireSpan)
    (hsum : (family : Multiset WireSpan) + (work + left) = parked a) :
    family.length + work.length ≤ max (budget / 4) 1 := by
  have hcard := congrArg Multiset.card hsum
  rw [Multiset.card_add, Multiset.card_add, Multiset.coe_card, Multiset.coe_card,
    ← h.pooled.counted] at hcard
  have hcap := h.pooled.bounded
  rw [h.pooled.cap_eq, h.budget_eq] at hcap
  omega

/-- INTERNAL: nothing waits for what leaves the front of the queue.
SRCLINE: state.rs:259-262, 329-333 -/
theorem Draining.free {budget : ℕ} {a : Aggregator} {w : WireSpan} {c : Cascade}
    (h : Draining budget a w c) (hrest : Rested budget a) (id : ℕ) (hid : id ∈ c.agg.order) :
    c.agg.pending[id]? = none := by
  rw [Option.eq_none_iff_forall_ne_some]
  intro ws hws
  obtain ⟨hold, hnot⟩ := h.pending_sub id ws hws
  rw [h.order_eq] at hid
  rcases List.mem_append.mp (List.mem_of_mem_drop hid) with hring | hin
  · rw [hrest.free id hring] at hold
    cases hold
  · exact hnot hin

/-- INTERNAL: what leaves the front of a full queue was there before, unless the report fills
the queue. -/
theorem Draining.front {budget : ℕ} {a : Aggregator} {w : WireSpan} {c : Cascade}
    (h : Draining budget a w c) (hshort : c.inserted.length < budget) (id : ℕ) (rest : List ℕ)
    (horder : c.agg.order = id :: rest) (hfull : c.agg.order.length = budget) : id ∈ a.order := by
  rw [h.order_eq] at horder hfull
  unfold List.rtake at horder hfull
  rw [List.length_drop, List.length_append] at hfull
  have hhead := congrArg List.head? horder
  rw [List.head?_drop, List.length_append, List.getElem?_append_left (by omega),
    List.head?_cons] at hhead
  exact List.mem_of_getElem? hhead

/-- INTERNAL: **a step of the cascade**.
SRCLINE: state.rs:231-306 -/
theorem draining_step (budget : ℕ) (a : Aggregator) (w : WireSpan) (c c' : Cascade)
    (hpos : 1 ≤ budget) (hrest : Rested budget a) (h : Draining budget a w c)
    (hc : CascadeStep c c') : Draining budget a w c' := by
  have hle : c.agg.order.length ≤ c.agg.historyBudget := by
    rw [h.budget_eq, h.order_eq]
    unfold List.rtake
    rw [List.length_drop]
    omega
  rcases cascadeStep_cases _ _ hc with
    ⟨v, rest, p, hwork, hp, hnone, rfl⟩ | ⟨v, rest, b, r, a', hwork, -, hplace, rfl⟩
  · -- the parent of a span in work has just been placed
    obtain ⟨q, hq, hvq⟩ := h.ready v (by rw [hwork]; simp)
    obtain rfl : p = q := Option.some.inj (hp.symm.trans hvq)
    exact absurd hnone (h.resident (by rw [hwork]; simp) p hq).2
  · obtain ⟨family, hins, hsum, hfirst⟩ := h.family
    obtain ⟨horder, hconfig⟩ := place_order c.agg a' v b r hplace
    obtain ⟨hpool, hplaced, hkept⟩ := place_free c.agg a' v b r (by rw [h.budget_eq]; exact hpos)
      hle (fun id rest hfront _ => h.free hrest id (by rw [hfront]; simp)) hplace
    obtain ⟨htaken, hsame, hbyId, -, -⟩ := takeWaiters_frame a' v.id
    have hpending : a'.pending = c.agg.pending := congrArg Prod.fst hpool
    have hrest' : (a'.takeWaiters v.id).2.pending = c.agg.pending.erase v.id := by
      rw [(takeWaiters_pool a' v.id).2, hpending]
    have hvparked : v ∈ parked a := by
      rw [← hsum, hwork]
      simp
    obtain ⟨p, hp, hvp⟩ := h.ready v (by rw [hwork]; simp)
    -- the span moves from the work list to the family, its waiters from the pool to the work list
    have hsum' : ((family ++ [v] : List WireSpan) : Multiset WireSpan) +
        (((a'.takeWaiters v.id).1 ++ rest : List WireSpan) + parked (a'.takeWaiters v.id).2) =
        parked a := by
      rw [← hsum, hwork, ← parked_congr c.agg a' hpool, parked_takeWaiters a' v.id,
        ← Multiset.coe_add, ← Multiset.coe_add, Multiset.coe_singleton, ← Multiset.cons_coe,
        ← Multiset.singleton_add]
      abel
    have hcount := hrest.count _ _ _ hsum'
    rw [List.length_append, List.length_singleton] at hcount
    refine ⟨?_, ?_, ?_, ⟨family ++ [v], ?_, hsum', ?_⟩, ?_, ?_⟩
    · exact (congrArg (fun c => c.2.2) (htaken.trans hconfig)).trans h.budget_eq
    · dsimp only
      rw [hsame, horder, h.budget_eq, ← List.append_assoc, ← rtake_snoc _ _ _ hpos, ← h.order_eq]
    · intro p ws hget
      dsimp only at hget
      rw [hrest', getElem?_erase_eq] at hget
      split at hget
      · cases hget
      · next hne =>
        obtain ⟨hold, hnot⟩ := h.pending_sub p ws hget
        refine ⟨hold, fun hin => ?_⟩
        rcases List.mem_append.mp hin with hin | hin
        · exact hnot hin
        · exact hne (List.mem_singleton.mp hin)
    · rw [hins, ← List.cons_append, List.map_append]
      rfl
    · apply parentsFirst_snoc w v family hfirst
      rw [hins] at hp
      obtain ⟨u, hu, rfl⟩ := List.mem_map.mp hp
      exact ⟨u, hu, hvp⟩
    · intro u hu
      rcases List.mem_append.mp hu with hu | hu
      · have hparent := (waiters_parent a a' hrest.waiting v.id (fun ws hget => by
          rw [hpending] at hget
          exact (h.pending_sub v.id ws hget).1) u hu).1
        exact ⟨v.id, by simp, hparent⟩
      · obtain ⟨q, hq, huq⟩ := h.ready u (by rw [hwork]; simp [hu])
        exact ⟨q, List.mem_append_left _ hq, huq⟩
    · intro hmore id hid
      dsimp only at hmore hid ⊢
      rw [hbyId]
      rcases List.mem_append.mp hid with hid | hid
      · obtain ⟨hnew, hin⟩ := h.resident (by rw [hwork]; simp) id hid
        refine ⟨hnew, hkept id hin fun rest hfront hfull => hnew ?_⟩
        -- with spans still to come the report does not fill the ring
        have hsome := List.length_pos_of_ne_nil hmore
        have hlen := congrArg List.length hins
        rw [List.length_map, List.length_cons] at hlen
        exact h.front (by omega) id rest hfront (hfull.trans h.budget_eq)
      · rw [List.mem_singleton.mp hid]
        exact ⟨hrest.apart v hvparked, hplaced⟩

/-- INTERNAL: **the first placement of an arrival**.
SRCLINE: state.rs:231-306 -/
theorem draining_start (budget : ℕ) (a a' : Aggregator) (w : WireSpan) (b : BucketKey) (r : Bool)
    (hpos : 1 ≤ budget) (hrest : Rested budget a) (hplace : a.place w b r = some a') :
    Draining budget a w
      ⟨(a'.takeWaiters w.id).2, (a'.takeWaiters w.id).1, [w.id]⟩ := by
  obtain ⟨horder, hconfig⟩ := place_order a a' w b r hplace
  obtain ⟨hpool, hplaced, -⟩ := place_free a a' w b r (by rw [hrest.budget_eq]; exact hpos)
    (by rw [hrest.budget_eq]; exact hrest.room)
    (fun id rest hfront _ => hrest.free id (by rw [hfront]; simp)) hplace
  obtain ⟨htaken, hsame, hbyId, -, -⟩ := takeWaiters_frame a' w.id
  have hpending : a'.pending = a.pending := congrArg Prod.fst hpool
  have hwaiters := waiters_parent a a' hrest.waiting w.id (fun ws hget => by rwa [hpending] at hget)
  refine ⟨?_, ?_, ?_, ⟨[], rfl, ?_, ?_⟩, ?_, ?_⟩
  · exact (congrArg (fun c => c.2.2) (htaken.trans hconfig)).trans hrest.budget_eq
  · dsimp only
    have hall : a.order.rtake budget = a.order := by
      unfold List.rtake
      rw [Nat.sub_eq_zero_of_le hrest.room, List.drop_zero]
    rw [hsame, horder, ← rtake_snoc a.order budget w.id hpos, hall, hrest.budget_eq]
  · intro p ws hget
    dsimp only at hget
    rw [(takeWaiters_pool a' w.id).2, hpending, getElem?_erase_eq] at hget
    split at hget
    · cases hget
    · next hne => exact ⟨hget, fun hin => hne (List.mem_singleton.mp hin)⟩
  · rw [Multiset.coe_nil, zero_add, ← parked_congr a a' hpool, parked_takeWaiters a' w.id]
  · intro i v hget
    cases hget
  · exact fun v hv => ⟨w.id, by simp, (hwaiters v hv).1⟩
  · intro hmore id hid
    obtain rfl := List.mem_singleton.mp hid
    obtain ⟨v, hv⟩ := List.exists_mem_of_ne_nil _ hmore
    refine ⟨fun hring => (hwaiters v hv).2 (hrest.free w.id hring), ?_⟩
    rw [hbyId]
    exact hplaced

/-- INTERNAL: **when nothing is left to do, the family is what hung from the span**.
SRCLINE: state.rs:300-305 -/
theorem Draining.hangs {budget : ℕ} {a a' : Aggregator} {w : WireSpan} {ins : List ℕ}
    {family : List WireSpan} (h : Draining budget a w ⟨a', [], ins⟩) (hwaiting : Waiting a)
    (hins : ins = (w :: family).map WireSpan.id)
    (hsum : (family : Multiset WireSpan) + parked a' = parked a) (hfirst : ParentsFirst w family)
    (v : WireSpan) : v ∈ family ↔ HangsFrom (parked a) w v := by
  have hparked : ∀ v ∈ family, v ∈ parked a := by
    intro v hv
    rw [← hsum]
    exact Multiset.mem_add.mpr (Or.inl hv)
  constructor
  · intro hv
    obtain ⟨i, hi⟩ := List.getElem?_of_mem hv
    induction i using Nat.strong_induction_on generalizing v with
    | _ i ih =>
      obtain ⟨u, hu, hvu⟩ := hfirst i v hi
      rcases List.mem_cons.mp hu with rfl | hin
      · exact HangsFrom.child v (hparked v hv) hvu
      · obtain ⟨j, hj⟩ := List.getElem?_of_mem hin
        rw [List.getElem?_take] at hj
        split at hj
        · next hlt =>
          exact HangsFrom.deeper u v (ih j hlt u (List.mem_of_getElem? hj) hj) (hparked v hv) hvu
        · cases hj
  · -- what is still parked hangs from nothing that was placed
    have hleft : ∀ v ∈ parked a, (∃ u ∈ w :: family, v.parentId = some u.id) → v ∈ family := by
      intro v hv ⟨u, hu, hvu⟩
      rw [← hsum] at hv
      rcases Multiset.mem_add.mp hv with hin | hin
      · exact hin
      · obtain ⟨p, ws, hget, hmem⟩ := (mem_parkedIn a'.pending v).mp hin
        obtain ⟨hold, hnot⟩ := h.pending_sub p ws hget
        have hvp := hwaiting.keyed p ws hold v hmem
        obtain rfl : p = u.id := Option.some.inj (hvp.symm.trans hvu)
        refine absurd ?_ hnot
        dsimp only
        rw [hins]
        exact List.mem_map_of_mem hu
    intro hv
    induction hv with
    | child v hin hvw => exact hleft v hin ⟨w, by simp, hvw⟩
    | deeper u v _ hin hvu ih => exact hleft v hin ⟨u, by simp [ih], hvu⟩

/-- INTERNAL: a run leaves the aggregator at rest. -/
theorem rested_of_run (budget : ℕ) (ops : List AggregatorOp) (a : Aggregator)
    (hids : ((absorbedSpans ops).map WireSpan.id).Nodup)
    (hrun : run AggregatorOp.perform (Aggregator.new budget) ops = some a) :
    Rested budget a ∧ parked a ≤ (absorbedSpans ops : Multiset WireSpan) := by
  have hdistinct := distinctIds_start (absorbedSpans ops) hids
  obtain ⟨⟨hkept, hpooled⟩, hwaiting⟩ := run_kept DistinctIds _ (waiting_runInvariant budget)
    DistinctIds.mono (fun seen a h => (Multiset.le_add_right _ _).trans h.1.1.bag) ops 0
    (Aggregator.new budget) a hdistinct
    ⟨⟨kept_new budget, pooled_new budget⟩, waiting_new budget⟩ hrun
  have hparked : parked a ≤ 0 + (absorbedSpans ops : Multiset WireSpan) := by
    have hbag := (Multiset.le_add_left _ _).trans hkept.bag
    rwa [Multiset.coe_nil, add_zero] at hbag
  refine ⟨⟨hkept.budget_eq, hkept.room, hkept.locked, hpooled, hwaiting, ?_,
    DistinctIds.mono _ _ hparked hdistinct⟩, by rwa [zero_add] at hparked⟩
  intro v hv hin
  rw [hkept.locked.mem_iff] at hin
  obtain ⟨e, he⟩ := Option.isSome_iff_exists.mp (ExtTreeMap.isSome_getElem?_iff_mem.mpr hin)
  have hid : e.span.id = v.id := hkept.id_eq v.id _ (by rw [located, he]; rfl)
  have hring : e.span ∈ ringSpans a := (mem_ringSpans a e.span).mpr ⟨v.id, e, he, rfl⟩
  exact hkept.fresh _ _ _ _ hdistinct v (by simpa using hv) e.span hring hid

/-- INTERNAL: a cascade with nothing left to do is over. -/
theorem cascades_done (a : Aggregator) (ins : List ℕ) (c : Cascade)
    (h : Cascades ⟨a, [], ins⟩ c) : c = ⟨a, [], ins⟩ := by
  rcases Relation.ReflTransGen.cases_head h with rfl | ⟨c₁, hstep, -⟩
  · rfl
  · cases hstep

/-- INTERNAL: **a report of a span that resolved**.
SRCLINE: state.rs:231-306 -/
theorem reported_placed (budget : ℕ) (a a' : Aggregator) (w : WireSpan) (ins : List ℕ)
    (hrest : Rested budget a) (hres : a.resolve w ≠ none)
    (hdrained : Draining budget a w ⟨a', [], ins⟩) : Reported budget a w a' ins := by
  obtain ⟨family, hins, hsum, hfirst⟩ := hdrained.family
  dsimp only at hins hsum
  rw [Multiset.coe_nil, zero_add] at hsum
  have hparent : ∀ p, w.parentId = some p → a.byId[p]? ≠ none := by
    intro p hp hnone
    apply hres
    unfold Aggregator.resolve
    rw [hp]
    simp only [hnone]
  have hsome : ins ≠ [] := by
    rw [hins]
    exact List.cons_ne_nil _ _
  -- the span itself was not parked, for its parent is in the ring
  have hself : w ∉ parked a := by
    intro hin
    obtain ⟨p, ws, hp, hget⟩ := mem_parked_key a hrest.waiting w hin
    exact hparent p hp (hrest.waiting.apart p ws hget)
  have hnodup : (parked a).Nodup := Multiset.Nodup.of_map _ hrest.distinct
  have hparts : (family : Multiset WireSpan).Nodup ∧ (parked a').Nodup ∧
      Disjoint (family : Multiset WireSpan) (parked a') := by
    rw [← hsum] at hnodup
    exact Multiset.nodup_add.mp hnodup
  have hsub : ∀ v, v ∈ family ∨ v ∈ parked a' → v ∈ parked a := by
    intro v hv
    rw [← hsum]
    exact Multiset.mem_add.mpr hv
  refine ⟨?_, ⟨fun hnil => absurd hnil hsome, ?_⟩, fun _ => ⟨family, hins, ?_, ?_, hfirst, ?_⟩⟩
  · have horder := hdrained.order_eq
    dsimp only at horder
    rw [horder]
    unfold List.rtake
    congr 1
    omega
  · rintro ⟨p, hp, hout⟩
    refine absurd ?_ hout
    rw [hrest.locked.mem_iff, ← ExtTreeMap.isSome_getElem?_iff_mem]
    exact Option.isSome_iff_ne_none.mpr (hparent p hp)
  · rw [List.nodup_cons]
    exact ⟨fun hin => hself (hsub w (Or.inl hin)), Multiset.coe_nodup.mp hparts.1⟩
  · exact hdrained.hangs hrest.waiting hins hsum hfirst
  · intro v hv hleft
    rcases List.mem_cons.mp hv with rfl | hin
    · exact hself (hsub _ (Or.inr hleft))
    · exact Multiset.disjoint_left.mp hparts.2.2 (Multiset.mem_coe.mpr hin) hleft

/-- INTERNAL: an arrival that is parked reports nothing.
SRCLINE: state.rs:243-249 -/
theorem reported_parked (budget : ℕ) (a : Aggregator) (w : WireSpan) (p : ℕ)
    (hrest : Rested budget a) (hp : w.parentId = some p) (hnone : a.byId[p]? = none) :
    Reported budget a w (a.parkPending p w) [] := by
  obtain ⟨-, horder, -, -, -⟩ := parkPending_frame a p w
  have hroom := hrest.room
  refine ⟨?_, ⟨fun _ => ⟨p, hp, ?_⟩, fun _ => rfl⟩, fun hne => absurd rfl hne⟩
  · rw [horder, List.append_nil]
    unfold List.rtake
    rw [show a.order.length - min budget a.order.length = 0 by omega, List.drop_zero]
  · rw [hrest.locked.mem_iff, ← ExtTreeMap.isSome_getElem?_iff_mem, hnone]
    exact Bool.false_ne_true

/-- INTERNAL: **every arrival is reported**.
SRCLINE: state.rs:213-306 -/
theorem rested_reported (budget : ℕ) (hpos : 1 ≤ budget) (a : Aggregator) (hrest : Rested budget a)
    (w : WireSpan) (hclosed : w.closedAtNs.isSome = true) :
    ∃ a' ins, a.absorb w = some (a', ins) ∧ Reported budget a w a' ins := by
  obtain ⟨a', ins, habsorb, -⟩ := absorb_total a w (by rw [hrest.budget_eq]; omega)
  refine ⟨a', ins, habsorb, ?_⟩
  have hopen : ¬ w.closedAtNs.isNone = true := by
    simpa [Option.isSome_iff_ne_none] using hclosed
  unfold absorb at habsorb
  rw [if_neg hopen] at habsorb
  have hcascade := absorbResolved_cascade _ a a' w [] ins habsorb []
  rcases Relation.ReflTransGen.cases_head hcascade with heq | ⟨c₁, hstep, hrun⟩
  · cases heq
  · rcases cascadeStep_cases _ _ hstep with
      ⟨v, rest, p, hwork, hp, hnone, rfl⟩ | ⟨v, rest, b, r, a₁, hwork, hres, hplace, rfl⟩
    · cases hwork
      cases cascades_done _ _ _ hrun
      exact reported_parked budget a w p hrest hp hnone
    · cases hwork
      have hstart := draining_start budget a a₁ w b r hpos hrest hplace
      rw [List.append_nil, List.nil_append] at hrun
      have hdrained := cascades_invariant (Draining budget a w)
        (fun c c' h hc => draining_step budget a w c c' hpos hrest h hc) _ _ hstart hrun
      exact reported_placed budget a a' w ins hrest (by rw [hres]; exact Option.some_ne_none _)
        hdrained

/-! ## The queue is the end of what was reported -/

/-- CODE: state.rs:213-364 — **an arrival reports the span and all that was parked below it**,
each once and after its parent, or nothing when its parent is not in the ring; and the queue
becomes the end of what it held and the report. -/
theorem absorb_reports (budget : ℕ) (hpos : 1 ≤ budget) (ops : List AggregatorOp) (a : Aggregator)
    (hids : ((absorbedSpans ops).map WireSpan.id).Nodup)
    (hrun : run AggregatorOp.perform (Aggregator.new budget) ops = some a)
    (w : WireSpan) (hclosed : w.closedAtNs.isSome = true) :
    ∃ a' ins, a.absorb w = some (a', ins) ∧ Reported budget a w a' ins ∧
      (w.id ∉ (absorbedSpans ops).map WireSpan.id → ins.Nodup) := by
  obtain ⟨hrest, hparked⟩ := rested_of_run budget ops a hids hrun
  obtain ⟨a', ins, habsorb, hreported⟩ := rested_reported budget hpos a hrest w hclosed
  refine ⟨a', ins, habsorb, hreported, fun hfresh => ?_⟩
  by_cases hnil : ins = []
  · rw [hnil]
    exact List.nodup_nil
  · obtain ⟨family, hins, hnodup, hhangs, -⟩ := hreported.family hnil
    have hfamily : ∀ v ∈ family, v ∈ parked a := by
      intro v hv
      cases (hhangs v).mp hv with
      | child _ hin _ => exact hin
      | deeper _ _ _ hin _ => exact hin
    rw [List.nodup_cons] at hnodup
    rw [hins, List.map_cons, List.nodup_cons]
    refine ⟨fun hin => hfresh ?_, ?_⟩
    · obtain ⟨v, hv, hvw⟩ := List.mem_map.mp hin
      rw [← hvw]
      exact List.mem_map_of_mem (Multiset.mem_coe.mp (Multiset.mem_of_le hparked (hfamily v hv)))
    · refine List.Nodup.map_on (fun u hu v hv huv => ?_) hnodup.2
      exact hrest.distinct.eq_of_id _ u v (hfamily u hu) (hfamily v hv) huv

/-- CODE: state.rs:213-306 — a root arrives after its child and grandchild, which are drained. -/
theorem absorb_reports_small :
    ∃ a a' ins, run AggregatorOp.perform (Aggregator.new 8)
        [.absorb (plainSpan 7 none 1), .absorb (plainSpan 3 (some 2) 1),
          .absorb (plainSpan 2 (some 1) 3)] = some a ∧
      a.absorb (plainSpan 1 none 9) = some (a', ins) ∧
      Reported 8 a (plainSpan 1 none 9) a' ins ∧ ins.Nodup := by
  obtain ⟨a, hrun⟩ := run_total [.absorb (plainSpan 7 none 1), .absorb (plainSpan 3 (some 2) 1),
    .absorb (plainSpan 2 (some 1) 3)] (Aggregator.new 8) (by decide)
  obtain ⟨a', ins, habsorb, hreported, hnodup⟩ :=
    absorb_reports 8 (by decide) _ a (by decide) hrun (plainSpan 1 none 9) (by decide)
  exact ⟨a, a', ins, hrun, habsorb, hreported, hnodup (by decide)⟩

end TracingConsole.Analysis
