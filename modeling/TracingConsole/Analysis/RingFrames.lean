import TracingConsole.Library.Runs
import TracingConsole.Model.Aggregate

/-!
# What the ring operations leave alone

Every operation of the aggregator touches a few fields of it.  The frame lemmas say which
it does not touch, `located` is what the ring holds up to the cached self times, and each
operation has one lemma for its effect on it.  The room loop (state.rs:259-262) has its
invariant rule, `makeRoomWithin_invariant`; it drops the oldest ids and no more than it has
to (`makeRoom_order`), and with a positive budget it stops (`makeRoom_total`).
-/

set_option autoImplicit false

namespace TracingConsole.Analysis

open Std (ExtTreeMap)
open TracingConsole.Library TracingConsole.Model TracingConsole.Model.Aggregator

/-! ## Frames -/

/-- INTERNAL: the part of an aggregator no span changes.
SRCLINE: state.rs:114-121 -/
def config (a : Aggregator) : ℕ × Finset String × ℕ :=
  (a.pendingCap, a.splitKeys, a.historyBudget)

/-- INTERNAL: the pool with its counter.
SRCLINE: state.rs:110-113 -/
def pool (a : Aggregator) : ExtTreeMap ℕ (List WireSpan) × ℕ := (a.pending, a.pendingLen)

/-- INTERNAL: what the ring holds under an id, up to the self time.
SRCLINE: state.rs:84-93 -/
def located (a : Aggregator) (id : ℕ) : Option (WireSpan × BucketKey × ℕ) :=
  a.byId[id]?.map fun e => (e.span, e.bucket, e.totalNs)

section Frame

variable (a : Aggregator)

/-- INTERNAL: SRCLINE: state.rs:366-391 -/
@[simp] theorem bumpParentSelf_frame (p n : ℕ) :
    config (a.bumpParentSelf p n) = config a ∧ pool (a.bumpParentSelf p n) = pool a ∧
    (a.bumpParentSelf p n).order = a.order ∧
    (a.bumpParentSelf p n).childSum = a.childSum := by
  unfold bumpParentSelf
  split
  · exact ⟨rfl, rfl, rfl, rfl⟩
  · dsimp only
    split
    · exact ⟨rfl, rfl, rfl, rfl⟩
    · split <;> exact ⟨rfl, rfl, rfl, rfl⟩

/-- INTERNAL: a bump rewrites the self time of its entry and nothing else of the ring.
SRCLINE: state.rs:366-391 -/
theorem bumpParentSelf_byId (p n id : ℕ) :
    (a.bumpParentSelf p n).byId[id]? =
      a.byId[id]?.map fun e => if id = p then { e with selfNs := e.totalNs - n } else e := by
  unfold bumpParentSelf
  cases hp : a.byId[p]? with
  | none =>
    by_cases h : id = p
    · subst h; simp [hp]
    · simp [h]
  | some e =>
    dsimp only
    have hread : (a.byId.insert p { e with selfNs := e.totalNs - n })[id]? =
        a.byId[id]?.map fun e => if id = p then { e with selfNs := e.totalNs - n } else e := by
      rw [getElem?_insert_eq]
      by_cases h : id = p
      · subst h; simp [hp]
      · simp [h]
    split
    · next hself =>
      rw [← hread, hself, getElem?_insert_eq]
      by_cases h : id = p
      · subst h; simp [hp]
      · simp [h]
    · split <;> exact hread

/-- INTERNAL: SRCLINE: state.rs:366-391 -/
@[simp] theorem located_bumpParentSelf (p n id : ℕ) :
    located (a.bumpParentSelf p n) id = located a id := by
  unfold located
  rw [bumpParentSelf_byId, Option.map_map]
  congr 1
  funext e
  simp only [Function.comp]
  split <;> rfl

/-- INTERNAL: SRCLINE: state.rs:343-348 -/
@[simp] theorem dropContribution_frame (e : Entry) :
    config (a.dropContribution e) = config a ∧ pool (a.dropContribution e) = pool a ∧
    (a.dropContribution e).order = a.order ∧ (a.dropContribution e).byId = a.byId ∧
    (a.dropContribution e).childSum = a.childSum := by
  unfold dropContribution
  split <;> exact ⟨rfl, rfl, rfl, rfl, rfl⟩

/-- INTERNAL: SRCLINE: state.rs:300-302 -/
@[simp] theorem takeWaiters_frame (id : ℕ) :
    config (a.takeWaiters id).2 = config a ∧ (a.takeWaiters id).2.order = a.order ∧
    (a.takeWaiters id).2.byId = a.byId ∧ (a.takeWaiters id).2.childSum = a.childSum ∧
    (a.takeWaiters id).2.buckets = a.buckets := by
  unfold takeWaiters
  split <;> exact ⟨rfl, rfl, rfl, rfl, rfl⟩

/-- INTERNAL: SRCLINE: state.rs:300-302 -/
@[simp] theorem located_takeWaiters (t id : ℕ) :
    located (a.takeWaiters t).2 id = located a id := by
  simp only [located, takeWaiters_frame]

/-- INTERNAL: SRCLINE: state.rs:353-363 -/
@[simp] theorem returnToParent_frame (e : Entry) :
    config (a.returnToParent e) = config a ∧ pool (a.returnToParent e) = pool a ∧
    (a.returnToParent e).order = a.order := by
  unfold returnToParent
  split
  · exact ⟨rfl, rfl, rfl⟩
  · split
    · split
      · exact ⟨rfl, rfl, rfl⟩
      · dsimp only
        refine ⟨?_, ?_, ?_⟩
        · rw [(bumpParentSelf_frame _ _ _).1]; rfl
        · rw [(bumpParentSelf_frame _ _ _).2.1]; rfl
        · rw [(bumpParentSelf_frame _ _ _).2.2.1]
    · exact ⟨rfl, rfl, rfl⟩

/-- INTERNAL: SRCLINE: state.rs:353-363 -/
@[simp] theorem located_returnToParent (e : Entry) (id : ℕ) :
    located (a.returnToParent e) id = located a id := by
  unfold returnToParent
  split
  · rfl
  · split
    · split
      · rfl
      · exact located_bumpParentSelf _ _ _ _
    · rfl

/-- INTERNAL: SRCLINE: state.rs:264-279 -/
@[simp] theorem chargeParent_frame (r : Bool) (w : WireSpan) :
    config (a.chargeParent r w) = config a ∧ pool (a.chargeParent r w) = pool a ∧
    (a.chargeParent r w).order = a.order := by
  unfold chargeParent
  split
  · exact ⟨rfl, rfl, rfl⟩
  · split
    · dsimp only
      refine ⟨?_, ?_, ?_⟩
      · rw [(bumpParentSelf_frame _ _ _).1]; rfl
      · rw [(bumpParentSelf_frame _ _ _).2.1]; rfl
      · rw [(bumpParentSelf_frame _ _ _).2.2.1]
    · exact ⟨rfl, rfl, rfl⟩

/-- INTERNAL: SRCLINE: state.rs:264-279 -/
@[simp] theorem located_chargeParent (r : Bool) (w : WireSpan) (id : ℕ) :
    located (a.chargeParent r w) id = located a id := by
  unfold chargeParent
  split
  · rfl
  · split
    · exact located_bumpParentSelf _ _ _ _
    · rfl

/-- INTERNAL: SRCLINE: state.rs:281-297 -/
@[simp] theorem insertEntry_frame (e : Entry) :
    config (a.insertEntry e) = config a ∧ pool (a.insertEntry e) = pool a ∧
    (a.insertEntry e).order = a.order ++ [e.span.id] ∧
    (a.insertEntry e).childSum = a.childSum :=
  ⟨rfl, rfl, rfl, rfl⟩

/-- INTERNAL: SRCLINE: state.rs:281-297 -/
theorem located_insertEntry (e : Entry) (id : ℕ) :
    located (a.insertEntry e) id =
      if id = e.span.id then some (e.span, e.bucket, e.totalNs) else located a id := by
  unfold located insertEntry
  rw [getElem?_insert_eq]
  split <;> rfl

/-- INTERNAL: **a placement, once there is room**, leaves the settings and the pool alone.
SRCLINE: state.rs:264-297 -/
theorem placed_frame (r : Bool) (w : WireSpan) (e : Entry) :
    config ((a.chargeParent r w).insertEntry e) = config a ∧
    pool ((a.chargeParent r w).insertEntry e) = pool a ∧
    ((a.chargeParent r w).insertEntry e).order = a.order ++ [e.span.id] := by
  obtain ⟨hconfig, hpool, horder⟩ := chargeParent_frame a r w
  exact ⟨hconfig, hpool, congrArg (fun order => order ++ [e.span.id]) horder⟩

/-- INTERNAL: SRCLINE: state.rs:264-297 -/
theorem located_placed (r : Bool) (w : WireSpan) (e : Entry) (id : ℕ) :
    located ((a.chargeParent r w).insertEntry e) id =
      if id = e.span.id then some (e.span, e.bucket, e.totalNs) else located a id := by
  rw [located_insertEntry, located_chargeParent]

/-- INTERNAL: what is not located has no entry. -/
theorem located_eq_none (id : ℕ) : located a id = none ↔ a.byId[id]? = none :=
  Option.map_eq_none_iff

/-- INTERNAL: an id is in the ring iff something is located under it. -/
theorem mem_byId_iff (id : ℕ) : id ∈ a.byId ↔ (located a id).isSome := by
  unfold located
  rw [Option.isSome_map, ExtTreeMap.isSome_getElem?_iff_mem]

end Frame

/-! ## Evicting -/

/-- INTERNAL: the oldest id leaves the queue.
SRCLINE: state.rs:321-324 -/
@[simp] theorem evictOldest_order (a : Aggregator) : a.evictOldest.order = a.order.tail := by
  unfold evictOldest
  split
  · next h => simp [h]
  · next id order h =>
    dsimp only
    split
    · simp [h]
    · simp [h]

/-- INTERNAL: SRCLINE: state.rs:321-364 -/
@[simp] theorem evictOldest_config (a : Aggregator) : config a.evictOldest = config a := by
  unfold evictOldest
  split
  · rfl
  · dsimp only
    split
    · rfl
    · rw [(returnToParent_frame _ _).1, (dropContribution_frame _ _).1]
      exact (takeWaiters_frame _ _).1

/-- INTERNAL: the evicted id is located no more, everything else stays.
SRCLINE: state.rs:321-364 -/
theorem located_evictOldest (a : Aggregator) (id : ℕ) (order : List ℕ) (k : ℕ)
    (h : a.order = id :: order) :
    located a.evictOldest k = if k = id then none else located a k := by
  unfold evictOldest
  rw [h]
  dsimp only
  split
  · next hnone =>
    by_cases hk : k = id
    · subst hk; simp [located, hnone]
    · simp [located, hk]
  · next e he =>
    rw [located_returnToParent]
    unfold located
    simp only [dropContribution_frame, takeWaiters_frame, getElem?_erase_eq]
    split <;> rfl

/-- INTERNAL: the pool loses what waited for the evicted span.
SRCLINE: state.rs:325-333 -/
theorem pool_evictOldest (a : Aggregator) (id : ℕ) (order : List ℕ) (e : Entry)
    (h : a.order = id :: order) (he : a.byId[id]? = some e) :
    pool a.evictOldest = pool (a.takeWaiters id).2 := by
  unfold evictOldest
  rw [h]
  simp only [he]
  rw [(returnToParent_frame _ _).2.1, (dropContribution_frame _ _).2.1]
  unfold takeWaiters pool
  dsimp only
  split <;> rfl

/-- INTERNAL: **the rule for the room loop**: what an eviction preserves, making room
preserves, and it ends with room for one span.
SRCLINE: state.rs:259-262 -/
theorem makeRoomWithin_invariant (P : Aggregator → Prop)
    (hevict : ∀ a, P a → P a.evictOldest) (fuel : ℕ) (a a' : Aggregator) (ha : P a)
    (h : makeRoomWithin fuel a = some a') : P a' ∧ a'.order.length < a'.historyBudget := by
  induction fuel generalizing a with
  | zero =>
    unfold makeRoomWithin at h
    split at h
    · next hroom => cases h; exact ⟨ha, hroom⟩
    · cases h
  | succ fuel ih =>
    unfold makeRoomWithin at h
    split at h
    · next hroom => cases h; exact ⟨ha, hroom⟩
    · exact ih a.evictOldest (hevict a ha) h

/-- INTERNAL: making room drops the oldest ids and no more than it has to.
SRCLINE: state.rs:259-262 -/
theorem makeRoom_order (a a' : Aggregator) (h : a.makeRoom = some a') :
    a'.order = a.order.drop (a.order.length + 1 - a.historyBudget) ∧ config a' = config a := by
  have key : ∀ fuel (a a' : Aggregator), a.order.length ≤ fuel →
      makeRoomWithin fuel a = some a' →
      a'.order = a.order.drop (a.order.length + 1 - a.historyBudget) ∧
        config a' = config a := by
    intro fuel
    induction fuel with
    | zero =>
      intro a a' _ h
      unfold makeRoomWithin at h
      split at h
      · next hroom =>
        cases h
        exact ⟨by simp [show a.order.length + 1 - a.historyBudget = 0 by omega], rfl⟩
      · cases h
    | succ fuel ih =>
      intro a a' hlen h
      unfold makeRoomWithin at h
      split at h
      · next hroom =>
        cases h
        exact ⟨by simp [show a.order.length + 1 - a.historyBudget = 0 by omega], rfl⟩
      · next hfull =>
        have hcfg := evictOldest_config a
        have hbudget : a.evictOldest.historyBudget = a.historyBudget :=
          congrArg (fun c => c.2.2) hcfg
        obtain ⟨horder, hconfig⟩ := ih a.evictOldest a' (by simp; omega) h
        refine ⟨?_, hconfig.trans hcfg⟩
        rw [horder, evictOldest_order, hbudget]
        cases horig : a.order with
        | nil => simp
        | cons id rest =>
          have hlt : a.historyBudget ≤ rest.length + 1 := by
            simpa [horig] using Nat.le_of_not_lt hfull
          rw [List.tail_cons, List.length_cons,
            show rest.length + 1 + 1 - a.historyBudget =
              (rest.length + 1 - a.historyBudget) + 1 by omega, List.drop_succ_cons]
  exact key a.order.length a a' le_rfl h

/-- INTERNAL: a ring with room is left alone.
SRCLINE: state.rs:259-262 -/
theorem makeRoom_of_room (a : Aggregator) (h : a.order.length < a.historyBudget) :
    a.makeRoom = some a := by
  unfold makeRoom
  cases a.order.length with
  | zero =>
    unfold makeRoomWithin
    rw [if_pos h]
  | succ n =>
    unfold makeRoomWithin
    rw [if_pos h]

/-- INTERNAL: a ring with a positive budget has room to make.
SRCLINE: state.rs:259-262 -/
theorem makeRoom_total (a : Aggregator) (h : 0 < a.historyBudget) :
    ∃ a', a.makeRoom = some a' := by
  have key : ∀ fuel (a : Aggregator), a.order.length ≤ fuel → 0 < a.historyBudget →
      ∃ a', makeRoomWithin fuel a = some a' := by
    intro fuel
    induction fuel with
    | zero =>
      intro a hlen hb
      exact ⟨a, by unfold makeRoomWithin; rw [if_pos (by omega)]⟩
    | succ fuel ih =>
      intro a hlen hb
      unfold makeRoomWithin
      split
      · exact ⟨a, rfl⟩
      · have hbudget : a.evictOldest.historyBudget = a.historyBudget :=
          congrArg (fun c => c.2.2) (evictOldest_config a)
        exact ih a.evictOldest (by simp; omega) (by omega)
  exact key a.order.length a le_rfl h

/-! ## Lock-step -/

/-- INTERNAL: **the queue and the map hold the same ids**, each once.
SRCLINE: state.rs:96-101 -/
structure Locked (a : Aggregator) : Prop where
  nodup : a.order.Nodup
  mem_iff : ∀ id, id ∈ a.order ↔ id ∈ a.byId

/-- INTERNAL: the aggregator starts locked. -/
theorem locked_new (budget : ℕ) : Locked (Aggregator.new budget) :=
  ⟨List.nodup_nil, fun id => by simp [Aggregator.new]⟩

/-- INTERNAL: lock-step is about the queue and the located ids alone. -/
theorem locked_congr (a a' : Aggregator) (horder : a'.order = a.order)
    (hlocated : ∀ id, located a' id = located a id) (h : Locked a) : Locked a' := by
  refine ⟨?_, fun id => ?_⟩
  · rw [horder]
    exact h.nodup
  · rw [horder, mem_byId_iff, hlocated, ← mem_byId_iff]
    exact h.mem_iff id

/-- INTERNAL: an eviction keeps lock-step.
SRCLINE: state.rs:321-328 -/
theorem locked_evictOldest (a : Aggregator) (h : Locked a) : Locked a.evictOldest := by
  cases horder : a.order with
  | nil =>
    have hsame : a.evictOldest = a := by
      unfold evictOldest
      rw [horder]
    rw [hsame]
    exact h
  | cons id rest =>
    have hnodup := h.nodup
    rw [horder] at hnodup
    have hfresh := (List.nodup_cons.mp hnodup).1
    refine ⟨?_, fun k => ?_⟩
    · rw [evictOldest_order, horder]
      exact (List.nodup_cons.mp hnodup).2
    · have hold := h.mem_iff k
      rw [horder, mem_byId_iff] at hold
      rw [evictOldest_order, horder, mem_byId_iff, located_evictOldest a id rest k horder]
      by_cases hk : k = id
      · subst hk
        simpa using hfresh
      · rw [if_neg hk, ← hold, List.tail_cons, List.mem_cons]
        simp [hk]

/-- INTERNAL: an insertion keeps lock-step exactly when the id is new.
SRCLINE: state.rs:284-297 -/
theorem locked_insertEntry (a : Aggregator) (e : Entry) (h : Locked a) :
    Locked (a.insertEntry e) ↔ e.span.id ∉ a.order := by
  have horder := (insertEntry_frame a e).2.2.1
  constructor
  · intro h'
    have := h'.nodup
    rw [horder, List.nodup_append] at this
    intro hmem
    exact this.2.2 _ hmem _ (List.mem_singleton_self _) rfl
  · intro hnew
    refine ⟨?_, fun k => ?_⟩
    · rw [horder, List.nodup_append]
      refine ⟨h.nodup, List.nodup_singleton _, ?_⟩
      rintro k hk k' hk' rfl
      rw [List.mem_singleton] at hk'
      exact hnew (hk' ▸ hk)
    · rw [horder, mem_byId_iff, located_insertEntry, List.mem_append, List.mem_singleton]
      by_cases hk : k = e.span.id
      · simp [hk]
      · rw [if_neg hk, ← mem_byId_iff, ← h.mem_iff k]
        simp [hk]

end TracingConsole.Analysis
