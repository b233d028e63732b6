import TracingConsole.Analysis.RingFrames

/-!
# The cascade of one absorbed span

`absorbResolved` (state.rs:231-306) calls itself on the spans that waited for the one it
has just placed.  Here that recursion is laid out flat: a `Cascade` is an aggregator with
the spans still to be processed and the ids placed so far, and `cascadeStep` processes the
first of them, either parking it or placing it and putting the spans that waited for it in
front of the rest.

`absorbResolved_cascade` says that a call is a run of cascade steps, so that what a single
step preserves an absorbed span preserves, and `absorbResolved_total` that the depth the
call is given suffices whenever the ring has room for a span at all.
-/

set_option autoImplicit false

namespace TracingConsole.Analysis

open Std (ExtTreeMap)
open TracingConsole.Library TracingConsole.Model TracingConsole.Model.Aggregator

/-! ## The bag of parked spans -/

/-- INTERNAL: all spans of a pool, whichever parent they wait for.
SRCLINE: state.rs:103-112 -/
def parkedIn (pending : ExtTreeMap ℕ (List WireSpan)) : Multiset WireSpan :=
  (values pending).bind fun waiters => (waiters : Multiset WireSpan)

/-- INTERNAL: all parked spans. -/
def parked (a : Aggregator) : Multiset WireSpan := parkedIn a.pending

/-- INTERNAL: the counter `absorbResolvedAll` takes its depth from is the size of the bag. -/
theorem card_parked (a : Aggregator) : (parked a).card = a.parkedCount := by
  unfold parked parkedIn parkedCount values
  rw [Multiset.card_bind, Multiset.map_coe, Multiset.sum_coe, List.map_map]
  rfl

/-- INTERNAL: nothing is parked in an empty pool. -/
@[simp] theorem parkedIn_empty : parkedIn ∅ = 0 := by
  simp [parkedIn]

/-- INTERNAL: a bucket of the pool is a part of the bag. -/
theorem parkedIn_eq_add (pending : ExtTreeMap ℕ (List WireSpan)) (p : ℕ)
    (waiters : List WireSpan) (h : pending[p]? = some waiters) :
    parkedIn pending = waiters + parkedIn (pending.erase p) := by
  unfold parkedIn
  rw [values_eq_cons_erase pending p waiters h, Multiset.cons_bind]

/-- INTERNAL: a span is parked iff some bucket holds it. -/
theorem mem_parkedIn (pending : ExtTreeMap ℕ (List WireSpan)) (w : WireSpan) :
    w ∈ parkedIn pending ↔ ∃ p : ℕ, ∃ waiters, pending[p]? = some waiters ∧ w ∈ waiters := by
  simp only [parkedIn, Multiset.mem_bind, mem_values, Multiset.mem_coe]
  constructor
  · rintro ⟨ws, ⟨p, hp⟩, hw⟩; exact ⟨p, ws, hp, hw⟩
  · rintro ⟨p, ws, hp, hw⟩; exact ⟨ws, ⟨p, hp⟩, hw⟩

/-- INTERNAL: taking the waiters of `id` out of the table.
SRCLINE: state.rs:300-302 -/
theorem takeWaiters_pool (a : Aggregator) (id : ℕ) :
    (a.takeWaiters id).1 = a.pending.getD id [] ∧
      (a.takeWaiters id).2.pending = a.pending.erase id := by
  unfold takeWaiters
  rw [ExtTreeMap.getD_eq_getD_getElem?]
  split
  · next ws hget => exact ⟨by rw [hget]; rfl, rfl⟩
  · next hnone => exact ⟨by rw [hnone]; rfl, (erase_of_none a.pending id hnone).symm⟩

/-- INTERNAL: taking the waiters out splits the bag.
SRCLINE: state.rs:300-302 -/
theorem parked_takeWaiters (a : Aggregator) (id : ℕ) :
    parked a = ((a.takeWaiters id).1 : Multiset WireSpan) + parked (a.takeWaiters id).2 := by
  unfold takeWaiters
  split
  · next waiters h => exact parkedIn_eq_add a.pending id waiters h
  · simp

/-- INTERNAL: the bag with one more span pushed onto a bucket.
SRCLINE: state.rs:309 -/
theorem parkedIn_push (pending : ExtTreeMap ℕ (List WireSpan)) (p : ℕ) (w : WireSpan) :
    parkedIn (pending.insert p (pending.getD p [] ++ [w])) = w ::ₘ parkedIn pending := by
  have hread : (pending.insert p (pending.getD p [] ++ [w]))[p]? =
      some (pending.getD p [] ++ [w]) := by simp
  have herase : (pending.insert p (pending.getD p [] ++ [w])).erase p = pending.erase p := by
    refine ExtTreeMap.ext_getElem? fun k => ?_
    simp only [getElem?_erase_eq, getElem?_insert_eq]
    split <;> rfl
  rw [parkedIn_eq_add _ p _ hread, herase, ExtTreeMap.getD_eq_getD_getElem?]
  cases hp : pending[p]? with
  | none =>
    rw [erase_of_none pending p hp]
    rfl
  | some waiters =>
    rw [parkedIn_eq_add pending p waiters hp, Option.getD_some, ← Multiset.coe_add,
      Multiset.coe_singleton, add_right_comm, add_comm _ ({w} : Multiset WireSpan),
      Multiset.singleton_add]

/-- INTERNAL: the trim loop drops buckets, and leaves everything but the pool alone.
SRCLINE: state.rs:311-318 -/
theorem trimPending_spec (fuel : ℕ) (a : Aggregator) :
    (∀ (p : ℕ) (ws : List WireSpan), (trimPending fuel a).pending[p]? = some ws →
      a.pending[p]? = some ws) ∧
    parked (trimPending fuel a) ≤ parked a ∧
    ∃ pending len, trimPending fuel a = { a with pending := pending, pendingLen := len } := by
  induction fuel generalizing a with
  | zero => exact ⟨fun _ _ h => h, le_rfl, a.pending, a.pendingLen, rfl⟩
  | succ fuel ih =>
    unfold trimPending
    split
    · split
      · next k dropped rest hpop =>
        obtain ⟨hread, hrest, -⟩ := popFirst_eq_some _ _ _ _ hpop
        obtain ⟨hsub, hle, pending, len, heq⟩ := ih
          { a with pending := rest, pendingLen := a.pendingLen - dropped.length }
        refine ⟨fun p ws h => ?_, hle.trans ?_, pending, len, heq⟩
        · have := hsub p ws h
          rw [hrest, getElem?_erase_eq] at this
          split at this
          · cases this
          · exact this
        · change parkedIn rest ≤ parkedIn a.pending
          rw [hrest, parkedIn_eq_add a.pending k dropped hread]
          exact Multiset.le_add_left _ _
      · exact ⟨fun _ _ h => h, le_rfl, a.pending, a.pendingLen, rfl⟩
    · exact ⟨fun _ _ h => h, le_rfl, a.pending, a.pendingLen, rfl⟩

/-- INTERNAL: parking touches the pool alone and adds at most the span to it.
SRCLINE: state.rs:308-319 -/
theorem parkPending_spec (a : Aggregator) (p : ℕ) (w : WireSpan) :
    parked (a.parkPending p w) ≤ w ::ₘ parked a ∧
    ∃ pending len, a.parkPending p w = { a with pending := pending, pendingLen := len } := by
  unfold parkPending
  dsimp only
  generalize (a.pending.insert p (a.pending.getD p [] ++ [w])).size = fuel
  obtain ⟨-, hle, pending, len, heq⟩ := trimPending_spec fuel
    { a with
      pending := a.pending.insert p (a.pending.getD p [] ++ [w])
      pendingLen := a.pendingLen + 1 }
  refine ⟨hle.trans (le_of_eq ?_), pending, len, heq⟩
  exact parkedIn_push a.pending p w

/-- INTERNAL: SRCLINE: state.rs:308-319 -/
@[simp] theorem parkPending_frame (a : Aggregator) (p : ℕ) (w : WireSpan) :
    config (a.parkPending p w) = config a ∧ (a.parkPending p w).order = a.order ∧
    (a.parkPending p w).byId = a.byId ∧ (a.parkPending p w).childSum = a.childSum ∧
    (a.parkPending p w).buckets = a.buckets := by
  obtain ⟨-, pending, len, heq⟩ := parkPending_spec a p w
  rw [heq]
  exact ⟨rfl, rfl, rfl, rfl, rfl⟩

/-- INTERNAL: SRCLINE: state.rs:308-319 -/
@[simp] theorem located_parkPending (a : Aggregator) (p id : ℕ) (w : WireSpan) :
    located (a.parkPending p w) id = located a id := by
  simp only [located, parkPending_frame]

/-- INTERNAL: a bucket of the pool after parking is an old one, or the one parked in with
the span at its end.
SRCLINE: state.rs:308-319 -/
theorem pending_parkPending (a : Aggregator) (p k : ℕ) (w : WireSpan) (ws : List WireSpan)
    (h : (a.parkPending p w).pending[k]? = some ws) :
    (k = p ∧ ws = a.pending.getD p [] ++ [w]) ∨ (k ≠ p ∧ a.pending[k]? = some ws) := by
  unfold parkPending at h
  have hsub := (trimPending_spec _ _).1 k ws h
  dsimp only at hsub
  rw [getElem?_insert_eq] at hsub
  split at hsub
  · next hk => exact Or.inl ⟨hk, (Option.some.inj hsub).symm⟩
  · next hk => exact Or.inr ⟨hk, hsub⟩

/-- INTERNAL: as long as the counter stays within the cap nothing is dropped.
SRCLINE: state.rs:308-319 -/
theorem parkPending_of_fits (a : Aggregator) (p : ℕ) (w : WireSpan)
    (h : a.pendingLen + 1 ≤ a.pendingCap) :
    a.parkPending p w =
      { a with
        pending := a.pending.insert p (a.pending.getD p [] ++ [w])
        pendingLen := a.pendingLen + 1 } := by
  unfold parkPending
  dsimp only
  cases (a.pending.insert p (a.pending.getD p [] ++ [w])).size with
  | zero => rfl
  | succ fuel =>
    unfold trimPending
    rw [if_neg (by dsimp only; omega)]

/-- INTERNAL: the pool is all there is to it. -/
theorem parked_congr (a a' : Aggregator) (h : pool a' = pool a) : parked a' = parked a :=
  congrArg parkedIn (congrArg Prod.fst h)

/-- INTERNAL: an eviction takes the spans that waited for the evicted one.
SRCLINE: state.rs:329-333 -/
theorem parked_evictOldest_le (a : Aggregator) : parked a.evictOldest ≤ parked a := by
  cases horder : a.order with
  | nil => simp [evictOldest, horder]
  | cons id rest =>
    cases hid : a.byId[id]? with
    | none =>
      apply le_of_eq
      apply parked_congr
      simp [evictOldest, horder, hid, pool]
    | some e =>
      rw [parked_congr _ _ (pool_evictOldest a id rest e horder hid), parked_takeWaiters a id]
      exact Multiset.le_add_left _ _

/-! ## Placing one span -/

/-- INTERNAL: a span whose parent is in the ring.
SRCLINE: state.rs:237-250 -/
theorem resolve_child (a : Aggregator) (w : WireSpan) (p : ℕ) (e : Entry)
    (hp : w.parentId = some p) (he : a.byId[p]? = some e) :
    a.resolve w = some (a.resolveWithParent w e, true) := by
  unfold Aggregator.resolve
  rw [hp]
  dsimp only
  rw [he]

/-- INTERNAL: how a span resolves: as a root, or under an entry of the ring.
SRCLINE: state.rs:232-250 -/
theorem resolve_eq_some (a : Aggregator) (w : WireSpan) (b : BucketKey) (r : Bool)
    (h : a.resolve w = some (b, r)) :
    (w.parentId = none ∧ b = a.resolveRoot w ∧ r = false) ∨
    (∃ p e, w.parentId = some p ∧ a.byId[p]? = some e ∧ b = a.resolveWithParent w e ∧
      r = true) := by
  unfold Aggregator.resolve at h
  split at h
  · next hp =>
    cases h
    exact Or.inl ⟨hp, rfl, rfl⟩
  · next p hp =>
    split at h
    · next e he =>
      cases h
      exact Or.inr ⟨p, e, hp, he, rfl, rfl⟩
    · cases h

/-- INTERNAL: a span that does not resolve waits for its parent.
SRCLINE: state.rs:237-249 -/
theorem resolve_eq_none_iff (a : Aggregator) (w : WireSpan) :
    a.resolve w = none ↔ ∃ p, w.parentId = some p ∧ a.byId[p]? = none := by
  constructor
  · intro h
    cases hp : w.parentId with
    | none =>
      unfold Aggregator.resolve at h
      rw [hp] at h
      cases h
    | some p =>
      refine ⟨p, rfl, ?_⟩
      cases he : a.byId[p]? with
      | none => rfl
      | some e =>
        rw [resolve_child a w p e hp he] at h
        cases h
  · rintro ⟨p, hp, he⟩
    unfold Aggregator.resolve
    rw [hp]
    dsimp only
    rw [he]

/-- INTERNAL: a placement makes room, charges the parent and adds the entry.
SRCLINE: state.rs:252-298 -/
theorem place_eq_some (a a' : Aggregator) (w : WireSpan) (b : BucketKey) (r : Bool)
    (h : a.place w b r = some a') :
    ∃ a₁, a.makeRoom = some a₁ ∧ a' = (a₁.chargeParent r w).insertEntry (a.entryOf w b) := by
  unfold place at h
  obtain ⟨a₁, h₁, h₂⟩ := Option.map_eq_some_iff.mp h
  exact ⟨a₁, h₁, h₂.symm⟩

/-- INTERNAL: a placement puts the id at the end of the queue, the room made before it.
SRCLINE: state.rs:259-285 -/
theorem place_order (a a' : Aggregator) (w : WireSpan) (b : BucketKey) (r : Bool)
    (h : a.place w b r = some a') :
    a'.order = a.order.drop (a.order.length + 1 - a.historyBudget) ++ [w.id] ∧
    config a' = config a := by
  obtain ⟨a₁, hroom, rfl⟩ := place_eq_some a a' w b r h
  obtain ⟨horder, hconfig⟩ := makeRoom_order a a₁ hroom
  refine ⟨?_, ?_⟩
  · rw [(placed_frame _ _ _ _).2.2, horder]
    rfl
  · rw [(placed_frame _ _ _ _).1, hconfig]

/-- INTERNAL: **a placement keeps lock-step exactly when its id is not among those left
after making room**.
SRCLINE: state.rs:252-298 -/
theorem locked_place (a a' : Aggregator) (w : WireSpan) (b : BucketKey) (r : Bool)
    (h : a.place w b r = some a') (hlocked : Locked a) :
    Locked a' ↔ w.id ∉ a.order.drop (a.order.length + 1 - a.historyBudget) := by
  obtain ⟨a₁, hroom, rfl⟩ := place_eq_some a a' w b r h
  have hlocked₁ : Locked a₁ :=
    (makeRoomWithin_invariant Locked locked_evictOldest _ a a₁ hlocked hroom).1
  have hcharged : Locked (a₁.chargeParent r w) :=
    locked_congr a₁ _ (chargeParent_frame a₁ r w).2.2 (located_chargeParent a₁ r w) hlocked₁
  rw [locked_insertEntry _ _ hcharged, (chargeParent_frame a₁ r w).2.2,
    (makeRoom_order a a₁ hroom).1]
  rfl

/-! ## The cascade -/

/-- INTERNAL: an aggregator in the middle of an absorption: the spans still to be
processed and the ids placed so far.
SRCLINE: state.rs:231-306 -/
structure Cascade where
  agg : Aggregator
  work : List WireSpan
  inserted : List ℕ

/-- INTERNAL: process the first span of the work list.
SRCLINE: state.rs:231-306 -/
def cascadeStep (c : Cascade) : Option Cascade :=
  match c.work with
  | [] => none
  | w :: rest =>
    match c.agg.resolve w with
    | none => some ⟨c.agg.parkPending (w.parentId.getD 0) w, rest, c.inserted⟩
    | some (b, r) =>
      (c.agg.place w b r).map fun a =>
        ⟨(a.takeWaiters w.id).2, (a.takeWaiters w.id).1 ++ rest, c.inserted ++ [w.id]⟩

/-- INTERNAL: one cascade step leads from `c` to `c'`. -/
def CascadeStep (c c' : Cascade) : Prop := cascadeStep c = some c'

/-- INTERNAL: the cascade steps lead from `c` to `c'`. -/
abbrev Cascades : Cascade → Cascade → Prop := Relation.ReflTransGen CascadeStep

/-- INTERNAL: **what a cascade step can do**: park the first span, whose parent is not in
the ring, or place it and take out the spans that waited for it.
SRCLINE: state.rs:231-306 -/
theorem cascadeStep_cases (c c' : Cascade) (h : CascadeStep c c') :
    (∃ w rest p, c.work = w :: rest ∧ w.parentId = some p ∧ c.agg.byId[p]? = none ∧
      c' = ⟨c.agg.parkPending p w, rest, c.inserted⟩) ∨
    (∃ w rest b r a, c.work = w :: rest ∧ c.agg.resolve w = some (b, r) ∧
      c.agg.place w b r = some a ∧
      c' = ⟨(a.takeWaiters w.id).2, (a.takeWaiters w.id).1 ++ rest,
        c.inserted ++ [w.id]⟩) := by
  unfold CascadeStep cascadeStep at h
  split at h
  · cases h
  · next w rest hwork =>
    split at h
    · next hres =>
      left
      obtain ⟨p, hp, hnone⟩ := (resolve_eq_none_iff c.agg w).mp hres
      refine ⟨w, rest, p, hwork, hp, hnone, ?_⟩
      rw [hp] at h
      exact (Option.some.inj h).symm
    · next b r hres =>
      right
      obtain ⟨a, ha, hc⟩ := Option.map_eq_some_iff.mp h
      exact ⟨w, rest, b, r, a, hwork, hres, ha, hc.symm⟩

/-- INTERNAL: **a call is a run of cascade steps**: it turns the span at the head of the
work list into what the call returns and leaves the rest of the list.
SRCLINE: state.rs:231-306 -/
theorem absorbResolved_cascade (fuel : ℕ) (a a' : Aggregator) (w : WireSpan)
    (ins ins' : List ℕ) (h : absorbResolved fuel a w ins = some (a', ins'))
    (rest : List WireSpan) : Cascades ⟨a, w :: rest, ins⟩ ⟨a', rest, ins'⟩ := by
  induction fuel generalizing a w ins a' ins' rest with
  | zero => cases h
  | succ fuel ih =>
    -- the waiters are processed one by one, each by a call one level deeper
    have hlist : ∀ (ws : List WireSpan) (acc acc' : Aggregator × List ℕ),
        ws.foldlM (fun (acc : Aggregator × List ℕ) w => absorbResolved fuel acc.1 w acc.2)
          acc = some acc' →
        Cascades ⟨acc.1, ws ++ rest, acc.2⟩ ⟨acc'.1, rest, acc'.2⟩ := by
      intro ws
      induction ws with
      | nil =>
        intro acc acc' hacc
        cases hacc
        exact .refl
      | cons x ws ihws =>
        intro acc acc' hacc
        rw [List.foldlM_cons] at hacc
        obtain ⟨mid, hmid, hacc⟩ := Option.bind_eq_some_iff.mp hacc
        exact (ih acc.1 mid.1 x acc.2 mid.2 hmid (ws ++ rest)).trans (ihws mid acc' hacc)
    unfold absorbResolved at h
    split at h
    · next hres =>
      simp only [Option.some.injEq, Prod.mk.injEq] at h
      obtain ⟨rfl, rfl⟩ := h
      refine Relation.ReflTransGen.single ?_
      simp [CascadeStep, cascadeStep, hres]
    · next b r hres =>
      split at h
      · cases h
      · next a₁ hplace =>
        refine Relation.ReflTransGen.head ?_
          (hlist (a₁.takeWaiters w.id).1 ((a₁.takeWaiters w.id).2, ins ++ [w.id]) (a', ins') h)
        simp [CascadeStep, cascadeStep, hres, hplace]

/-- INTERNAL: **the cascade rule**: what a single step preserves, an absorption
preserves.
SRCLINE: state.rs:231-306 -/
theorem cascades_invariant (P : Cascade → Prop)
    (hstep : ∀ c c', P c → CascadeStep c c' → P c') (c c' : Cascade) (hc : P c)
    (h : Cascades c c') : P c' := by
  induction h with
  | refl => exact hc
  | tail _ hlast ih => exact hstep _ _ ih hlast

/-! ## The depth suffices -/

/-- INTERNAL: a placement parks nothing.
SRCLINE: state.rs:252-298 -/
theorem parked_place_le (a a' : Aggregator) (w : WireSpan) (b : BucketKey) (r : Bool)
    (h : a.place w b r = some a') : parked a' ≤ parked a := by
  obtain ⟨a₁, hroom, rfl⟩ := place_eq_some a a' w b r h
  rw [parked_congr _ _ (placed_frame a₁ r w (a.entryOf w b)).2.1]
  exact (makeRoomWithin_invariant (fun x => parked x ≤ parked a)
    (fun x hx => (parked_evictOldest_le x).trans hx) _ a a₁ le_rfl hroom).1

/-- INTERNAL: **a depth above the number of parked spans suffices**: each level of the
recursion is for a span taken out of the pool, and a span put back ends its level.  The
pool grows by at most the span the call is for.
SRCLINE: state.rs:231-306 -/
theorem absorbResolved_total (fuel : ℕ) (a : Aggregator) (w : WireSpan) (ins : List ℕ)
    (hbudget : 0 < a.historyBudget) (hfuel : (parked a).card < fuel) :
    ∃ a' ins', absorbResolved fuel a w ins = some (a', ins') ∧
      (parked a').card ≤ (parked a).card + 1 ∧ config a' = config a := by
  induction fuel generalizing a w ins with
  | zero => omega
  | succ fuel ih =>
    have hlist : ∀ (ws : List WireSpan) (acc : Aggregator × List ℕ),
        0 < acc.1.historyBudget → (parked acc.1).card + ws.length ≤ fuel →
        ∃ acc', ws.foldlM
            (fun (acc : Aggregator × List ℕ) w => absorbResolved fuel acc.1 w acc.2) acc =
              some acc' ∧
          (parked acc'.1).card ≤ (parked acc.1).card + ws.length ∧
          config acc'.1 = config acc.1 := by
      intro ws
      induction ws with
      | nil => intro acc _ _; exact ⟨acc, rfl, by simp, rfl⟩
      | cons x ws ihws =>
        intro acc hb hc
        rw [List.length_cons] at hc
        obtain ⟨a₁, ins₁, h₁, hcard₁, hcfg₁⟩ := ih acc.1 x acc.2 hb (by omega)
        have hb₁ : 0 < a₁.historyBudget := by
          rw [show a₁.historyBudget = acc.1.historyBudget from congrArg (fun c => c.2.2) hcfg₁]
          exact hb
        obtain ⟨acc', h₂, hcard₂, hcfg₂⟩ := ihws (a₁, ins₁) hb₁ (by dsimp only; omega)
        refine ⟨acc', ?_, ?_, hcfg₂.trans hcfg₁⟩
        · rw [List.foldlM_cons, h₁]; exact h₂
        · rw [List.length_cons]; dsimp only at hcard₂; omega
    unfold absorbResolved
    cases hres : a.resolve w with
    | none =>
      obtain ⟨hle, pending, len, heq⟩ := parkPending_spec a (w.parentId.getD 0) w
      refine ⟨_, _, rfl, ?_, ?_⟩
      · simpa using Multiset.card_le_card hle
      · rw [heq]; rfl
    | some br =>
      obtain ⟨b, r⟩ := br
      obtain ⟨a₁, hroom⟩ := makeRoom_total a hbudget
      have hplace : a.place w b r =
          some ((a₁.chargeParent r w).insertEntry (a.entryOf w b)) := by
        simp [place, hroom]
      generalize (a₁.chargeParent r w).insertEntry (a.entryOf w b) = a₂ at hplace
      dsimp only
      rw [hplace]
      dsimp only
      have hcfg : config a₂ = config a := (place_order a a₂ w b r hplace).2
      have hsplit := congrArg Multiset.card (parked_takeWaiters a₂ w.id)
      rw [Multiset.card_add, Multiset.coe_card] at hsplit
      have hle := Multiset.card_le_card (parked_place_le a a₂ w b r hplace)
      have hcfg' : config (a₂.takeWaiters w.id).2 = config a :=
        (takeWaiters_frame a₂ w.id).1.trans hcfg
      have hb' : 0 < (a₂.takeWaiters w.id).2.historyBudget := by
        rw [show (a₂.takeWaiters w.id).2.historyBudget = a.historyBudget from
          congrArg (fun c => c.2.2) hcfg']
        exact hbudget
      obtain ⟨acc', hfold, hcard, hcfg''⟩ :=
        hlist (a₂.takeWaiters w.id).1 ((a₂.takeWaiters w.id).2, ins ++ [w.id]) hb'
          (by dsimp only; omega)
      refine ⟨acc'.1, acc'.2, hfold, ?_, hcfg''.trans hcfg'⟩
      dsimp only at hcard
      omega

/-- INTERNAL: with a positive budget every absorption returns.
SRCLINE: state.rs:213-229 -/
theorem absorb_total (a : Aggregator) (w : WireSpan) (hbudget : 0 < a.historyBudget) :
    ∃ a' ins, a.absorb w = some (a', ins) ∧ config a' = config a := by
  unfold absorb
  split
  · exact ⟨a, [], rfl, rfl⟩
  · obtain ⟨a', ins', h, -, hcfg⟩ := absorbResolved_total (a.parkedCount + 1) a w [] hbudget
      (by rw [card_parked]; omega)
    exact ⟨a', ins', h, hcfg⟩

end TracingConsole.Analysis
