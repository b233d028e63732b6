import TracingConsole.Analysis.ArrivalOrder
import TracingConsole.Analysis.RingGrowth
import TracingConsole.Analysis.RingResolved

/-!
# What a snapshot brings back

Loading a snapshot replays its spans from an empty aggregator, which is the loop of a split
rebuild under unchanged keys (`refeed_eq_absorbs`), and then parks the pool once more.  What is
derived of the spans is thus the same again (`byId_determined`), if no span of the ring has
lost its parent: one that has is parked by the replay, and its place in the ring is lost.
-/

set_option autoImplicit false

namespace TracingConsole.Analysis

open Std (ExtTreeMap)
open TracingConsole.Library TracingConsole.Model TracingConsole.Model.Aggregator

/-- INTERNAL: **the loaded aggregator has what the stored one had**, its rows apart.
SRCLINE: state.rs:521-563 -/
structure SnapshotKept (a b : Aggregator) : Prop where
  ring_eq : ringList b = ringList a
  pending_eq : ∀ p, b.pending.getD p [] = a.pending.getD p []
  keys_eq : b.splitKeys = a.splitKeys

/-! ## Replaying the ring -/

/-- INTERNAL: only closed spans are absorbed. -/
theorem closed_of_absorbed (ops : List AggregatorOp) (w : WireSpan)
    (h : w ∈ absorbedSpans ops) : w.closedAtNs.isSome = true := by
  unfold absorbedSpans at h
  obtain ⟨op, -, hw⟩ := List.mem_filterMap.mp h
  cases op with
  | absorb v =>
    dsimp only at hw
    split at hw
    · next hclosed =>
      cases hw
      exact hclosed
    · cases hw
  | setSplitKeys keys => cases hw

/-- INTERNAL: **the loop of a rebuild absorbs the spans of the ring in order**.
SRCLINE: state.rs:447-456, 552-555 -/
theorem refeed_eq_absorbs (order : List ℕ) (byId : ExtTreeMap ℕ Entry) (b : Aggregator)
    (hnodup : order.Nodup)
    (hclosed : ∀ (id : ℕ) (e : Entry), byId[id]? = some e →
      e.span.closedAtNs.isSome = true) :
    refeed order byId b =
      ((order.filterMap fun id => byId[id]?).map Entry.span).foldlM
        (fun (agg : Aggregator) span => (absorb agg span).map Prod.fst) b := by
  induction order generalizing byId b with
  | nil => rfl
  | cons id order ih =>
    obtain ⟨hfresh, hnodup⟩ := List.nodup_cons.mp hnodup
    unfold refeed
    cases he : byId[id]? with
    | none =>
      rw [List.filterMap_cons_none he]
      exact ih byId b hnodup hclosed
    | some e =>
      -- the span taken out is not looked up again
      have hrest : (order.filterMap fun k => (byId.erase id)[k]?) =
          order.filterMap fun k => byId[k]? := by
        apply List.filterMap_congr
        intro k hk
        rw [getElem?_erase_eq, if_neg]
        rintro rfl
        exact hfresh hk
      have hopen : e.span.closedAtNs.isNone = false := by
        simpa [Option.isSome_iff_ne_none] using hclosed id e he
      have habsorb : absorb b e.span = b.absorbResolvedAll e.span [] := by
        unfold absorb
        rw [hopen, if_neg (by simp)]
      rw [List.filterMap_cons_some he, List.map_cons, List.foldlM_cons, habsorb,
        Option.bind_eq_bind, Option.bind_map]
      dsimp only
      congr 1
      funext r
      rw [ih (byId.erase id) r.1 hnodup ?_, hrest]
      · rfl
      · intro k e' hk
        rw [getElem?_erase_eq] at hk
        split at hk
        · cases hk
        · exact hclosed k e' hk

/-- INTERNAL: **loading a snapshot is a rebuild under the same keys**, and then parking the
pool.
SRCLINE: state.rs:434-456, 546-563 -/
theorem deserialize_serialize (a : Aggregator) (hlocked : Locked a)
    (hclosed : ∀ w ∈ ringSpans a, w.closedAtNs.isSome = true)
    (hcap : a.pendingCap = max (a.historyBudget / 4) 1) :
    deserialize a.serialize = (refeed a.order a.byId (cleared a a.splitKeys)).map fun b =>
      a.pending.toList.foldl (fun agg kv => agg.parkAll kv.1 kv.2) b := by
  have hstart : ({ new a.historyBudget with splitKeys := a.splitKeys } : Aggregator) =
      cleared a a.splitKeys := by
    unfold cleared new
    rw [← hcap]
  rw [refeed_eq_absorbs a.order a.byId _ hlocked.nodup fun id e he =>
    hclosed e.span ((mem_ringSpans a e.span).mpr ⟨id, e, he, rfl⟩)]
  unfold deserialize serialize
  dsimp only
  rw [hstart]
  rfl

/-- INTERNAL: parking touches the pool only.
SRCLINE: state.rs:308-319, 556-560 -/
theorem parkBuckets_frame (kvs : List (ℕ × List WireSpan)) (b : Aggregator) :
    ∃ pending len, kvs.foldl (fun agg kv => agg.parkAll kv.1 kv.2) b =
      { b with pending := pending, pendingLen := len } := by
  have hone : ∀ (p : ℕ) (ws : List WireSpan) (b : Aggregator), ∃ pending len,
      b.parkAll p ws = { b with pending := pending, pendingLen := len } := by
    intro p ws
    induction ws with
    | nil => exact fun b => ⟨b.pending, b.pendingLen, rfl⟩
    | cons w ws ih =>
      intro b
      obtain ⟨-, pending₁, len₁, heq⟩ := parkPending_spec b p w
      obtain ⟨pending, len, hrest⟩ := ih (b.parkPending p w)
      refine ⟨pending, len, ?_⟩
      unfold parkAll at hrest ⊢
      rw [List.foldl_cons, hrest, heq]
  induction kvs generalizing b with
  | nil => exact ⟨b.pending, b.pendingLen, rfl⟩
  | cons kv kvs ih =>
    obtain ⟨pending₁, len₁, heq⟩ := hone kv.1 kv.2 b
    obtain ⟨pending, len, hrest⟩ := ih (b.parkAll kv.1 kv.2)
    refine ⟨pending, len, ?_⟩
    rw [List.foldl_cons, hrest, heq]

/-! ## What is derived is determined -/

/-- INTERNAL: **the buckets are determined by the spans of the ring**, if no parent is missing.
SRCLINE: state.rs:393-404 -/
theorem located_determined (a b : Aggregator) (hresolved : Resolved a) (hresolved' : Resolved b)
    (hlocked : Locked a) (hlinked : Linked a) (hpresent : ParentsPresent a)
    (hkeys : b.splitKeys = a.splitKeys)
    (hspans : ∀ id, (located b id).map (fun x => (x.1, x.2.2)) =
      (located a id).map (fun x => (x.1, x.2.2))) (id : ℕ) : located b id = located a id := by
  rw [parentsPresent_iff a hlocked] at hpresent
  -- along the queue, since a parent is ahead of its children
  have hprefix : ∀ done rest, a.order = done ++ rest → ∀ id ∈ done,
      located b id = located a id := by
    intro done
    induction done using List.reverseRecOn with
    | nil =>
      intro rest _ id hid
      cases hid
    | append_singleton done k ih =>
      intro rest horder id hid
      have horder' : a.order = done ++ k :: rest := by
        rw [horder, List.append_assoc, List.singleton_append]
      rcases List.mem_append.mp hid with hdone | hlast
      · exact ih (k :: rest) horder' id hdone
      · obtain rfl := List.mem_singleton.mp hlast
        cases hx : located a id with
        | none =>
          have hnone := hspans id
          rw [hx, Option.map_none, Option.map_eq_none_iff] at hnone
          exact hnone
        | some x =>
          have hsome := hspans id
          rw [hx, Option.map_some] at hsome
          obtain ⟨y, hy, hyx⟩ := Option.map_eq_some_iff.mp hsome
          obtain ⟨hspan, htotal⟩ := Prod.mk.inj hyx
          have hbucket : y.2.1 = x.2.1 := by
            cases hp : x.1.parentId with
            | none =>
              rw [hresolved.root id x hx hp, hresolved'.root id y hy (by rw [hspan, hp]), hspan,
                resolveRoot, resolveRoot, hkeys]
            | some p =>
              have hin := hpresent id x hx p hp
              have hbefore := hlinked.parent_before done rest id horder' x hx p hp hin
              have hparent := ih (id :: rest) horder' p hbefore
              obtain ⟨z, hz⟩ : ∃ z, located a p = some z :=
                Option.isSome_iff_exists.mp
                  ((mem_byId_iff a p).mp ((hlocked.mem_iff p).mp hin))
              rw [hresolved.child id x p z hx hp hz,
                hresolved'.child id y p z hy (by rw [hspan, hp]) (hparent.trans hz), hspan, hkeys]
          rw [hy]
          exact congrArg some (Prod.ext hspan (Prod.ext hbucket htotal))
  by_cases hin : id ∈ a.order
  · exact hprefix a.order [] (List.append_nil _).symm id hin
  · have hnone : located a id = none := by
      rw [hlocked.mem_iff, mem_byId_iff, Bool.not_eq_true, Option.isSome_eq_false_iff,
        Option.isNone_iff_eq_none] at hin
      exact hin
    have hspan := hspans id
    rw [hnone, Option.map_none, Option.map_eq_none_iff] at hspan
    rw [hspan, hnone]

/-- INTERNAL: **so are the entries**, their self times included.
SRCLINE: state.rs:84-93 -/
theorem byId_determined (a b : Aggregator) (hwrapped : Wrapped a) (hwrapped' : Wrapped b)
    (hlocated : ∀ id, located b id = located a id) : b.byId = a.byId := by
  have hspans : ringSpans b = ringSpans a := ringSpans_congr b a hlocated
  refine ExtTreeMap.ext_getElem? fun id => ?_
  have hsame := hlocated id
  cases he : a.byId[id]? with
  | none =>
    rw [(located_eq_none a id).mpr he] at hsame
    exact (located_eq_none b id).mp hsame
  | some e =>
    unfold located at hsame
    rw [he, Option.map_some] at hsame
    obtain ⟨e', he', heq⟩ := Option.map_eq_some_iff.mp hsame
    obtain ⟨hspan, hrest⟩ := Prod.mk.inj heq
    obtain ⟨hbucket, htotal⟩ := Prod.mk.inj hrest
    have hself : e'.selfNs = e.selfNs := by
      rw [hwrapped.self_eq id e he, hwrapped'.self_eq id e' he', hwrapped.sum_eq id e he,
        hwrapped'.sum_eq id e' he', hspans, htotal]
    rw [he']
    cases e
    cases e'
    simp only at hspan hbucket htotal hself
    rw [hspan, hbucket, htotal, hself]

/-! ## Exactly when a snapshot keeps everything -/

/-- INTERNAL: the replay returns, whatever the budget.
SRCLINE: state.rs:552-555 -/
theorem replay_total (a : Aggregator) (hroom : a.order.length ≤ a.historyBudget) :
    ∃ b, refeed a.order a.byId (cleared a a.splitKeys) = some b ∧ config b = config a := by
  cases horder : a.order with
  | nil => exact ⟨cleared a a.splitKeys, rfl, rfl⟩
  | cons id rest =>
    rw [horder, List.length_cons] at hroom
    apply refeed_total
    change 0 < a.historyBudget
    omega

/-- INTERNAL: the spans the ring of a run bounds the tallies by. -/
def Tallyable (budget : ℕ) (spans : Multiset WireSpan) : Prop :=
  DistinctIds spans ∧ (budget ≤ 2 ^ 32 ∨ spans.card ≤ 2 ^ 32)

/-- INTERNAL: fewer spans can be tallied too. -/
theorem Tallyable.mono (budget : ℕ) (s t : Multiset WireSpan) (hle : s ≤ t)
    (h : Tallyable budget t) : Tallyable budget s :=
  ⟨DistinctIds.mono s t hle h.1, h.2.imp_right (Multiset.card_le_card hle).trans⟩

/-- INTERNAL: SRCLINE: state.rs:21-22 -/
theorem tallyable_runInvariant (budget : ℕ) :
    RunInvariant (Tallyable budget) fun seen a work => Kept budget seen a work ∧ Tallied True a := by
  apply tallied_runInvariant budget True (Tallyable budget) fun _ h => h.1
  intro _ seen a work hgood hkept
  rcases hgood.2 with hbudget | hcard
  · exact hkept.room.trans hbudget
  · rw [← card_ring a hkept.locked, ← Multiset.card_map Entry.span]
    exact (Multiset.card_le_card ((Multiset.le_add_right _ _).trans hkept.bag)).trans hcard

/-- INTERNAL: **what loading a snapshot gives back**, in a state with the invariants of a run:
the ring, the pool and the keys exactly when no parent is missing, and then the entries too.
SRCLINE: state.rs:529-563 -/
theorem load_spec (budget : ℕ) (seen : Multiset WireSpan) (a : Aggregator)
    (hids : DistinctIds seen) (hclosed : ∀ w ∈ seen, w.closedAtNs.isSome = true)
    (h : ((Kept budget seen a [] ∧ Tallied False a) ∧ Linked a) ∧ Settled budget a) :
    ∃ b₀ b, refeed a.order a.byId (cleared a a.splitKeys) = some b₀ ∧
      deserialize a.serialize = some b ∧ b.buckets = b₀.buckets ∧ b.byId = b₀.byId ∧
      (SnapshotKept a b ↔ ParentsPresent a) ∧ (ParentsPresent a → b₀.byId = a.byId) := by
  obtain ⟨⟨⟨hkept, htallied⟩, hlinked⟩, hsettled⟩ := h
  have hring : ringSpans a ≤ seen := (Multiset.le_add_right _ _).trans hkept.bag
  have hroom : a.order.length ≤ a.historyBudget := by
    rw [hkept.budget_eq]
    exact hkept.room
  obtain ⟨b₀, hreplay, hconfig⟩ := replay_total a hroom
  have hload := deserialize_serialize a hkept.locked
    (fun w hw => hclosed w (Multiset.mem_of_le hring hw)) hsettled.pooled.cap_eq
  rw [hreplay, Option.map_some] at hload
  obtain ⟨pending, len, hparked⟩ := parkBuckets_frame a.pending.toList b₀
  -- the replay has the invariants of a run
  have hstart := (settled_runInvariant budget).clear seen a a.splitKeys
    ⟨⟨⟨hkept, htallied⟩, hlinked⟩, hsettled⟩
  obtain ⟨seen', hle, ⟨⟨hkept', htallied'⟩, -⟩, hsettled'⟩ := refeed_kept DistinctIds _
    (settled_runInvariant budget) DistinctIds.mono a.order a.byId (cleared a a.splitKeys) b₀ 0
    (ringSpans a) (DistinctIds.mono _ _ hring hids) (zero_add _).le hstart hreplay
  have hkeys : b₀.splitKeys = a.splitKeys := congrArg (fun c => c.2.1) hconfig
  refine ⟨b₀, _, hreplay, hload, by rw [hparked], by rw [hparked], ?_⟩
  -- with every parent present the replay goes through the whole ring
  have hwhole : ParentsPresent a → b₀.order = a.order ∧ b₀.byId = a.byId ∧ b₀.pending = ∅ := by
    intro hpresent
    have hempty : Refed a [] (cleared a a.splitKeys) := by
      refine ⟨rfl, ?_, rfl, rfl⟩
      intro id
      simp [located, cleared]
    obtain ⟨b₁, h₁, hrefed⟩ := refed_all a hlinked hkept.locked hkept.id_eq htallied hroom
      hpresent [] a.order rfl a.byId (fun _ _ => rfl) _ hempty
    obtain rfl : b₁ = b₀ := Option.some.inj (h₁.symm.trans hreplay)
    have hlocated := located_determined a b₁ hsettled.resolved hsettled'.resolved hkept.locked
      hlinked hpresent hkeys fun id => by
        have hsame := congrArg (Option.map fun x => (x.1, x.2.2))
          (hrefed.located_all hkept.locked id)
        simpa [Option.map_map, Function.comp_def] using hsame
    exact ⟨hrefed.order_eq, byId_determined a b₁ hsettled.wrapped hsettled'.wrapped hlocated,
      hrefed.pending_eq⟩
  refine ⟨⟨fun hsame => ?_, fun hpresent => ?_⟩, fun hpresent => (hwhole hpresent).2.1⟩
  · -- a span without its parent does not come back
    intro e he p hp
    by_contra hmissing
    have hlost := orphan_lost a b₀ budget seen seen' hids hkept hkept' hle e he p hp hmissing
    have horder : b₀.order = a.order := by
      have hlist := congrArg (List.map WireSpan.id) hsame.ring_eq
      rw [hparked, ringList_ids a hkept.locked hkept.id_eq] at hlist
      rw [← ringList_ids b₀ hkept'.locked hkept'.id_eq]
      exact hlist
    obtain ⟨id, hin, hget⟩ := (mem_ringEntries a e).mp he
    have hid : e.span.id = id := hkept.id_eq id _ (by rw [located, hget]; rfl)
    rw [horder, hid] at hlost
    exact hlost hin
  · obtain ⟨horder, hbyId, hpending⟩ := hwhole hpresent
    refine ⟨?_, fun p => ?_, ?_⟩
    · rw [hparked]
      unfold ringList ringEntries
      dsimp only
      rw [horder, hbyId]
    · -- the pool fits, since it fitted before
      have hnone : b₀.pendingLen = 0 := by
        rw [hsettled'.pooled.counted, parked, hpending, parkedIn_empty, Multiset.card_zero]
      have hsum : (a.pending.toList.map fun kv => kv.2.length).sum = a.pendingLen := by
        rw [hsettled.pooled.counted, card_parked]
        rfl
      have hcap : b₀.pendingCap = a.pendingCap := congrArg Prod.fst hconfig
      obtain ⟨pending', len', hfits, hread⟩ := parkBuckets_fits b₀ a.pending.toList (by
        rw [hnone, hsum, hcap, Nat.zero_add]
        exact hsettled.pooled.bounded)
      rw [hfits]
      change pending'.getD p [] = _
      rw [hread p, hpending, flatMap_toList]
      simp
    · rw [hparked]
      exact hkeys

/-- CODE: state.rs:521-563 — **exactly when a snapshot round-trips**: in every state a run
reaches, when every span of the ring that has a parent has it in the ring; the rows are then
the same too, unless the ring could outgrow the `u32` of a tally. -/
theorem snapshot_round_trips_iff (budget : ℕ) (ops : List AggregatorOp) (a : Aggregator)
    (hids : ((absorbedSpans ops).map WireSpan.id).Nodup)
    (hrun : run AggregatorOp.perform (Aggregator.new budget) ops = some a) :
    ∃ b, deserialize a.serialize = some b ∧ (SnapshotKept a b ↔ ParentsPresent a) ∧
      (budget ≤ 2 ^ 32 ∨ (absorbedSpans ops).length ≤ 2 ^ 32 →
        (SnapshotKept a b ∧ b.rows = a.rows ↔ ParentsPresent a)) := by
  have hdistinct := distinctIds_start (absorbedSpans ops) hids
  have hstate := run_kept DistinctIds _ (settled_runInvariant budget) DistinctIds.mono
    (fun seen a h => (Multiset.le_add_right _ _).trans h.1.1.1.bag) ops 0
    (Aggregator.new budget) a hdistinct
    ⟨⟨⟨kept_new budget, tallied_new False budget⟩, linked_new budget⟩, settled_new budget⟩ hrun
  obtain ⟨b₀, b, hreplay, hload, hbuckets, hbyId, hiff, hentries⟩ := load_spec budget _ a
    hdistinct (fun w hw => closed_of_absorbed ops w (by simpa using hw)) hstate
  refine ⟨b, hload, hiff, fun hfits => ⟨fun h => hiff.mp h.1, fun hpresent => ?_⟩⟩
  refine ⟨hiff.mpr hpresent, ?_⟩
  -- both sides are the aggregate of the same entries
  have hgood : Tallyable budget (0 + (absorbedSpans ops : Multiset WireSpan)) :=
    ⟨hdistinct, by simpa using hfits⟩
  obtain ⟨hkept, htallied⟩ := run_kept (Tallyable budget) _ (tallyable_runInvariant budget)
    (Tallyable.mono budget) (fun seen a h => (Multiset.le_add_right _ _).trans h.1.bag) ops 0
    (Aggregator.new budget) a hgood ⟨kept_new budget, tallied_new True budget⟩ hrun
  have hring : ringSpans a ≤ 0 + (absorbedSpans ops : Multiset WireSpan) :=
    (Multiset.le_add_right _ _).trans hkept.bag
  obtain ⟨seen', -, -, htallied'⟩ := refeed_kept (Tallyable budget) _
    (tallyable_runInvariant budget) (Tallyable.mono budget) a.order a.byId
    (cleared a a.splitKeys) b₀ 0 (ringSpans a) (Tallyable.mono budget _ _ hring hgood)
    (zero_add _).le ((tallyable_runInvariant budget).clear _ a a.splitKeys ⟨hkept, htallied⟩)
    hreplay
  have hall := htallied.buckets
  rw [← coe_ringEntries a hkept.locked] at hall
  have hall' := htallied'.buckets
  rw [show ring b₀ = ring a from congrArg values (hentries hpresent),
    ← coe_ringEntries a hkept.locked, ← hbuckets] at hall'
  rw [rows_eq_of_ring b a.ringEntries hall', rows_eq_of_ring a a.ringEntries hall]

/-- INTERNAL: decidable. -/
instance (a : Aggregator) : Decidable (ParentsPresent a) :=
  decidable_of_iff (∀ e ∈ a.ringEntries, ∀ p ∈ e.span.parentId, p ∈ a.order) Iff.rfl

/-- CODE: state.rs:521-563 — a ring with a child in it, and a span that waits, come back as they
were. -/
theorem snapshot_round_trips_iff_small :
    ∃ a, run AggregatorOp.perform (Aggregator.new 4)
        [.absorb (plainSpan 1 none 7), .absorb (plainSpan 5 (some 9) 2),
          .absorb (plainSpan 2 (some 1) 3)] = some a ∧ a.order = [1, 2] ∧
      ∃ b, deserialize a.serialize = some b ∧ SnapshotKept a b ∧ b.rows = a.rows := by
  have hends : (run AggregatorOp.perform (Aggregator.new 4)
      [.absorb (plainSpan 1 none 7), .absorb (plainSpan 5 (some 9) 2),
        .absorb (plainSpan 2 (some 1) 3)]).map
          (fun a => (a.order, decide (ParentsPresent a))) = some ([1, 2], true) := by
    decide +kernel
  obtain ⟨a, hrun, hread⟩ := Option.map_eq_some_iff.mp hends
  obtain ⟨horder, hpresent⟩ := Prod.mk.inj hread
  obtain ⟨b, hload, -, hsame⟩ := snapshot_round_trips_iff 4 _ a (by decide) hrun
  exact ⟨a, hrun, horder, b, hload, (hsame (by decide)).mpr (of_decide_eq_true hpresent)⟩

/-- CODE: state.rs:546-563 — the third span evicts the first; the second is loaded into the
pool. -/
theorem snapshot_loses_orphan :
    ∃ a b, run AggregatorOp.perform (Aggregator.new 2)
        [.absorb (plainSpan 1 none 7), .absorb (plainSpan 2 (some 1) 3),
          .absorb (plainSpan 3 none 5)] = some a ∧
      deserialize a.serialize = some b ∧ a.order = [2, 3] ∧ b.order = [3] ∧
      b.pending.getD 1 [] = [plainSpan 2 (some 1) 3] ∧ ¬ SnapshotKept a b := by
  have hafter : ((run AggregatorOp.perform (Aggregator.new 2)
      [.absorb (plainSpan 1 none 7), .absorb (plainSpan 2 (some 1) 3),
        .absorb (plainSpan 3 none 5)]).bind fun a => (deserialize a.serialize).map fun b =>
          (a.order, b.order, a.pending.getD 1 [], b.pending.getD 1 [])) =
      some ([2, 3], [3], [], [plainSpan 2 (some 1) 3]) := by
    decide +kernel
  obtain ⟨a, ha, hafter⟩ := Option.bind_eq_some_iff.mp hafter
  obtain ⟨b, hb, hread⟩ := Option.map_eq_some_iff.mp hafter
  simp only [Prod.mk.injEq] at hread
  obtain ⟨horder, horder', hnone, hparked⟩ := hread
  refine ⟨a, b, ha, hb, horder, horder', hparked, ?_⟩
  intro hsame
  have hpool := hsame.pending_eq 1
  rw [hnone, hparked] at hpool
  cases hpool

end TracingConsole.Analysis
