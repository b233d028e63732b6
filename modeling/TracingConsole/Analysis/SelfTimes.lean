import TracingConsole.Analysis.RingGrowth
import TracingConsole.Analysis.RingResolved
import TracingConsole.Analysis.StoredSamples

/-!
# Self times while the ring grows

An arrival that evicts nothing changes the self time of one span of the ring at most, that of its
parent (`selfNs_absorb`): the spans that it unblocks have parents that came with it.  Without
split keys a stack has one row, and the row shows the figures of the self times of the entries
with that stack (`rowFigures_eq`).
-/

set_option autoImplicit false

namespace TracingConsole.Analysis

open Std (ExtTreeMap)
open TracingConsole.Library TracingConsole.Model TracingConsole.Model.Aggregator

/-! ## Buckets without splits -/

/-- INTERNAL: without split keys no bucket has splits. -/
def Unsplit (a : Aggregator) : Prop :=
  a.splitKeys = ∅ → ∀ id x, located a id = some x → x.2.1.splits = []

/-- INTERNAL: SRCLINE: state.rs:476-480 -/
theorem pushSplits_noKeys (fields splits : List (String × String)) :
    pushSplits (fun k => decide (k ∈ (∅ : Finset String))) fields splits = splits := by
  simp [pushSplits]

/-- INTERNAL: SRCLINE: state.rs:465-489 -/
theorem collectSplits_noKeys (span : WireSpan) (parentSplits : Option (List (String × String)))
    (h : ∀ splits ∈ parentSplits, splits = []) : collectSplits span parentSplits ∅ = [] := by
  unfold collectSplits
  rw [pushSplits_noKeys]
  cases parentSplits with
  | none => rfl
  | some splits =>
    rw [h splits rfl]
    rfl

/-- INTERNAL: SRCLINE: state.rs:231-306 -/
theorem unsplit_step (budget : ℕ) (seen : Multiset WireSpan) (c c' : Cascade)
    (hids : DistinctIds seen) (hkept : Kept budget seen c.agg c.work) (h : Unsplit c.agg)
    (hc : CascadeStep c c') : Unsplit c'.agg := by
  rcases cascadeStep_cases _ _ hc with
    ⟨w, rest, p, -, -, -, rfl⟩ | ⟨w, rest, b, r, a', hwork, hres, hplace, rfl⟩
  · obtain ⟨hconfig, -⟩ := parkPending_frame c.agg p w
    have hkeys : (c.agg.parkPending p w).splitKeys = c.agg.splitKeys :=
      congrArg (fun c => c.2.1) hconfig
    intro hnone id x hx
    rw [located_parkPending] at hx
    exact h (hkeys.symm.trans hnone) id x hx
  · rw [hwork] at hkept
    obtain ⟨hnew, -⟩ := hkept.placeable _ _ _ _ _ hids
    obtain ⟨a₁, hmake, -, -, hloc⟩ := ringSpans_place c.agg a' w b r hplace hnew
    obtain ⟨-, -, hsub, -⟩ := makeRoom_shrinks c.agg a₁ hmake
    obtain ⟨-, hconfig⟩ := place_order c.agg a' w b r hplace
    obtain ⟨htaken, -⟩ := takeWaiters_frame a' w.id
    have hkeys : (a'.takeWaiters w.id).2.splitKeys = c.agg.splitKeys :=
      congrArg (fun c => c.2.1) (htaken.trans hconfig)
    intro hnone id x hx
    have hold := h (hkeys.symm.trans hnone)
    have hempty : c.agg.splitKeys = ∅ := hkeys.symm.trans hnone
    rw [located_takeWaiters, hloc id] at hx
    split at hx
    · -- the new span takes its splits from its parent, which has none
      cases hx
      rcases resolve_eq_some c.agg w b r hres with ⟨-, hb, -⟩ | ⟨p, e, -, he, hb, -⟩
      · rw [hb]
        dsimp only [resolveRoot]
        rw [hempty]
        exact collectSplits_noKeys w none (by simp)
      · have hparent := hold p (e.span, e.bucket, e.totalNs) (by rw [located, he]; rfl)
        rw [hb]
        dsimp only [resolveWithParent]
        rw [hempty]
        apply collectSplits_noKeys
        intro splits hsplits
        rw [← Option.some.inj hsplits]
        exact hparent
    · exact hold id x (hsub id x hx)

/-! ## The books of a ring -/

/-- INTERNAL: the ids are distinct, all spans are closed, and a `u32` counts them.
SRCLINE: state.rs:14-23, 95-101 -/
structure Countable (seen : Multiset WireSpan) : Prop where
  ids : DistinctIds seen
  closed : ∀ w ∈ seen, w.closedAtNs.isSome = true
  card : seen.card ≤ 2 ^ 32

/-- INTERNAL: fewer spans can be counted too. -/
theorem Countable.mono (s t : Multiset WireSpan) (hle : s ≤ t) (h : Countable t) : Countable s where
  ids := h.ids.mono s t hle
  closed w hw := h.closed w (Multiset.mem_of_le hle hw)
  card := (Multiset.card_le_card hle).trans h.card

/-- INTERNAL: what a run keeps of a ring and of everything that is derived from it. -/
structure Booked (budget : ℕ) (seen : Multiset WireSpan) (a : Aggregator)
    (work : List WireSpan) : Prop where
  kept : Kept budget seen a work
  tallied : Tallied True a
  linked : Linked a
  settled : Settled budget a
  waiting : Waiting a
  unsplit : Unsplit a

/-- INTERNAL: SRCLINE: state.rs:147-153, 213-306, 427-462 -/
theorem booked_runInvariant (budget : ℕ) : RunInvariant Countable (Booked budget) := by
  have htallied := tallied_runInvariant budget True Countable (fun _ h => h.ids)
    (fun _ seen a work hseen hkept => by
      have hring := Multiset.card_le_card ((Multiset.le_add_right _ _).trans hkept.bag)
      rw [ringSpans, Multiset.card_map, card_ring a hkept.locked] at hring
      exact hring.trans hseen.card)
  have hsettled := (settled_runInvariant budget).strengthen _ Countable _ fun _ h => h.ids
  have hwaiting := (waiting_runInvariant budget).strengthen _ Countable _ fun _ h => h.ids
  have hunsplit : RunInvariant Countable fun seen a work =>
      Kept budget seen a work ∧ Unsplit a := by
    apply ((kept_runInvariant budget).strengthen _ Countable _ fun _ h => h.ids).and
    · intro seen c c' hseen hkept _ h hc
      exact unsplit_step budget seen c c' hseen.ids hkept h hc
    · intro seen a w _ h
      exact h
    · intro seen a keys _ _ id x hx
      simp [located, cleared] at hx
    · intro seen seen' a b _ h' _
      exact h'
  have hall := ((htallied.both _ _ _ hsettled).both _ _ _ hwaiting).both _ _ _ hunsplit
  have hsame : Booked budget = fun seen a work =>
      (((Kept budget seen a work ∧ Tallied True a) ∧
        ((Kept budget seen a work ∧ Tallied False a) ∧ Linked a) ∧ Settled budget a) ∧
          (Kept budget seen a work ∧ Pooled a) ∧ Waiting a) ∧
            Kept budget seen a work ∧ Unsplit a := by
    funext seen a work
    apply propext
    constructor
    · rintro ⟨hkept, htallied, hlinked, hsettled, hwaiting, hunsplit⟩
      exact ⟨⟨⟨⟨hkept, htallied⟩, ⟨⟨hkept, htallied.weaken _ _⟩, hlinked⟩, hsettled⟩,
        ⟨hkept, hsettled.pooled⟩, hwaiting⟩, hkept, hunsplit⟩
    · rintro ⟨⟨⟨⟨hkept, htallied⟩, ⟨-, hlinked⟩, hsettled⟩, -, hwaiting⟩, -, hunsplit⟩
      exact ⟨hkept, htallied, hlinked, hsettled, hwaiting, hunsplit⟩
  rw [hsame]
  exact hall

/-- INTERNAL: the aggregator starts with nothing booked. -/
theorem booked_new (budget : ℕ) : Booked budget 0 (Aggregator.new budget) [] where
  kept := kept_new budget
  tallied := tallied_new True budget
  linked := linked_new budget
  settled := settled_new budget
  waiting := waiting_new budget
  unsplit _ id x hx := by simp [located, Aggregator.new] at hx

/-- INTERNAL: an operation of the aggregator keeps its books. -/
theorem booked_perform (budget : ℕ) (seen : Multiset WireSpan) (a a' : Aggregator)
    (op : AggregatorOp) (hseen : Countable (AggregatorOp.seen op + seen))
    (h : Booked budget seen a []) (hop : op.perform a = some a') :
    Booked budget (AggregatorOp.seen op + seen) a' [] :=
  perform_kept Countable _ (booked_runInvariant budget) Countable.mono
    (fun _ _ h => (Multiset.le_add_right _ _).trans h.kept.bag) seen a a' op hseen h hop

/-! ## An arrival -/

/-- INTERNAL: SRCLINE: state.rs:213-229 -/
theorem absorb_config (a : Aggregator) (w : WireSpan) (r : Aggregator × List ℕ)
    (h : a.absorb w = some r) : config r.1 = config a := by
  unfold absorb at h
  split at h
  · cases h
    rfl
  · exact absorbResolvedAll_config a w r h

/-- INTERNAL: a cascade step that evicts nothing leaves the totals of the children, those still
to be processed included, of every span that was there.
SRCLINE: state.rs:231-306 -/
theorem children_step (budget : ℕ) (seen : Multiset WireSpan) (c c' : Cascade) (n : ℕ)
    (hids : DistinctIds seen) (h : Booked budget seen c.agg c.work) (hc : CascadeStep c c')
    (hlen : c.agg.order.length = n + c.inserted.length)
    (hlen' : c'.agg.order.length = n + c'.inserted.length) (id : ℕ) (hin : id ∈ c.agg.order) :
    id ∈ c'.agg.order ∧ childTotal (ringSpans c'.agg + c'.work) id =
      childTotal (ringSpans c.agg + c.work) id := by
  have hthere := (h.kept.locked.mem_iff id).mp hin
  rcases cascadeStep_cases _ _ hc with
    ⟨w, rest, p, hwork, hp, hnone, rfl⟩ | ⟨w, rest, b, r, a', hwork, hres, hplace, rfl⟩
  · obtain ⟨-, horder, -, -, -⟩ := parkPending_frame c.agg p w
    have hother : w.parentId ≠ some id := by
      intro hid
      rw [hp, Option.some.injEq] at hid
      subst hid
      rw [← ExtTreeMap.isSome_getElem?_iff_mem, hnone] at hthere
      cases hthere
    refine ⟨by rw [horder]; exact hin, ?_⟩
    dsimp only
    rw [ringSpans_parkPending, hwork, ← Multiset.cons_coe, childTotal_add, childTotal_add,
      childTotal_cons, if_neg hother, Nat.zero_add]
  · have hkept := h.kept
    rw [hwork] at hkept
    obtain ⟨hnew, -⟩ := hkept.placeable _ _ _ _ _ hids
    obtain ⟨-, htaken, hbyId, -, -⟩ := takeWaiters_frame a' w.id
    dsimp only at hlen' ⊢
    have hlonger : c.agg.order.length < a'.order.length := by
      rw [htaken, List.length_append, List.length_singleton] at hlen'
      omega
    have hmake := makeRoom_of_room c.agg (room_of_longer c.agg a' w b r hplace hlonger)
    obtain ⟨a₁, hmake₁, hspans, -, hloc⟩ := ringSpans_place c.agg a' w b r hplace hnew
    obtain rfl : a₁ = c.agg := Option.some.inj (hmake₁.symm.trans hmake)
    have hne : w.id ≠ id := by
      intro hsame
      rw [hsame, located_eq_none] at hnew
      rw [← ExtTreeMap.isSome_getElem?_iff_mem, hnew] at hthere
      cases hthere
    -- the waiters that come to the work list are children of the placed span
    have hwaiters : childTotal ((a'.takeWaiters w.id).1 : Multiset WireSpan) id = 0 := by
      apply childTotal_eq_zero
      intro v hv hparent
      obtain ⟨hchild, -⟩ := waiters_parent c.agg a' h.waiting w.id
        (pending_place c.agg a' w b r hplace w.id) v hv
      rw [hchild, Option.some.injEq] at hparent
      exact hne hparent
    have hring : ringSpans (a'.takeWaiters w.id).2 = w ::ₘ ringSpans c.agg := by
      rw [← hspans, ringSpans_takeWaiters]
    refine ⟨?_, ?_⟩
    · obtain ⟨horder, -⟩ := place_order c.agg a' w b r hplace
      have hroom := room_of_longer c.agg a' w b r hplace hlonger
      have hnone : c.agg.order.length + 1 - c.agg.historyBudget = 0 := by omega
      rw [htaken, horder, hnone, List.drop_zero]
      exact List.mem_append_left _ hin
    · rw [hring, hwork, ← Multiset.coe_add, ← Multiset.cons_coe, childTotal_add, childTotal_cons,
        childTotal_add, hwaiters, childTotal_add, childTotal_cons]
      omega

/-- INTERNAL: a closed span is seen when it arrives. -/
theorem seen_closed (w : WireSpan) (seen : Multiset WireSpan)
    (hclosed : w.closedAtNs.isSome = true) :
    AggregatorOp.seen (.absorb w) + seen = w ::ₘ seen := by
  simp [AggregatorOp.seen, absorbedSpans, hclosed]

/-- INTERNAL: **an arrival without an eviction adds its total to its parent's children and to
nobody else's**, among the spans that were there.
SRCLINE: state.rs:213-306 -/
theorem absorb_children (budget : ℕ) (seen : Multiset WireSpan) (a : Aggregator) (w : WireSpan)
    (r : Aggregator × List ℕ) (hseen : Countable (AggregatorOp.seen (.absorb w) + seen))
    (h : Booked budget seen a []) (habsorb : a.absorb w = some r)
    (hgrows : r.1.order = a.order ++ r.2) (hclosed : w.closedAtNs.isSome = true) (id : ℕ)
    (hin : id ∈ a.order) : childTotal (ringSpans r.1) id = childTotal (w ::ₘ ringSpans a) id := by
  rw [seen_closed w seen hclosed] at hseen
  have hopen : w.closedAtNs.isNone = false := by
    rw [Option.isNone_eq_false_iff]
    exact hclosed
  unfold absorb at habsorb
  rw [hopen, if_neg Bool.false_ne_true] at habsorb
  have hcascade := absorbResolved_cascade _ a r.1 w [] r.2 habsorb []
  have hstart := (booked_runInvariant budget).arrive seen a w hseen h
  have hfinal := cascades_invariant
    (fun c => Booked budget (w ::ₘ seen) c.agg c.work ∧
      c.agg.order.length ≤ a.order.length + c.inserted.length ∧
      (c.agg.order.length = a.order.length + c.inserted.length → id ∈ c.agg.order ∧
        childTotal (ringSpans c.agg + c.work) id = childTotal (w ::ₘ ringSpans a) id))
    (fun c c' hold hstep => by
      obtain ⟨hbooked, hle, htotals⟩ := hold
      obtain ⟨hle', hback⟩ := step_length c c' hstep a.order.length hle
      refine ⟨(booked_runInvariant budget).step _ c c' hseen hbooked hstep, hle', fun hlen' => ?_⟩
      have hlen := hback hlen'
      obtain ⟨hthere, hsame⟩ := htotals hlen
      obtain ⟨hthere', hkeep⟩ := children_step budget _ c c' a.order.length hseen.ids hbooked
        hstep hlen hlen' id hthere
      exact ⟨hthere', hkeep.trans hsame⟩)
    _ _ ⟨hstart, le_of_eq (Nat.add_zero _).symm, fun _ => ⟨hin, ?_⟩⟩ hcascade
  · obtain ⟨-, hsame⟩ := hfinal.2.2 (by rw [hgrows, List.length_append])
    simpa using hsame
  · rw [childTotal_add, childTotal_cons, Multiset.coe_singleton, childTotal_singleton]
    exact Nat.add_comm _ _

/-! ## Self times -/

/-- INTERNAL: the span, the stack and the self time that the ring has under an id. -/
def priced (a : Aggregator) (id : ℕ) : Option (WireSpan × List String × ℕ) :=
  a.byId[id]?.map fun e => (e.span, e.bucket.stack, e.selfNs)

/-- INTERNAL: rings with the same spans, stacks and children's totals under an id price it the
same way. -/
theorem priced_congr (budget : ℕ) (seen seen' : Multiset WireSpan) (a b : Aggregator)
    (h : Booked budget seen a []) (h' : Booked budget seen' b []) (id : ℕ)
    (hsame : (located b id).map (fun x => (x.1, x.2.1.stack)) =
      (located a id).map fun x => (x.1, x.2.1.stack))
    (hself : ∀ e, a.byId[id]? = some e → e.totalNs - b.childSumFor id = e.selfNs) :
    priced b id = priced a id := by
  unfold located at hsame
  rw [Option.map_map, Option.map_map] at hsame
  unfold priced
  cases ha : a.byId[id]? with
  | none =>
    rw [ha, Option.map_none, Option.map_eq_none_iff] at hsame
    rw [hsame]
  | some e =>
    rw [ha, Option.map_some, Option.map_eq_some_iff] at hsame
    obtain ⟨e', he', hpair⟩ := hsame
    obtain ⟨hspan, hstack⟩ := Prod.mk.inj hpair
    have htotal : e'.totalNs = e.totalNs := by
      rw [h'.tallied.total_eq id e' he', h.tallied.total_eq id e ha]
      exact congrArg totalOf hspan
    have hprice : e'.selfNs = e.selfNs := by
      rw [h'.settled.wrapped.self_eq id e' he', htotal]
      exact hself e ha
    rw [he', Option.map_some, Option.map_some]
    exact congrArg some (Prod.ext hspan (Prod.ext hstack hprice))

/-- INTERNAL: **the running sum of a span that was there, after an arrival without an eviction**.
SRCLINE: state.rs:264-279 -/
theorem childSumFor_absorb (budget : ℕ) (seen : Multiset WireSpan) (a : Aggregator) (w : WireSpan)
    (r : Aggregator × List ℕ) (hseen : Countable (AggregatorOp.seen (.absorb w) + seen))
    (h : Booked budget seen a []) (habsorb : a.absorb w = some r)
    (hgrows : r.1.order = a.order ++ r.2) (hclosed : w.closedAtNs.isSome = true) (id : ℕ)
    (hin : id ∈ a.order) : r.1.childSumFor id =
      if w.parentId = some id then (a.childSumFor id + totalOf w) % 2 ^ 64
      else a.childSumFor id := by
  have h' : Booked budget _ r.1 [] := booked_perform budget seen a r.1 (.absorb w) hseen h
    (by rw [AggregatorOp.perform, habsorb]; rfl)
  have hentry : ∀ b : Aggregator, Locked b → id ∈ b.order → ∃ e, b.byId[id]? = some e := by
    intro b hlocked hid
    exact Option.isSome_iff_exists.mp
      (ExtTreeMap.isSome_getElem?_iff_mem.mpr ((hlocked.mem_iff id).mp hid))
  obtain ⟨e, he⟩ := hentry a h.kept.locked hin
  obtain ⟨e', he'⟩ := hentry r.1 h'.kept.locked (by rw [hgrows]; exact List.mem_append_left _ hin)
  have hsum := h.settled.wrapped.sum_eq id e he
  rw [h'.settled.wrapped.sum_eq id e' he',
    absorb_children budget seen a w r hseen h habsorb hgrows hclosed id hin, childTotal_cons]
  split
  · rw [hsum]
    omega
  · rw [Nat.zero_add, hsum]

/-- INTERNAL: **an arrival without an eviction reprices at most the parent of its span**.
SRCLINE: state.rs:213-306, 366-391 -/
theorem priced_absorb (budget : ℕ) (seen : Multiset WireSpan) (a : Aggregator) (w : WireSpan)
    (r : Aggregator × List ℕ) (hseen : Countable (AggregatorOp.seen (.absorb w) + seen))
    (h : Booked budget seen a []) (habsorb : a.absorb w = some r)
    (hgrows : r.1.order = a.order ++ r.2) (hgrown : Grown a r.2 r.1) (id : ℕ) (hin : id ∈ a.order)
    (hkeeps : w.closedAtNs.isSome = true → w.parentId = some id → ∀ e, a.byId[id]? = some e →
      e.totalNs - (a.childSumFor id + totalOf w) % 2 ^ 64 = e.totalNs - a.childSumFor id) :
    priced r.1 id = priced a id := by
  by_cases hclosed : w.closedAtNs.isSome = true
  · have h' : Booked budget _ r.1 [] := booked_perform budget seen a r.1 (.absorb w) hseen h
      (by rw [AggregatorOp.perform, habsorb]; rfl)
    apply priced_congr budget seen _ a r.1 h h' id (by rw [hgrown.old id hin])
    intro e he
    rw [childSumFor_absorb budget seen a w r hseen h habsorb hgrows hclosed id hin,
      h.settled.wrapped.self_eq id e he]
    split
    · next hparent => exact hkeeps hclosed hparent e he
    · rfl
  · have hopen : w.closedAtNs.isNone = true := by
      rw [Option.isNone_iff_eq_none]
      simpa using hclosed
    unfold absorb at habsorb
    rw [hopen, if_pos rfl] at habsorb
    cases habsorb
    rfl

/-- INTERNAL: **a change of split keys that loses no span reprices nothing**.
SRCLINE: state.rs:147-153, 427-462 -/
theorem priced_setSplitKeys (budget : ℕ) (seen seen' : Multiset WireSpan) (a b : Aggregator)
    (h : Booked budget seen a []) (h' : Booked budget seen' b []) (hpresent : ParentsPresent a)
    (keys : Finset String) (hset : a.setSplitKeys keys = some b) (id : ℕ) :
    priced b id = priced a id := by
  obtain ⟨-, hsame⟩ := setSplitKeys_same_ring a b budget seen h.kept (h.tallied.weaken _ _)
    h.linked hpresent keys hset
  have hspans : ringSpans b = ringSpans a := by
    apply values_map_congr
    intro k
    have hspan := congrArg (Option.map Prod.fst) (hsame k)
    simpa [located, Option.map_map, Function.comp_def] using hspan
  apply priced_congr budget seen seen' a b h h' id
  · have hpair := congrArg (Option.map fun x => (x.1, x.2.1)) (hsame id)
    simpa [Option.map_map, Function.comp_def] using hpair
  · intro e he
    have hthere : ∃ e', b.byId[id]? = some e' := by
      have hread := hsame id
      rw [located, located, he, Option.map_map, Option.map_some] at hread
      obtain ⟨e', he', -⟩ := Option.map_eq_some_iff.mp hread
      exact ⟨e', he'⟩
    obtain ⟨e', he'⟩ := hthere
    rw [h'.settled.wrapped.sum_eq id e' he', hspans, ← h.settled.wrapped.sum_eq id e he]
    exact (h.settled.wrapped.self_eq id e he).symm

/-! ## The row of a stack -/

/-- INTERNAL: the self times of the ids with a stack, in order. -/
def selfValues (a : Aggregator) (stack : List String) (ids : List ℕ) : List ℕ :=
  ids.filterMap fun id => (priced a id).bind fun x => if x.2.1 = stack then some x.2.2 else none

/-- INTERNAL: the self times of two lists. -/
theorem selfValues_append (a : Aggregator) (stack : List String) (ids ids' : List ℕ) :
    selfValues a stack (ids ++ ids') = selfValues a stack ids ++ selfValues a stack ids' :=
  List.filterMap_append

/-- INTERNAL: the prices are all the self times need. -/
theorem selfValues_congr (a b : Aggregator) (stack : List String) (ids : List ℕ)
    (h : ∀ id ∈ ids, priced b id = priced a id) :
    selfValues b stack ids = selfValues a stack ids := by
  unfold selfValues
  apply List.filterMap_congr
  intro id hid
  rw [h id hid]

/-- INTERNAL: the self times of the ring are those of its entries. -/
theorem selfValues_ring (a : Aggregator) (stack : List String) :
    selfValues a stack a.order =
      (a.ringEntries.filter fun e => e.bucket.stack = stack).map Entry.selfNs := by
  unfold selfValues ringEntries
  induction a.order with
  | nil => rfl
  | cons id order ih =>
    rw [List.filterMap_cons, List.filterMap_cons, ih, priced]
    cases a.byId[id]? with
    | none => rfl
    | some e => by_cases hstack : e.bucket.stack = stack <;> simp [hstack]

/-- INTERNAL: **where one span is repriced the sum changes**: with equal sums its price is the
same. -/
theorem price_of_sum (a b : Aggregator) (stack : List String) (ids : List ℕ) (p : ℕ) (e e' : Entry)
    (hnodup : ids.Nodup) (hin : p ∈ ids) (hothers : ∀ id ∈ ids, id ≠ p → priced b id = priced a id)
    (he : a.byId[p]? = some e) (he' : b.byId[p]? = some e') (hstack : e.bucket.stack = stack)
    (hstack' : e'.bucket.stack = stack)
    (hsum : (selfValues b stack ids).sum = (selfValues a stack ids).sum) :
    e'.selfNs = e.selfNs := by
  obtain ⟨before, after, rfl⟩ := List.append_of_mem hin
  rw [List.nodup_middle, List.nodup_cons] at hnodup
  have hbefore : selfValues b stack before = selfValues a stack before :=
    selfValues_congr a b stack before fun id hid =>
      hothers id (by simp [hid]) fun hp => hnodup.1 (by simp [← hp, hid])
  have hafter : selfValues b stack after = selfValues a stack after :=
    selfValues_congr a b stack after fun id hid =>
      hothers id (by simp [hid]) fun hp => hnodup.1 (by simp [← hp, hid])
  have hprice : selfValues a stack (p :: after) = e.selfNs :: selfValues a stack after := by
    simp [selfValues, priced, he, hstack]
  have hprice' : selfValues b stack (p :: after) = e'.selfNs :: selfValues b stack after := by
    simp [selfValues, priced, he', hstack']
  rw [selfValues_append, selfValues_append, hprice, hprice', hbefore, hafter] at hsum
  simp only [List.sum_append, List.sum_cons] at hsum
  omega

/-- INTERNAL: the self times that the rows show for a stack; no row shows nothing.
SRCLINE: state.rs:406-425 -/
def rowFigures (a : Aggregator) (stack : List String) : Figures :=
  ((a.rows.find? fun row => row.1.stack = stack).map fun row =>
    { count := row.2.count
      sumNs := row.2.selfSumNs
      minNs := row.2.selfMinNs
      maxNs := row.2.selfMaxNs }).getD ⟨0, 0, 0, 0⟩

/-- INTERNAL: **without split keys the row of a stack shows the self times of its entries**.
SRCLINE: state.rs:25-63, 406-425 -/
theorem rowFigures_eq (budget : ℕ) (seen : Multiset WireSpan) (a : Aggregator)
    (h : Booked budget seen a []) (hkeys : a.splitKeys = ∅) (stack : List String) :
    rowFigures a stack = figuresOf (selfValues a stack a.order) := by
  have hsplits : ∀ e ∈ a.ringEntries, e.bucket.splits = [] := by
    intro e he
    obtain ⟨id, -, hget⟩ := (mem_ringEntries a e).mp he
    exact h.unsplit hkeys id (e.span, e.bucket, e.totalNs) (by rw [located, hget]; rfl)
  unfold rowFigures
  cases hfind : a.rows.find? fun row => row.1.stack = stack with
  | none =>
    -- an entry with the stack would have a bucket, and the bucket a row
    have hnone : selfValues a stack a.order = [] := by
      rw [selfValues_ring, List.map_eq_nil_iff, List.filter_eq_nil_iff]
      intro e he hstack
      obtain ⟨id, -, hget⟩ := (mem_ringEntries a e).mp he
      have hin := (h.tallied.buckets.mem_iff _ _ _ e.bucket).mpr
        ⟨e, (mem_values a.byId e).mpr ⟨id, hget⟩, rfl⟩
      obtain ⟨st, hst⟩ := Option.isSome_iff_exists.mp (ExtTreeMap.isSome_getElem?_iff_mem.mpr hin)
      have hrow := (mem_rows a (e.bucket, st.toStackStats)).mpr ⟨st, hst, rfl⟩
      exact List.find?_eq_none.mp hfind _ hrow hstack
    rw [hnone]
    rfl
  | some row =>
    have hstack : row.1.stack = stack := by simpa using List.find?_some hfind
    obtain ⟨st, hst, hstats⟩ := (mem_rows a row).mp (List.mem_of_find?_eq_some hfind)
    obtain ⟨hne, hholds⟩ := holds_of_get True _ _ h.tallied.buckets row.1 st hst
    rw [← coe_bucketPairs a h.kept.locked] at hne hholds
    have hcalc := toStackStats_of_holds True st _ trivial hholds
    -- the entries with the stack are those of the bucket
    have hsame : ∀ e ∈ a.ringEntries, e.bucket = row.1 ↔ e.bucket.stack = stack := by
      intro e he
      constructor
      · intro hbucket
        rw [hbucket]
        exact hstack
      · intro hes
        obtain ⟨x, hx⟩ := Multiset.exists_mem_of_ne_zero hne
        obtain ⟨first, hfirst, -⟩ := List.mem_map.mp (Multiset.mem_coe.mp hx)
        obtain ⟨hring, hbucket⟩ := List.mem_filter.mp hfirst
        have hnil := hsplits first hring
        rw [of_decide_eq_true hbucket] at hnil
        show (⟨e.bucket.stack, e.bucket.splits⟩ : BucketKey) = ⟨row.1.stack, row.1.splits⟩
        rw [hes, hstack, hsplits e he, hnil]
    have hpairs : (bucketPairs a row.1).map Prod.snd = selfValues a stack a.order := by
      unfold bucketPairs
      rw [selfValues_ring, List.map_map, List.filter_congr fun e he => decide_eq_decide.mpr (hsame e he)]
      rfl
    have hlength := congrArg List.length hpairs
    rw [List.length_map] at hlength
    rw [Option.map_some, Option.getD_some, hstats, hcalc]
    simp only [statsOf, figuresOf, hpairs, hlength]

end TracingConsole.Analysis
