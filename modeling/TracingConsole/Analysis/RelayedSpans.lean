import TracingConsole.Analysis.AggregateStatistics
import TracingConsole.Analysis.RelayOrder
import TracingConsole.Analysis.ViewMoves

/-!
# What the console shows of a host

The invariant of `RelayOrder` along whole runs of a host and its console: the reducer is given
every span at most once, in the order the host fanned them out, over any number of connections.
Distinct ids are what the statistics of the aggregator rest on, so they are exact for the spans
of the console's ring whatever was lost on the way.
-/

set_option autoImplicit false

namespace TracingConsole.Analysis.Transit

open TracingConsole.Library TracingConsole.Model TracingConsole.Analysis

variable {T : Type} [DecidableEq T] (unfilledInstant : ℕ) (base : TimeBase)

/-! ## Distinct ids -/

/-- INTERNAL: a span keeps its id on the way to the wire. -/
theorem ids_joined (joined : List Joined) (h : ∀ j ∈ joined, Joined.OnlyGainsEvents j) :
    (joined.map fun j => (spanToWire unfilledInstant base j.sent).id) =
      joined.map fun j => j.arrived.id := by
  refine List.map_congr_left fun j hj => ?_
  obtain ⟨attached, hsent⟩ := h j hj
  rw [hsent]
  rfl

/-- INTERNAL: while the ids last, no two spans fanned out share one. -/
theorem Relaying.sentOut_ids (s : Relay T) (h : Relaying unfilledInstant base s)
    (hlast : s.host.world.ids.reserved < u64Size) :
    ((sentOut unfilledInstant base s).map WireSpan.id).Nodup := by
  have hdelivering := h.reaching.delivering
  have hclosed := h.reaching.distinct.closed s.host.world hlast
  rw [← hdelivering.closed] at hclosed
  have htaken := hdelivering.carried.travelling_ids s.host.pipeline hclosed
  unfold travelling at htaken
  rw [List.map_append, List.map_map] at htaken
  have harrived := congrArg (List.map SpanRecord.id) hdelivering.carried.arrived
  rw [List.map_map, List.map_map] at harrived
  have hids : (sentOut unfilledInstant base s).map WireSpan.id =
      s.host.pipeline.taken.map fun e => e.record.id := by
    unfold sentOut
    rw [hdelivering.carried.sent, List.map_map, List.map_map]
    exact (ids_joined unfilledInstant base _ hdelivering.carried.gains).trans harrived
  rw [hids]
  exact (List.nodup_append.mp htaken).1

/-! ## The aggregator behind the reducer -/

/-- INTERNAL: an update is nothing to the aggregator but the spans it brings and a change of the
split keys.
SRCLINE: core.rs:333-363, 454-471 -/
theorem apply_operations (now : ℕ) (m m' : ConsoleModel) (u : Update) (e : Effect)
    (h : m.apply now u = some (m', e)) :
    ∃ ops, run AggregatorOp.perform m.agg ops = some m'.agg ∧
      absorbedSpans ops = u.spans.filter fun w => w.closedAtNs.isSome := by
  have hone (op : AggregatorOp) (hop : op.perform m.agg = some m'.agg) :
      run AggregatorOp.perform m.agg [op] = some m'.agg := by
    rw [run_cons, hop]
    rfl
  by_cases hspan : ∃ span, u = .spanReceived span
  · obtain ⟨span, hu⟩ := hspan
    subst hu
    obtain ⟨m₁, hm₁, hquiet⟩ := Option.bind_eq_some_iff.mp h
    obtain ⟨r, habsorb, hview⟩ := Option.bind_eq_some_iff.mp hm₁
    have hagg : m'.agg = r.1 := by
      rw [(Console.quiet_eq hquiet).1]
      dsimp only at hview
      split at hview
      · obtain ⟨gs, -, hm⟩ := Option.map_eq_some_iff.mp hview
        rw [← hm]
      · cases hview
        rfl
    refine ⟨[.absorb span], hone _ ?_, ?_⟩
    · show (m.agg.absorb span).map Prod.fst = some m'.agg
      rw [habsorb, hagg]
      rfl
    · cases hclosed : span.closedAtNs <;> simp [absorbedSpans, Update.spans, hclosed]
  · have hnone : u.spans = [] := by
      cases u <;> first | rfl | exact absurd ⟨_, rfl⟩ hspan
    rw [hnone]
    cases Console.apply_moves now m m' u e h with
    | absorbs span r hu habsorb hagg hview hlevel he => exact absurd ⟨span, hu⟩ hspan
    | splits keys hu hsplit hview hlevel he => exact ⟨[.setSplitKeys keys], hone _ hsplit, rfl⟩
    | shows hagg hview hlevel => exact ⟨[], by rw [hagg]; rfl, rfl⟩

/-- INTERNAL: the console's aggregator is one that has absorbed what the reducer was given. -/
def Replayed (historyBudget : ℕ) (s : Relay T) : Prop :=
  ∃ ops, run AggregatorOp.perform (Aggregator.new historyBudget) ops = some s.console.agg ∧
    absorbedSpans ops = s.given.filter fun w => w.closedAtNs.isSome

omit [DecidableEq T] in
/-- INTERNAL: the console takes one update. -/
theorem Replayed.reduce (historyBudget : ℕ) (s s' : Relay T) (h : Replayed historyBudget s)
    (now : ℕ) (u : Update) (r : ConsoleModel × Effect) (happly : s.console.apply now u = some r)
    (hconsole : s'.console = r.1) (hgiven : s'.given = s.given ++ u.spans) :
    Replayed historyBudget s' := by
  obtain ⟨ops, hrun, hspans⟩ := h
  obtain ⟨more, hmore, hbrought⟩ := apply_operations now s.console r.1 u r.2 happly
  refine ⟨ops ++ more, ?_, ?_⟩
  · rw [run_append, hrun, hconsole]
    exact hmore
  · rw [hgiven, List.filter_append, ← hspans, ← hbrought]
    exact List.filterMap_append

/-- INTERNAL: only the reducer's own steps touch the console. -/
theorem Replayed.step (historyBudget : ℕ) (s s' : Relay T) (a : RelayStep T)
    (h : Replayed historyBudget s) (hstep : s.step unfilledInstant base a = some s') :
    Replayed historyBudget s' := by
  have hsame (hconsole : s'.console = s.console) (hgiven : s'.given = s.given) :
      Replayed historyBudget s' := by
    unfold Replayed
    rw [hconsole, hgiven]
    exact h
  cases relay_moved s s' unfilledInstant base a hstep with
  | aside haside => exact hsame haside.console haside.given
  | network b hnetwork hconsole hgiven => exact hsame hconsole hgiven
  | took now u channel r hchannel happly hs' =>
    subst hs'
    exact h.reduce historyBudget s _ now u r happly rfl rfl
  | told now u r hu happly hs' =>
    subst hs'
    exact h.reduce historyBudget s _ now u r happly rfl rfl

/-- INTERNAL: the books of an aggregator that has absorbed distinct ids.
SRCLINE: state.rs:231-391, 430-462 -/
theorem exact_of_run (budget : ℕ) (ops : List AggregatorOp) (a : Aggregator)
    (hrun : run AggregatorOp.perform (Aggregator.new budget) ops = some a)
    (hfits : budget ≤ 2 ^ 32) (hids : ((absorbedSpans ops).map WireSpan.id).Nodup)
    (hword : ∀ p, childTotal (absorbedSpans ops) p < 2 ^ 64) :
    Exact a ∧ (ringList a : Multiset WireSpan) ≤ absorbedSpans ops := by
  have hgood : WordSums (0 + (absorbedSpans ops : Multiset WireSpan)) := by
    rw [zero_add]
    exact ⟨distinctIds_coe (absorbedSpans ops) hids, hword⟩
  have hinvariant := balanced_runInvariant budget True WordSums (fun _ h => h)
    fun _ seen a work _ hkept => hkept.room.trans hfits
  have hends := run_kept WordSums _ hinvariant WordSums.mono
    (fun seen a h => (Multiset.le_add_right _ _).trans h.1.1.bag) ops 0 (Aggregator.new budget) a
    hgood ⟨⟨kept_new budget, tallied_new _ budget⟩, balanced_new budget⟩ hrun
  obtain ⟨⟨hkept, htallied⟩, hbalanced⟩ := hends
  refine ⟨exact_of_invariants a hkept.locked hkept.id_eq htallied hbalanced, ?_⟩
  have hring : (ringList a : Multiset WireSpan) = ringSpans a := by
    rw [ringList, ← Multiset.map_coe, coe_ringEntries a hkept.locked, ringSpans]
  rw [hring, ← zero_add (absorbedSpans ops : Multiset WireSpan)]
  exact (Multiset.le_add_right _ _).trans hkept.bag

/-! ## Runs -/

/-- INTERNAL: so it holds of every run. -/
theorem relaying_run (cache : SpanCache) (capacity : ℕ) (config : CacheConfig)
    (hcache : SpanCache.withConfig capacity config = some cache) (key : ℕ) (keys : T → ℕ)
    (cacheAddr historyBudget : ℕ) (steps : List (RelayStep T)) (s : Relay T)
    (hrun : run (Relay.step unfilledInstant base)
      (Relay.start cache key keys cacheAddr capacity historyBudget) steps = some s) :
    Relaying unfilledInstant base s ∧ Replayed historyBudget s := by
  refine run_invariant (Relay.step unfilledInstant base)
    (fun s => Relaying unfilledInstant base s ∧ Replayed historyBudget s) ?_ _ steps s ?_ hrun
  · intro s a s' h hstep
    exact ⟨h.1.step unfilledInstant base s s' a hstep,
      h.2.step unfilledInstant base historyBudget s s' a hstep⟩
  · exact ⟨relaying_start unfilledInstant base cache capacity config hcache key keys cacheAddr
      historyBudget, [], rfl, rfl⟩

/-- CODE: driver.rs:115-187, server.rs:253-333, runtime.rs:85-263, runtime.rs:332-345 — **a span
is shown once, over any number of connections**: in every run of a host and its console, whatever
the channels refuse and wherever connections break, what the reducer was given is a subsequence
of what the host has fanned out, and no id comes twice while the host's ids last. -/
theorem relayed_spans_once (cache : SpanCache) (capacity : ℕ) (config : CacheConfig)
    (hcache : SpanCache.withConfig capacity config = some cache) (key : ℕ) (keys : T → ℕ)
    (cacheAddr historyBudget : ℕ) (steps : List (RelayStep T)) (s : Relay T)
    (hrun : run (Relay.step unfilledInstant base)
      (Relay.start cache key keys cacheAddr capacity historyBudget) steps = some s) :
    s.given.Sublist (s.host.pipeline.join.fannedOut.map (spanToWire unfilledInstant base)) ∧
      (s.host.world.ids.reserved < u64Size → (s.given.map WireSpan.id).Nodup) := by
  obtain ⟨h, -⟩ := relaying_run unfilledInstant base cache capacity config hcache key keys
    cacheAddr historyBudget steps s hrun
  have hgiven : s.given.Sublist (sentOut unfilledInstant base s) :=
    (List.sublist_append_left _ _).trans h.heard
  exact ⟨hgiven, fun hlast =>
    (h.sentOut_ids unfilledInstant base s hlast).sublist (hgiven.map _)⟩

/-- INTERNAL: a child span with one event is opened under a root, closed, flushed and sent on. -/
def childSpan : List (SystemStep Bool) :=
  let callsite : Metadata := { name := "event", target := "app", level := .info }
  let calls : List (CacheStep Bool) :=
    openRoot false ++ [.enter false 0] ++ openChild false ++
      [.enter false 1, .event false none callsite [] 3, .exit false, .tryClose false 1 5]
  calls.map .cache ++
    [.transport (.flushPending false), .transport (.sendEvents false false),
      .transport (.sendSpans false false), .transport (.pollEvents [0]),
      .transport (.pollEvents []), .transport (.pollSpans [0] [])]

/-- INTERNAL: then its parent is. -/
def rootSpan : List (SystemStep Bool) :=
  [.cache (.exit false), .cache (.tryClose false 0 9), .transport (.flushPending false),
    .transport (.sendEvents false false), .transport (.sendSpans false false),
    .transport (.pollEvents []), .transport (.pollSpans [0] [])]

/-- INTERNAL: the child comes over the first connection; then the stream ends, the console dials
again, and the root comes over the second one. -/
def dialsTwice : List (RelayStep Bool) :=
  let dial : List (RelayStep Bool) :=
    [.network (.dial "host" .accepted), .network (.connected .accepted), .network .started]
  let arrives (n : ℕ) : List (RelayStep Bool) :=
    [.link n (.read 1), .link n .forward, .burst 1 none .accepted .accepted .accepted, .take 0,
      .take 0, .take 0]
  dial ++ [.link 0 .subscribe] ++ childSpan.map RelayStep.host ++ arrives 0 ++
    [.burst 0 (some .ended) .accepted .accepted .accepted, .network .wake] ++ dial ++
    [.link 1 .subscribe] ++ rootSpan.map RelayStep.host ++ arrives 1 ++
    [.take 0, .other 0 .expandSelected]

/-- INTERNAL: what is read off the end of the run: the spans given, the ids in use, the ring, and
the time spent in what was fanned out. -/
theorem dialsTwice_ends :
    ((run (Relay.step 0 { instantAtStart := 0, systimeAtStart := 0 })
        (Relay.start twoSlots 0 (fun _ => 0) 7 2 4) dialsTwice).map fun s =>
      (s.given.map WireSpan.id, s.links.length, s.host.world.ids.reserved, s.console.agg.order,
        ((s.host.pipeline.join.fannedOut.map
          (spanToWire 0 { instantAtStart := 0, systimeAtStart := 0 })).map Aggregator.totalOf).sum)) =
      some ([1025, 1024], 2, 1024, [1024, 1025], 13) := by
  decide +kernel

/-- CODE: runtime.rs:85-263 — both spans are given to the reducer, once each. -/
theorem relayed_spans_once_dials_twice :
    ∃ s, run (Relay.step 0 { instantAtStart := 0, systimeAtStart := 0 })
        (Relay.start twoSlots 0 (fun _ => 0) 7 2 4) dialsTwice = some s ∧
      s.given.map WireSpan.id = [1025, 1024] ∧ s.links.length = 2 ∧
      s.given.Sublist (s.host.pipeline.join.fannedOut.map
        (spanToWire 0 { instantAtStart := 0, systimeAtStart := 0 })) ∧
      (s.given.map WireSpan.id).Nodup := by
  obtain ⟨s, hrun, hends⟩ := Option.map_eq_some_iff.mp dialsTwice_ends
  simp only [Prod.mk.injEq] at hends
  obtain ⟨hgiven, hlinks, hids, -⟩ := hends
  obtain ⟨hsublist, hdistinct⟩ := relayed_spans_once 0
    { instantAtStart := 0, systimeAtStart := 0 } twoSlots 2 { laneCount := 1, pendingBatch := 8 }
    (by decide) 0 (fun _ => 0) 7 4 dialsTwice s hrun
  exact ⟨s, hrun, hgiven, hlinks, hsublist, hdistinct (by rw [hids]; decide)⟩

/-- CODE: runtime.rs:85-263, state.rs:231-462 — **what the console shows is exact for the spans
it holds**: in every run of a host and its console, the rows of the console are the statistics of
the spans in its ring, and these are spans it was given. -/
theorem relayed_rows_exact (cache : SpanCache) (capacity : ℕ) (config : CacheConfig)
    (hcache : SpanCache.withConfig capacity config = some cache) (key : ℕ) (keys : T → ℕ)
    (cacheAddr historyBudget : ℕ) (hfits : historyBudget ≤ 2 ^ 32) (steps : List (RelayStep T))
    (s : Relay T)
    (hrun : run (Relay.step unfilledInstant base)
      (Relay.start cache key keys cacheAddr capacity historyBudget) steps = some s)
    (hlast : s.host.world.ids.reserved < u64Size)
    (hword : ∀ p, childTotal
      (s.host.pipeline.join.fannedOut.map (spanToWire unfilledInstant base)) p < 2 ^ 64) :
    Exact s.console.agg ∧ (ringList s.console.agg : Multiset WireSpan) ≤ s.given := by
  obtain ⟨h, ops, hops, hspans⟩ := relaying_run unfilledInstant base cache capacity config hcache
    key keys cacheAddr historyBudget steps s hrun
  have habsorbed : (absorbedSpans ops).Sublist s.given := by
    rw [hspans]
    exact List.filter_sublist
  have hsent : (absorbedSpans ops).Sublist (sentOut unfilledInstant base s) :=
    habsorbed.trans ((List.sublist_append_left _ _).trans h.heard)
  have hids := (h.sentOut_ids unfilledInstant base s hlast).sublist (hsent.map WireSpan.id)
  obtain ⟨hexact, hring⟩ := exact_of_run historyBudget ops s.console.agg hops hfits hids fun p =>
    (childTotal_mono _ _ (Multiset.coe_le.mpr hsent.subperm) p).trans_lt (hword p)
  exact ⟨hexact, hring.trans (Multiset.coe_le.mpr habsorbed.subperm)⟩

/-- CODE: runtime.rs:85-263, state.rs:231-462 — the ring holds both spans. -/
theorem relayed_rows_exact_dials_twice :
    ∃ s, run (Relay.step 0 { instantAtStart := 0, systimeAtStart := 0 })
        (Relay.start twoSlots 0 (fun _ => 0) 7 2 4) dialsTwice = some s ∧
      s.console.agg.order = [1024, 1025] ∧ Exact s.console.agg := by
  obtain ⟨s, hrun, hends⟩ := Option.map_eq_some_iff.mp dialsTwice_ends
  simp only [Prod.mk.injEq] at hends
  obtain ⟨-, -, hids, horder, htotal⟩ := hends
  refine ⟨s, hrun, horder, ?_⟩
  refine (relayed_rows_exact 0 { instantAtStart := 0, systimeAtStart := 0 } twoSlots 2
    { laneCount := 1, pendingBatch := 8 } (by decide) 0 (fun _ => 0) 7 4 (by decide) dialsTwice s
    hrun (by rw [hids]; decide) fun p => ?_).1
  refine (childTotal_le_sum _ p).trans_lt ?_
  rw [Multiset.map_coe, Multiset.sum_coe, htotal]
  decide

end TracingConsole.Analysis.Transit
