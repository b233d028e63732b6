import TracingConsole.Analysis.RingGrowth
import TracingConsole.Analysis.ViewMoves

/-!
# A chart kept up to date is the chart rebuilt

A sample of the total or the count metric depends on the span, on its ancestors in the ring and
on nothing that changes while they stay there.  The store of a graph is therefore at any time
the fold of the samples of the ring, as long as nothing is evicted: an arrival adds the samples
of the spans it inserts behind those of before (`recorded_eq_rehydrate`), and a change of the
table's split keys leaves the ring as it is.
-/

set_option autoImplicit false

namespace TracingConsole.Analysis.Console

open Std (ExtTreeMap)
open TracingConsole.Library TracingConsole.Model TracingConsole.Model.ConsoleModel

/-! ## What a sample depends on -/

/-- INTERNAL: what a graph reads of an entry. -/
def shown (agg : Aggregator) (id : ℕ) : Option (WireSpan × List String) :=
  agg.byId[id]?.map fun e => (e.span, e.bucket.stack)

/-- INTERNAL: `b` shows what `a` does under the ids of `P`, which holds all their parents. -/
structure ShowsSame (P : ℕ → Prop) (a b : Aggregator) : Prop where
  same : ∀ id, P id → shown b id = shown a id
  parents : ∀ id x, P id → shown a id = some x → ∀ p, x.1.parentId = some p → P p

/-- INTERNAL: the span found by an id is the shown one. -/
theorem shown_span (agg : Aggregator) (id : ℕ) : agg.spanById id = (shown agg id).map Prod.fst := by
  unfold Aggregator.spanById shown
  rw [Option.map_map]
  rfl

/-- INTERNAL: so is its stack. -/
theorem shown_stack (agg : Aggregator) (id : ℕ) :
    agg.resolvedStack id = (shown agg id).map Prod.snd := by
  unfold Aggregator.resolvedStack shown
  rw [Option.map_map]
  rfl

/-- INTERNAL: what is shown is what is located. -/
theorem shown_located (agg : Aggregator) (id : ℕ) :
    shown agg id = (located agg id).map fun x => (x.1, x.2.1.stack) := by
  unfold shown located
  rw [Option.map_map]
  rfl

/-- INTERNAL: the spans of the ring with their stacks, in order. -/
theorem iterWithStack_eq (agg : Aggregator) :
    agg.iterWithStack = agg.order.filterMap (shown agg) := by
  unfold Aggregator.iterWithStack Aggregator.ringEntries
  rw [List.map_filterMap]
  rfl

/-- INTERNAL: the walk up the ancestors reads the same spans, so it collects the same splits. -/
theorem collectSplitsUp_congr (P : ℕ → Prop) (a b : Aggregator) (h : ShowsSame P a b)
    (keys : Finset String) (fuel : ℕ) (id : ℕ) (hid : P id) (out : List (String × String)) :
    b.collectSplitsUp keys fuel b.byId[id]? out = a.collectSplitsUp keys fuel a.byId[id]? out := by
  induction fuel generalizing id out with
  | zero => rfl
  | succ fuel ih =>
    have hsame := h.same id hid
    unfold shown at hsame
    cases ha : a.byId[id]? with
    | none =>
      rw [ha, Option.map_none, Option.map_eq_none_iff] at hsame
      rw [hsame]
      rfl
    | some ea =>
      rw [ha, Option.map_some] at hsame
      obtain ⟨eb, hb, hpair⟩ := Option.map_eq_some_iff.mp hsame
      have hspan : eb.span = ea.span := congrArg Prod.fst hpair
      rw [hb]
      unfold Aggregator.collectSplitsUp
      rw [hspan]
      cases hp : ea.span.parentId with
      | none =>
        cases fuel <;> rfl
      | some p =>
        have hparent := h.parents id _ hid (by rw [shown, ha]; rfl) p hp
        exact ih p hparent _

/-- INTERNAL: a sample of the total or the count metric. -/
theorem sampleAt_congr (P : ℕ → Prop) (a b : Aggregator) (h : ShowsSame P a b) (gs : GraphState)
    (hmetric : gs.metric ≠ .selfTime) (id : ℕ) (hid : P id)
    (hids : ∀ x, shown a id = some x → x.1.id = id) : sampleAt b gs id = sampleAt a gs id := by
  unfold sampleAt
  rw [shown_span, shown_span, h.same id hid]
  cases hx : shown a id with
  | none => rfl
  | some x =>
    have hsplits : b.collectSplitsFor x.1.id gs.splitKeys =
        a.collectSplitsFor x.1.id gs.splitKeys := by
      rw [hids x hx]
      unfold Aggregator.collectSplitsFor
      rw [collectSplitsUp_congr P a b h gs.splitKeys 65 id hid]
    have hvalue : ∀ closed, gs.sampleOf b x.1 closed = gs.sampleOf a x.1 closed := by
      intro closed
      unfold GraphState.sampleOf
      cases hgs : gs.metric with
      | selfTime => exact absurd hgs hmetric
      | total => rfl
      | count => rfl
    simp only [Option.map_some, Option.bind_some, hsplits, hvalue]

/-- INTERNAL: the ids a graph records, from a part of the ring. -/
def lockedIds (agg : Aggregator) (stack : List String) (ids : List ℕ) : List ℕ :=
  ids.filter fun id => agg.resolvedStack id = some stack

/-- INTERNAL: the ids of the locked stack, by what is shown. -/
theorem matchingIds_eq (agg : Aggregator) (gs : GraphState)
    (hids : ∀ id x, shown agg id = some x → x.1.id = id) :
    gs.matchingIds agg = lockedIds agg gs.lockedStack agg.order := by
  unfold GraphState.matchingIds lockedIds
  rw [iterWithStack_eq]
  induction agg.order with
  | nil => rfl
  | cons id order ih =>
    rw [List.filterMap_cons, List.filter_cons, shown_stack]
    cases hx : shown agg id with
    | none => simpa using ih
    | some x =>
      have hid := hids id x hx
      by_cases hstack : x.2 = gs.lockedStack
      · simp [hstack, hid, ih]
      · simp [hstack, ih]

/-- INTERNAL: they depend on what is shown alone. -/
theorem lockedIds_congr (a b : Aggregator) (stack : List String) (ids : List ℕ)
    (h : ∀ id ∈ ids, shown b id = shown a id) : lockedIds b stack ids = lockedIds a stack ids := by
  unfold lockedIds
  apply List.filter_congr
  intro id hid
  rw [shown_stack, shown_stack, h id hid]

/-! ## An arrival -/

/-- INTERNAL: the spans an arrival inserts are recorded if their stack is the locked one.
SRCLINE: core.rs:348-359 -/
theorem foldlM_recordInserted (agg : Aggregator) (ids : List ℕ) (gs : GraphState) :
    ids.foldlM (recordInserted agg) gs =
      (lockedIds agg gs.lockedStack ids).foldlM (GraphState.recordId agg) gs := by
  induction ids generalizing gs with
  | nil => rfl
  | cons id ids ih =>
    unfold lockedIds at ih ⊢
    rw [List.foldlM_cons, List.filter_cons, recordInserted]
    by_cases hstack : agg.resolvedStack id = some gs.lockedStack
    · rw [if_pos hstack, if_pos (decide_eq_true hstack), List.foldlM_cons, recordId_eq]
      cases recordSample gs.store (sampleAt agg gs id) with
      | none => rfl
      | some store => exact ih { gs with store := store }
    · rw [if_neg hstack, if_neg (by simpa using hstack)]
      exact ih gs

/-- INTERNAL: what is shown under an id has it. -/
theorem shown_id (agg : Aggregator) (hids : ∀ id x, located agg id = some x → x.1.id = id)
    (id : ℕ) (x : WireSpan × List String) (hx : shown agg id = some x) : x.1.id = id := by
  rw [shown_located] at hx
  obtain ⟨y, hy, hsame⟩ := Option.map_eq_some_iff.mp hx
  rw [← hsame]
  exact hids id y hy

/-- INTERNAL: **the spans of the graph after an arrival are those of before and, behind them, the
inserted ones with its stack**. -/
theorem matchingIds_grown (a b : Aggregator) (ins : List ℕ) (gs : GraphState)
    (hgrown : Grown a ins b) (haIds : ∀ id x, located a id = some x → x.1.id = id)
    (hbIds : ∀ id x, located b id = some x → x.1.id = id) :
    gs.matchingIds b = gs.matchingIds a ++ lockedIds b gs.lockedStack ins := by
  rw [matchingIds_eq b gs (shown_id b hbIds), matchingIds_eq a gs (shown_id a haIds),
    hgrown.order_eq]
  unfold lockedIds
  rw [List.filter_append]
  congr 1
  apply lockedIds_congr a b gs.lockedStack a.order
  intro id hid
  rw [shown_located, shown_located, hgrown.old id hid]

/-- INTERNAL: **recording an arrival is rebuilding after it**: both give the same graph, or
neither gives one.
SRCLINE: core.rs:335-363, graph.rs:734-775 -/
theorem recorded_eq_rehydrate (a b : Aggregator) (ins : List ℕ) (gs : GraphState)
    (hlocked : Locked a) (hpresent : ParentsPresent a) (hgrown : Grown a ins b)
    (haIds : ∀ id x, located a id = some x → x.1.id = id)
    (hbIds : ∀ id x, located b id = some x → x.1.id = id)
    (hmetric : gs.metric ≠ .selfTime) (hchart : Charted a gs) :
    ins.foldlM (recordInserted b) gs = gs.rehydrate b := by
  have hshows : ShowsSame (fun id => id ∈ a.order) a b := by
    refine ⟨fun id hid => ?_, fun id x hid hx p hp => ?_⟩
    · rw [shown_located, shown_located, hgrown.old id hid]
    · rw [shown_located] at hx
      obtain ⟨y, hy, hsame⟩ := Option.map_eq_some_iff.mp hx
      rw [← hsame] at hp
      exact (parentsPresent_iff a hlocked).mp hpresent id y hy p hp
  -- the old ids come first and give the samples they gave
  have hids := matchingIds_grown a b ins gs hgrown haIds hbIds
  have hold : (gs.matchingIds a).map (sampleAt b gs) = (gs.matchingIds a).map (sampleAt a gs) := by
    apply List.map_congr_left
    intro id hid
    rw [matchingIds_eq a gs (shown_id a haIds)] at hid
    have hin : id ∈ a.order := List.mem_of_mem_filter hid
    exact sampleAt_congr _ a b hshows gs hmetric id hin (shown_id a haIds id)
  have hbefore : rebuiltStore a gs = some gs.store := (charted_iff a gs).mp hchart
  rw [foldlM_recordInserted, foldlM_recordId, rehydrate_eq]
  congr 1
  unfold rebuiltStore at hbefore ⊢
  rw [hids, List.map_append, List.foldlM_append, hold, hbefore]
  rfl

/-! ## A change of the table's split keys -/

/-- INTERNAL: a ring with the same spans and stacks is charted the same way. -/
theorem charted_of_same (a b : Aggregator) (gs : GraphState) (horder : b.order = a.order)
    (hshown : ∀ id, shown b id = shown a id)
    (haIds : ∀ id x, located a id = some x → x.1.id = id) (hmetric : gs.metric ≠ .selfTime)
    (h : Charted a gs) : Charted b gs := by
  have hidsOf := shown_id a haIds
  have hshows : ShowsSame (fun _ => True) a b :=
    ⟨fun id _ => hshown id, fun _ _ _ _ _ _ => trivial⟩
  have hids : gs.matchingIds b = gs.matchingIds a := by
    rw [matchingIds_eq a gs hidsOf,
      matchingIds_eq b gs fun id x hx => hidsOf id x (by rw [← hshown]; exact hx), horder]
    exact lockedIds_congr a b gs.lockedStack a.order fun id _ => hshown id
  have hsamples : sampleAt b gs = sampleAt a gs := by
    funext id
    exact sampleAt_congr _ a b hshows gs hmetric id trivial (hidsOf id)
  rw [charted_iff] at h ⊢
  unfold rebuiltStore at h ⊢
  rw [hids, hsamples]
  exact h

/-! ## Every run -/

/-- INTERNAL: one update, the effect dropped. -/
def turn (m : ConsoleModel) (x : ℕ × Update) : Option ConsoleModel :=
  (m.apply x.1 x.2).map Prod.fst

/-- INTERNAL: the closed spans among the updates; an open one is ignored. -/
def receivedSpans (updates : List (ℕ × Update)) : List WireSpan :=
  absorbedSpans (updates.filterMap fun x =>
    match x.2 with
    | .spanReceived span => some (.absorb span)
    | _ => none)

/-- INTERNAL: the spans of a run, from its first update. -/
theorem receivedSpans_cons (x : ℕ × Update) (updates : List (ℕ × Update)) :
    receivedSpans (x :: updates) = receivedSpans [x] ++ receivedSpans updates := by
  unfold receivedSpans absorbedSpans
  rw [← List.filterMap_append, ← List.filterMap_append, List.singleton_append]

/-- INTERNAL: the update evicts nothing: what an arrival inserts is behind what was there. -/
def EvictsNothing (m : ConsoleModel) (x : ℕ × Update) : Prop :=
  match x.2 with
  | .spanReceived span => ∀ r ∈ m.agg.absorb span, r.1.order = m.agg.order ++ r.2
  | _ => True

/-- INTERNAL: decidable. -/
instance (m : ConsoleModel) (x : ℕ × Update) : Decidable (EvictsNothing m x) := by
  obtain ⟨now, u⟩ := x
  cases u with
  | spanReceived span =>
    exact inferInstanceAs (Decidable (∀ r ∈ m.agg.absorb span, r.1.order = m.agg.order ++ r.2))
  | _ => exact inferInstanceAs (Decidable True)

/-- INTERNAL: the ring is as a run leaves it and misses no parent, and the graph shows it. -/
structure ChartKept (budget : ℕ) (seen : Multiset WireSpan) (m : ConsoleModel) : Prop where
  kept : Kept budget seen m.agg []
  tallied : Tallied False m.agg
  linked : Linked m.agg
  present : ParentsPresent m.agg
  chart : ∀ gs, m.view = .graph gs → gs.metric ≠ .selfTime → Charted m.agg gs

/-- INTERNAL: the console starts without a chart. -/
theorem chartKept_new (budget : ℕ) : ChartKept budget 0 (ConsoleModel.new budget) := by
  refine ⟨kept_new budget, tallied_new False budget, linked_new budget, ?_, ?_⟩
  · intro e he
    cases he
  · intro gs hview
    cases hview

/-- INTERNAL: an operation of the aggregator keeps what is known of its ring. -/
theorem ring_perform (budget : ℕ) (seen : Multiset WireSpan) (m : ConsoleModel) (a : Aggregator)
    (op : AggregatorOp) (hids : DistinctIds (AggregatorOp.seen op + seen))
    (h : ChartKept budget seen m) (hop : op.perform m.agg = some a) :
    (Kept budget (AggregatorOp.seen op + seen) a [] ∧ Tallied False a) ∧ Linked a :=
  perform_kept DistinctIds _ (linked_runInvariant budget) DistinctIds.mono
    (fun _ _ h => (Multiset.le_add_right _ _).trans h.1.1.bag) seen m.agg a op hids
    ⟨⟨h.kept, h.tallied⟩, h.linked⟩ hop

/-- INTERNAL: the next arrival is recorded as a rebuild after it would. -/
theorem arrival_recorded (budget : ℕ) (seen : Multiset WireSpan) (m : ConsoleModel)
    (span : WireSpan) (r : Aggregator × List ℕ) (gs : GraphState)
    (hids : DistinctIds (AggregatorOp.seen (.absorb span) + seen)) (h : ChartKept budget seen m)
    (habsorb : m.agg.absorb span = some r) (hgrows : r.1.order = m.agg.order ++ r.2)
    (hview : m.view = .graph gs) (hmetric : gs.metric ≠ .selfTime) :
    r.2.foldlM (recordInserted r.1) gs = gs.rehydrate r.1 := by
  have hgrown := absorb_grown budget seen m.agg span r hids h.kept h.present habsorb hgrows
  have hnext := ring_perform budget seen m r.1 (.absorb span) hids h
    (by rw [AggregatorOp.perform, habsorb]; rfl)
  exact recorded_eq_rehydrate m.agg r.1 r.2 gs h.kept.locked h.present hgrown h.kept.id_eq
    hnext.1.1.id_eq hmetric (h.chart gs hview hmetric)

/-- INTERNAL: what the views leave of a chart. -/
theorem viewMove_chart (m : ConsoleModel) (u : Update) (view : ViewMode) (e : Effect)
    (hmove : ViewMove m u view e)
    (hchart : ∀ gs, m.view = .graph gs → gs.metric ≠ .selfTime → Charted m.agg gs)
    (gs : GraphState) (hgraph : view = .graph gs) (hmetric : gs.metric ≠ .selfTime) :
    Charted m.agg gs := by
  cases hmove with
  | same hview _ => exact hchart gs (by rw [← hview, hgraph]) hmetric
  | charts gs₀ gs' hview hview' hcharted _ =>
    rw [hgraph] at hview'
    cases hview'
    rcases hcharted with hsame | hcharted
    · exact hsame.charted (hchart gs₀ hview (by rw [← hsame.metric]; exact hmetric))
    · exact hcharted
  | opens gs' _ hview' hcharted _ =>
    rw [hgraph] at hview'
    cases hview'
    exact hcharted
  | ends _ _ hview' _ =>
    rcases hview' with hview' | ⟨gs', hview', hcharted⟩
    · rw [hgraph] at hview'
      cases hview'
    · rw [hgraph] at hview'
      cases hview'
      exact hcharted
  | lists _ _ _ hview' _ _ _ =>
    rw [hgraph] at hview'
    cases hview'
  | traces _ _ _ hview' _ _ =>
    rw [hgraph] at hview'
    cases hview'
  | descends _ _ hview' _ =>
    rw [hgraph] at hview'
    cases hview'
  | ascends _ _ hview' _ =>
    rw [hgraph] at hview'
    cases hview'
  | closes _ hview' _ =>
    rw [hgraph] at hview'
    cases hview'
  | starts _ _ hview' _ =>
    rw [hgraph] at hview'
    cases hview'
  | abandons _ _ _ hview' _ =>
    rw [hgraph] at hview'
    cases hview'

/-- INTERNAL: **one update keeps the chart**.
SRCLINE: core.rs:333-1203 -/
theorem chartKept_turn (budget : ℕ) (seen : Multiset WireSpan) (m m' : ConsoleModel)
    (x : ℕ × Update) (hids : DistinctIds (seen + receivedSpans [x]))
    (h : ChartKept budget seen m) (hgrows : EvictsNothing m x) (hturn : turn m x = some m') :
    ChartKept budget (seen + receivedSpans [x]) m' := by
  obtain ⟨now, u⟩ := x
  obtain ⟨⟨m', e⟩, happly, rfl⟩ := Option.map_eq_some_iff.mp hturn
  dsimp only
  cases apply_moves now m m' u e happly with
  | absorbs span r hu habsorb hagg hview _ _ =>
    subst hu
    have hseen : seen + (receivedSpans [(now, .spanReceived span)] : Multiset WireSpan) =
        AggregatorOp.seen (.absorb span) + seen := add_comm _ _
    rw [hseen] at hids ⊢
    have horder := hgrows r habsorb
    have hgrown := absorb_grown budget seen m.agg span r hids h.kept h.present habsorb horder
    obtain ⟨⟨hkept, htallied⟩, hlinked⟩ := ring_perform budget seen m r.1 (.absorb span) hids h
      (by rw [AggregatorOp.perform, habsorb]; rfl)
    rw [← hagg] at hkept htallied hlinked hgrown
    refine ⟨hkept, htallied, hlinked, hgrown.present, fun gs hgraph hmetric => ?_⟩
    rcases hview with ⟨hview, hother⟩ | ⟨gs₀, gs', hview, hview', hrecorded⟩
    · exact absurd (hview.symm.trans hgraph) (hother gs)
    · rw [hgraph] at hview'
      cases hview'
      -- the fold keeps the metric, and ends where the rebuild does
      have hfold := hrecorded
      rw [foldlM_recordInserted, foldlM_recordId, Option.map_eq_some_iff] at hfold
      obtain ⟨store, -, hstore⟩ := hfold
      have hmetric₀ : gs₀.metric ≠ .selfTime := by
        rw [← hstore] at hmetric
        exact hmetric
      rw [arrival_recorded budget seen m span r gs₀ hids h habsorb horder hview hmetric₀]
        at hrecorded
      rw [hagg]
      exact rehydrate_charted r.1 gs₀ gs hrecorded
  | splits keys hu hsplit hview _ _ =>
    subst hu
    have hseen : seen + (receivedSpans [(now, .toggleSplitSelected)] : Multiset WireSpan) =
        AggregatorOp.seen (.setSplitKeys keys) + seen := add_comm _ _
    rw [hseen] at hids ⊢
    obtain ⟨⟨hkept, htallied⟩, hlinked⟩ :=
      ring_perform budget seen m m'.agg (.setSplitKeys keys) hids h hsplit
    obtain ⟨horder, hsame⟩ := setSplitKeys_same_ring m.agg m'.agg budget seen h.kept h.tallied
      h.linked h.present keys hsplit
    refine ⟨hkept, htallied, hlinked, ?_, fun gs hgraph hmetric => ?_⟩
    · rcases setSplitKeys_present m.agg m'.agg budget seen (DistinctIds.mono _ _
        (Multiset.le_add_left _ _) hids) h.kept keys hsplit with hstays | hpresent
      · rw [hstays]
        exact h.present
      · exact hpresent
    · apply charted_of_same m.agg m'.agg gs horder _ h.kept.id_eq hmetric
        (h.chart gs (by rw [← hview, hgraph]) hmetric)
      intro id
      have hpair := congrArg (Option.map fun x => (x.1, x.2.1)) (hsame id)
      rw [shown_located, shown_located]
      simpa [Option.map_map, Function.comp_def] using hpair
  | shows hagg hview _ =>
    have hkept := h.kept.mono _ _ _ _ (seen + receivedSpans [(now, u)])
      (Multiset.le_add_right _ _)
    refine ⟨by rw [hagg]; exact hkept, by rw [hagg]; exact h.tallied,
      by rw [hagg]; exact h.linked, by rw [hagg]; exact h.present, fun gs hgraph hmetric => ?_⟩
    rw [hagg]
    exact viewMove_chart m u m'.view e hview h.chart gs hgraph hmetric

/-- INTERNAL: every run that evicts nothing keeps the chart. -/
theorem chartKept_run (budget : ℕ) (updates : List (ℕ × Update)) (seen : Multiset WireSpan)
    (m m' : ConsoleModel) (hids : DistinctIds (seen + receivedSpans updates))
    (h : ChartKept budget seen m) (hgrows : RunsUnder turn EvictsNothing m updates)
    (hrun : run turn m updates = some m') : ChartKept budget (seen + receivedSpans updates) m' := by
  induction updates generalizing seen m with
  | nil =>
    cases hrun
    simpa [receivedSpans, absorbedSpans] using h
  | cons x updates ih =>
    rw [run_cons, Option.bind_eq_some_iff] at hrun
    obtain ⟨m₁, h₁, hrun⟩ := hrun
    rw [receivedSpans_cons, ← Multiset.coe_add, ← add_assoc] at hids ⊢
    have hids₁ := DistinctIds.mono _ _ (Multiset.le_add_right _ _) hids
    have hkept₁ := chartKept_turn budget seen m m₁ x hids₁ h hgrows.1 h₁
    exact ih (seen + receivedSpans [x]) m₁ hids hkept₁ (hgrows.2 m₁ h₁) hrun

/-- CODE: core.rs:335-363, graph.rs:734-775 — **the store of a graph is the one a rebuild would
give**, in every model a run without evictions reaches, for the total and the count metric; and
the next arrival gives what the rebuild after it gives, or both are undefined. -/
theorem chart_eq_rebuild (budget : ℕ) (updates : List (ℕ × Update)) (m : ConsoleModel)
    (gs : GraphState) (hids : ((receivedSpans updates).map WireSpan.id).Nodup)
    (hgrows : RunsUnder turn EvictsNothing (ConsoleModel.new budget) updates)
    (hrun : run turn (ConsoleModel.new budget) updates = some m) (hview : m.view = .graph gs)
    (hmetric : gs.metric = .total ∨ gs.metric = .count) :
    (∃ rebuilt, gs.rehydrate m.agg = some rebuilt ∧ rebuilt.store = gs.store) ∧
      ∀ span r, span.id ∉ (receivedSpans updates).map WireSpan.id →
        m.agg.absorb span = some r → r.1.order = m.agg.order ++ r.2 →
          (r.2.foldlM (recordInserted r.1) gs).map GraphState.store =
            (gs.rehydrate r.1).map GraphState.store := by
  have hself : gs.metric ≠ .selfTime := by
    rcases hmetric with hmetric | hmetric <;> rw [hmetric] <;> decide
  have hdistinct := distinctIds_start (receivedSpans updates) hids
  have hkept := chartKept_run budget updates 0 (ConsoleModel.new budget) m hdistinct
    (chartKept_new budget) hgrows hrun
  refine ⟨⟨gs, hkept.chart gs hview hself, rfl⟩, fun span r hfresh habsorb horder => ?_⟩
  have hnext : DistinctIds (AggregatorOp.seen (.absorb span) +
      (0 + (receivedSpans updates : Multiset WireSpan))) := by
    have hcons : DistinctIds (span ::ₘ (0 + (receivedSpans updates : Multiset WireSpan))) := by
      unfold DistinctIds
      rw [Multiset.map_cons, Multiset.nodup_cons]
      refine ⟨?_, hdistinct⟩
      rw [zero_add, Multiset.map_coe, Multiset.mem_coe]
      exact hfresh
    refine DistinctIds.mono _ _ ?_ hcons
    rw [← Multiset.singleton_add]
    apply add_le_add_left
    unfold AggregatorOp.seen absorbedSpans
    cases hclosed : span.closedAtNs <;> simp [hclosed]
  rw [arrival_recorded budget _ m span r gs hnext hkept habsorb horder hview hself]

/-- INTERNAL: the graph of a root is open while a family arrives, the child first, and another
root. -/
def chartedUpdates : List (ℕ × Update) :=
  [(0, .spanReceived (plainSpan 1 none 7)), (0, .toggleGraph),
    (0, .spanReceived (plainSpan 3 (some 2) 2)), (0, .spanReceived (plainSpan 2 (some 1) 5)),
    (0, .spanReceived (plainSpan 4 none 9))]

/-- INTERNAL: the metric that a graph shows. -/
def shownMetric : ViewMode → Option Metric
  | .graph gs => some gs.metric
  | _ => none

/-- CODE: core.rs:335-363, graph.rs:734-775 — a graph that has recorded what arrived. -/
theorem chart_eq_rebuild_small : ∃ m gs,
    run turn (ConsoleModel.new 10) chartedUpdates = some m ∧ m.view = .graph gs ∧
      m.agg.order = [1, 2, 3, 4] ∧
      ∃ rebuilt, gs.rehydrate m.agg = some rebuilt ∧ rebuilt.store = gs.store := by
  have hafter : ((run turn (ConsoleModel.new 10) chartedUpdates).bind fun m =>
      (shownMetric m.view).map fun metric => (m.agg.order, metric)) =
        some ([1, 2, 3, 4], .total) := by
    decide +kernel
  obtain ⟨m, hrun, hgraph⟩ := Option.bind_eq_some_iff.mp hafter
  cases hview : m.view with
  | graph gs =>
    simp only [hview, shownMetric, Option.map_some, Option.some.injEq, Prod.mk.injEq] at hgraph
    have hgrows : RunsUnder turn EvictsNothing (ConsoleModel.new 10) chartedUpdates := by
      decide +kernel
    exact ⟨m, gs, hrun, hview, hgraph.1, (chart_eq_rebuild 10 chartedUpdates m gs (by decide)
      hgrows hrun hview (Or.inl hgraph.2)).1⟩
  | table => simp [hview, shownMetric] at hgraph
  | explore es => simp [hview, shownMetric] at hgraph
  | traceDetail td => simp [hview, shownMetric] at hgraph

end TracingConsole.Analysis.Console
