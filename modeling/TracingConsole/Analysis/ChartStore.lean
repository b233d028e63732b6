import TracingConsole.Model.Apply

/-!
# What the store of a graph is made of

A graph hands its store one sample for each span it records.  A rebuild is the fold of these
samples over the ring, from an empty store of the window: it depends on the aggregator, on the
locked stack, the split keys, the metric and the window, and on nothing else of the graph.
-/

set_option autoImplicit false

namespace TracingConsole.Analysis.Console

open TracingConsole.Model

/-- INTERNAL: what the store is given for the span with an id: the series, the time it closed
and the value.  Nothing for a span that is not in the ring or still open. -/
def sampleAt (agg : Aggregator) (gs : GraphState) (id : ℕ) : Option (SeriesKey × ℕ × ℕ) :=
  (agg.spanById id).bind fun span =>
    span.closedAtNs.map fun closed =>
      (agg.collectSplitsFor span.id gs.splitKeys, closed, gs.sampleOf agg span closed)

/-- INTERNAL: a sample, if there is one, is recorded. -/
def recordSample (store : GraphSeriesStore) :
    Option (SeriesKey × ℕ × ℕ) → Option GraphSeriesStore
  | none => some store
  | some (key, closed, value) => store.record key closed value

/-- INTERNAL: the store that a rebuild now would give. -/
def rebuiltStore (agg : Aggregator) (gs : GraphState) : Option GraphSeriesStore :=
  ((gs.matchingIds agg).map (sampleAt agg gs)).foldlM recordSample
    (GraphSeriesStore.new gs.windowSecs)

/-- INTERNAL: a rebuild now would change nothing. -/
def Charted (agg : Aggregator) (gs : GraphState) : Prop := gs.rehydrate agg = some gs

/-- INTERNAL: two graphs are drawn from the same settings and the same store. -/
structure SameChart (gs gs' : GraphState) : Prop where
  lockedStack : gs'.lockedStack = gs.lockedStack
  metric : gs'.metric = gs.metric
  windowSecs : gs'.windowSecs = gs.windowSecs
  splitKeys : gs'.splitKeys = gs.splitKeys
  store : gs'.store = gs.store

/-- INTERNAL: a chart is the same as itself. -/
theorem SameChart.refl (gs : GraphState) : SameChart gs gs := ⟨rfl, rfl, rfl, rfl, rfl⟩

/-! ## The rebuild as a fold of samples -/

/-- INTERNAL: a span is recorded by its sample. -/
theorem recordId_eq (agg : Aggregator) (gs : GraphState) (id : ℕ) :
    GraphState.recordId agg gs id =
      (recordSample gs.store (sampleAt agg gs id)).map fun store => { gs with store := store } := by
  unfold GraphState.recordId sampleAt GraphState.recordSpan
  cases agg.spanById id with
  | none => rfl
  | some span => cases hclosed : span.closedAtNs <;> simp [hclosed, recordSample]

/-- INTERNAL: recording spans changes the store alone, by their samples. -/
theorem foldlM_recordId (agg : Aggregator) (ids : List ℕ) (gs : GraphState) :
    ids.foldlM (GraphState.recordId agg) gs =
      ((ids.map (sampleAt agg gs)).foldlM recordSample gs.store).map
        fun store => { gs with store := store } := by
  induction ids generalizing gs with
  | nil => rfl
  | cons id ids ih =>
    rw [List.map_cons, List.foldlM_cons, List.foldlM_cons, recordId_eq]
    cases recordSample gs.store (sampleAt agg gs id) with
    | none => rfl
    | some store =>
      -- the samples do not depend on the store they go into
      have hsamples : sampleAt agg { gs with store := store } = sampleAt agg gs := rfl
      have htail := ih { gs with store := store }
      rw [hsamples] at htail
      exact htail

/-- INTERNAL: a rebuild sets the store and leaves the rest of the graph. -/
theorem rehydrate_eq (agg : Aggregator) (gs : GraphState) :
    gs.rehydrate agg =
      (rebuiltStore agg gs).map fun store => { gs with store := store } :=
  foldlM_recordId agg (gs.matchingIds agg)
    { gs with store := gs.store.resetWindow gs.windowSecs }

/-- INTERNAL: a chart is right if it is the one that would be built. -/
theorem charted_iff (agg : Aggregator) (gs : GraphState) :
    Charted agg gs ↔ rebuiltStore agg gs = some gs.store := by
  unfold Charted
  rw [rehydrate_eq, Option.map_eq_some_iff]
  constructor
  · rintro ⟨store, hstore, hsame⟩
    rw [hstore, ← hsame]
  · intro hstore
    exact ⟨gs.store, hstore, rfl⟩

/-- INTERNAL: the settings of a chart are all its rebuilding needs. -/
theorem rebuiltStore_congr (agg : Aggregator) (gs gs' : GraphState)
    (hstack : gs'.lockedStack = gs.lockedStack) (hmetric : gs'.metric = gs.metric)
    (hwindow : gs'.windowSecs = gs.windowSecs) (hkeys : gs'.splitKeys = gs.splitKeys) :
    rebuiltStore agg gs' = rebuiltStore agg gs := by
  have hids : gs'.matchingIds agg = gs.matchingIds agg := by
    unfold GraphState.matchingIds
    rw [hstack]
  have hsamples : sampleAt agg gs' = sampleAt agg gs := by
    funext id
    unfold sampleAt GraphState.sampleOf
    rw [hmetric, hkeys]
  unfold rebuiltStore
  rw [hids, hsamples, hwindow]

/-- INTERNAL: a graph that was just rebuilt is charted. -/
theorem rehydrate_charted (agg : Aggregator) (gs gs' : GraphState)
    (h : gs.rehydrate agg = some gs') : Charted agg gs' := by
  rw [rehydrate_eq, Option.map_eq_some_iff] at h
  obtain ⟨store, hstore, hsame⟩ := h
  subst hsame
  apply (charted_iff agg _).mpr
  rw [← hstore]
  exact rebuiltStore_congr agg gs _ rfl rfl rfl rfl

/-- INTERNAL: the same chart is as right. -/
theorem SameChart.charted {agg : Aggregator} {gs gs' : GraphState} (hsame : SameChart gs gs')
    (h : Charted agg gs) : Charted agg gs' := by
  rw [charted_iff] at h ⊢
  rw [rebuiltStore_congr agg gs gs' hsame.lockedStack hsame.metric hsame.windowSecs
    hsame.splitKeys, hsame.store]
  exact h

end TracingConsole.Analysis.Console
