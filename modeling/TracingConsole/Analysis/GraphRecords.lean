import TracingConsole.Analysis.ChartRebuild

/-!
# What an update records

Six updates hand samples to the store of a graph: an arrival those of the spans it inserts, the
others those of the whole ring.  `binned` names the samples of an update, and `apply_records` says
that it records these and leaves every store alone otherwise.
-/

set_option autoImplicit false

namespace TracingConsole.Analysis.Console

open TracingConsole.Library TracingConsole.Model TracingConsole.Model.ConsoleModel

/-! ## What an update hands to the store -/

/-- INTERNAL: a graph as it is before it records, and the samples it records. -/
structure Binning where
  graph : GraphState
  samples : List (Option (SeriesKey × ℕ × ℕ))

/-- INTERNAL: recording the ring anew.
SRCLINE: graph.rs:758-775 -/
def rebuilding (agg : Aggregator) (gs : GraphState) : Binning where
  graph := { gs with store := gs.store.resetWindow gs.windowSecs }
  samples := (gs.matchingIds agg).map (sampleAt agg gs)

/-- INTERNAL: the window that a commit sets, if it takes the text.
SRCLINE: core.rs:638-645 -/
def committedWindow (gs : GraphState) : Option ℚ :=
  gs.windowInput.bind fun buf => (parseFinite buf).bind fun v => if 0 < v then some v else none

/-- INTERNAL: the key that a toggle adds or takes away, if the cursor is on one.
SRCLINE: core.rs:775-806 -/
def toggledKey (agg : Aggregator) (gs : GraphState) : Option String :=
  match gs.seriesKeys[gs.detailsSelected]? with
  | some _ => none
  | none => (graphCandidates agg gs)[gs.detailsSelected - gs.seriesKeys.length]?

/-- INTERNAL: the samples that an update records.
SRCLINE: core.rs:335-363, 529-545, 567-573, 637-651, 760-845, 1083-1113 -/
def binned (m : ConsoleModel) : Update → Option Binning
  | .spanReceived span =>
    match m.view with
    | .graph gs =>
      (m.agg.absorb span).map fun r =>
        { graph := gs, samples := (lockedIds r.1 gs.lockedStack r.2).map (sampleAt r.1 gs) }
    | _ => none
  | .toggleGraphMetric =>
    match m.view with
    | .graph gs => some (rebuilding m.agg { gs with metric := gs.metric.next })
    | _ => none
  | .graphWindowInputCommit =>
    match m.view with
    | .graph gs =>
      (committedWindow gs).map fun v =>
        rebuilding m.agg { gs with windowInput := none, windowSecs := v }
    | _ => none
  | .graphToggleSplit =>
    match m.view with
    | .graph gs => (toggledKey m.agg gs).map fun k => rebuilding m.agg (toggleSplitKey gs k)
    | _ => none
  | .toggleGraph =>
    match m.view with
    | .table =>
      m.selectedVisibleRow.map fun row => rebuilding m.agg (GraphState.new row.key.stack)
    | _ => none
  | .enterGraph =>
    match m.view with
    | .table =>
      m.selectedVisibleRow.map fun row => rebuilding m.agg (GraphState.new row.key.stack)
    | .graph _ => none
    | .explore es => some (rebuilding m.agg (GraphState.new es.lockedStack))
    | .traceDetail td => some (rebuilding m.agg (GraphState.new td.explore.lockedStack))
  | _ => none

/-- INTERNAL: the update records exactly these samples: it goes through if they do, and leaves
the graph with the store they make. -/
def Records (step : Option (ConsoleModel × Effect)) (b : Binning) : Prop :=
  ∃ done : GraphSeriesStore → ConsoleModel × Effect,
    step = (b.samples.foldlM recordSample b.graph.store).map done ∧
      ∀ store, ∃ gs, (done store).1.view = .graph gs ∧
        SameChart { b.graph with store := store } gs

/-- INTERNAL: the update records nothing: a graph after it was there before, with its store. -/
def RecordsNothing (m : ConsoleModel) (step : Option (ConsoleModel × Effect)) : Prop :=
  ∀ m' e, step = some (m', e) → ∀ gs', m'.view = .graph gs' →
    ∃ gs, m.view = .graph gs ∧ SameChart gs gs'

/-- INTERNAL: the update records what is said of it. -/
def RecordsAs (m : ConsoleModel) (step : Option (ConsoleModel × Effect)) :
    Option Binning → Prop
  | some b => Records step b
  | none => RecordsNothing m step

/-- INTERNAL: filling the chart again records the samples of the ring. -/
theorem rehydrate_samples (agg : Aggregator) (gs : GraphState) :
    gs.rehydrate agg = ((rebuilding agg gs).samples.foldlM recordSample
      (rebuilding agg gs).graph.store).map fun store => { gs with store := store } :=
  rehydrate_eq agg gs

/-- INTERNAL: a rebuild that ends an update, if it keeps its settings. -/
theorem records_rebuilding (agg : Aggregator) (gs : GraphState) (f : GraphState → GraphState)
    (finish : GraphState → ConsoleModel × Effect)
    (hview : ∀ gs, (finish gs).1.view = .graph (f gs)) (hf : ∀ gs, SameChart gs (f gs)) :
    Records ((gs.rehydrate agg).map finish) (rebuilding agg gs) := by
  refine ⟨fun store => finish { gs with store := store }, ?_, fun store => ⟨_, hview _, ?_⟩⟩
  · rw [rehydrate_samples, Option.map_map]
    rfl
  · exact hf { gs with store := store }

/-- INTERNAL: an arm that keeps the chart records nothing. -/
theorem recordsNothing_quiet (m m' : ConsoleModel)
    (h : ∀ gs', m'.view = .graph gs' → ∃ gs, m.view = .graph gs ∧ SameChart gs gs') :
    RecordsNothing m m'.quiet := by
  intro m₁ e hquiet
  obtain ⟨hm₁, -⟩ := quiet_eq hquiet
  subst hm₁
  exact h

/-- INTERNAL: an update that does not return. -/
theorem recordsNothing_none (m : ConsoleModel) : RecordsNothing m none := by
  intro m' e hstep
  cases hstep

/-- INTERNAL: an update that leaves the view. -/
theorem recordsNothing_view (m m' : ConsoleModel) (h : m'.view = m.view) :
    RecordsNothing m m'.quiet :=
  recordsNothing_quiet m m' fun gs' hview => ⟨gs', by rw [← h, hview], SameChart.refl gs'⟩

/-- INTERNAL: an edit beside the samples records nothing. -/
theorem recordsNothing_mapGraph (m : ConsoleModel) (f : GraphState → GraphState)
    (hf : ∀ gs, SameChart gs (f gs)) : RecordsNothing m (m.mapGraph f).quiet := by
  refine recordsNothing_quiet m _ fun gs' hview => ?_
  unfold mapGraph at hview
  cases hold : m.view with
  | graph gs =>
    simp only [hold] at hview
    cases hview
    exact ⟨gs, rfl, hf gs⟩
  | _ => simp [hold] at hview

/-- INTERNAL: an edit of the list records nothing. -/
theorem recordsNothing_mapExplore (m : ConsoleModel) (f : ExploreState → ExploreState) :
    RecordsNothing m (m.mapExplore f).quiet := by
  refine recordsNothing_quiet m _ fun gs' hview => ?_
  unfold mapExplore at hview
  cases hold : m.view with
  | graph gs =>
    simp only [hold] at hview
    cases hview
    exact ⟨_, rfl, SameChart.refl _⟩
  | _ => simp [hold] at hview

/-- INTERNAL: an edit of the trace records nothing. -/
theorem recordsNothing_mapTraceDetail (m : ConsoleModel)
    (f : TraceDetailState → TraceDetailState) : RecordsNothing m (m.mapTraceDetail f).quiet := by
  refine recordsNothing_quiet m _ fun gs' hview => ?_
  unfold mapTraceDetail at hview
  cases hold : m.view with
  | graph gs =>
    simp only [hold] at hview
    cases hview
    exact ⟨_, rfl, SameChart.refl _⟩
  | _ => simp [hold] at hview

/-! ## The arms of the reducer -/

/-- INTERNAL: an arm without an effect, under a map. -/
theorem map_quiet {α : Type} (x : Option α) (f : α → ConsoleModel) :
    (x.map f).bind quiet = x.map fun a => (f a, Effect.none) := by
  cases x <;> rfl

/-- INTERNAL: SRCLINE: core.rs:335-363 -/
theorem spanReceived_records (now : ℕ) (m : ConsoleModel) (span : WireSpan) :
    RecordsAs m ((m.spanReceived now span).bind quiet) (binned m (.spanReceived span)) := by
  unfold spanReceived
  simp only [binned]
  cases habsorb : m.agg.absorb span with
  | none =>
    cases hview : m.view <;> exact recordsNothing_none m
  | some r =>
    rw [Option.bind_some]
    cases hview : m.view with
    | graph gs =>
      simp only [Option.map_some]
      refine ⟨fun store => ({ m with
        rate := m.rate.record now
        agg := r.1
        view := .graph { gs with store := store } }, .none), ?_, fun store => ⟨_, rfl, ?_⟩⟩
      · rw [map_quiet, foldlM_recordInserted, foldlM_recordId, Option.map_map]
        rfl
      · exact SameChart.refl _
    | _ =>
      exact recordsNothing_view m _ hview.symm

/-- INTERNAL: SRCLINE: core.rs:567-573 -/
theorem toggleGraphMetric_records (m : ConsoleModel) :
    RecordsAs m ((m.regraph fun gs => { gs with metric := gs.metric.next }).bind quiet)
      (binned m .toggleGraphMetric) := by
  unfold regraph
  simp only [binned]
  cases hview : m.view with
  | graph gs =>
    rw [map_quiet]
    exact records_rebuilding m.agg { gs with metric := gs.metric.next } id
      (fun gs => ({ m with view := .graph gs }, .none)) (fun _ => rfl) SameChart.refl
  | _ => exact recordsNothing_view m m rfl

/-- INTERNAL: SRCLINE: core.rs:637-651 -/
theorem graphWindowInputCommit_records (m : ConsoleModel) :
    RecordsAs m (m.graphWindowInputCommit.bind quiet) (binned m .graphWindowInputCommit) := by
  unfold graphWindowInputCommit
  simp only [binned]
  cases hview : m.view with
  | graph gs =>
    have hclosed : RecordsNothing m
        (({ m with view := .graph { gs with windowInput := none } } : ConsoleModel).quiet) :=
      recordsNothing_quiet m _ fun gs' hgs' => by
        cases hgs'
        exact ⟨gs, hview, ⟨rfl, rfl, rfl, rfl, rfl⟩⟩
    dsimp only
    unfold committedWindow
    cases hinput : gs.windowInput with
    | none => exact recordsNothing_view m m rfl
    | some buf =>
      dsimp only
      rw [Option.bind_some]
      cases parseFinite buf with
      | none => exact hclosed
      | some v =>
        dsimp only
        rw [Option.bind_some]
        by_cases hpos : 0 < v
        · rw [if_pos hpos, if_pos hpos]
          unfold regraph
          rw [map_quiet]
          exact records_rebuilding m.agg { gs with windowInput := none, windowSecs := v } id
            (fun gs => ({ m with view := .graph gs }, .none)) (fun _ => rfl) SameChart.refl
        · rw [if_neg hpos, if_neg hpos]
          exact hclosed
  | _ => exact recordsNothing_view m m rfl

/-- INTERNAL: the cursor moves after the rebuild.
SRCLINE: core.rs:760-845 -/
theorem graphToggleSplit_records (m : ConsoleModel) :
    RecordsAs m (m.graphToggleSplit.bind quiet) (binned m .graphToggleSplit) := by
  unfold graphToggleSplit
  simp only [binned]
  cases hview : m.view with
  | graph gs =>
    dsimp only
    unfold toggledKey
    cases gs.seriesKeys[gs.detailsSelected]? with
    | some key =>
      refine recordsNothing_quiet m _ fun gs' hgs' => ?_
      cases hgs'
      exact ⟨gs, hview, ⟨rfl, rfl, rfl, rfl, rfl⟩⟩
    | none =>
      dsimp only
      cases (graphCandidates m.agg gs)[gs.detailsSelected - gs.seriesKeys.length]? with
      | none => exact recordsNothing_view m m rfl
      | some k =>
        dsimp only
        rw [map_quiet]
        exact records_rebuilding m.agg (toggleSplitKey gs k) _ _ (fun _ => rfl)
          fun _ => ⟨rfl, rfl, rfl, rfl, rfl⟩
  | _ => exact recordsNothing_view m m rfl

/-- INTERNAL: SRCLINE: core.rs:529-545 -/
theorem toggleGraph_records (m : ConsoleModel) :
    RecordsAs m (m.toggleGraph.bind quiet) (binned m .toggleGraph) := by
  unfold toggleGraph regraph
  simp only [binned]
  have htable : RecordsNothing m (({ m with view := .table } : ConsoleModel).quiet) :=
    recordsNothing_quiet m _ fun gs' hgs' => by cases hgs'
  cases hview : m.view with
  | table =>
    cases hrow : m.selectedVisibleRow with
    | none => exact htable
    | some row =>
      dsimp only
      rw [map_quiet]
      exact records_rebuilding m.agg (GraphState.new row.key.stack) id
        (fun gs => ({ m with view := .graph gs }, .none)) (fun _ => rfl) SameChart.refl
  | _ => exact htable

/-- INTERNAL: SRCLINE: core.rs:1106-1112 -/
theorem graph_records (m : ConsoleModel) (locked : List String) (effect : Effect) :
    Records (m.graph locked effect) (rebuilding m.agg (GraphState.new locked)) :=
  records_rebuilding m.agg (GraphState.new locked) id
    (fun gs => ({ m with view := .graph gs }, effect)) (fun _ => rfl) SameChart.refl

/-- INTERNAL: SRCLINE: core.rs:1083-1113 -/
theorem enterGraph_records (m : ConsoleModel) :
    RecordsAs m m.enterGraph (binned m .enterGraph) := by
  unfold enterGraph
  simp only [binned]
  cases hview : m.view with
  | table =>
    cases hrow : m.selectedVisibleRow with
    | none => exact recordsNothing_view m m rfl
    | some row => exact graph_records m row.key.stack .none
  | graph gs => exact recordsNothing_view m m rfl
  | explore es => exact graph_records m es.lockedStack _
  | traceDetail td => exact graph_records m td.explore.lockedStack _

/-- INTERNAL: SRCLINE: core.rs:869-915, 998-1028, 1069-1082 -/
theorem visits_record_nothing (m m' : ConsoleModel) (effect : Effect)
    (h : m'.view = m.view ∨ ∀ gs, m'.view ≠ .graph gs) :
    RecordsNothing m (some (m', effect)) := by
  intro m₁ e hstep gs' hview
  cases hstep
  cases h with
  | inl hsame => exact ⟨gs', by rw [← hsame, hview], SameChart.refl gs'⟩
  | inr hother => exact absurd hview (hother gs')

/-- INTERNAL: entering the list shows no new chart. -/
theorem enterExplore_view (m : ConsoleModel) :
    m.enterExplore.1.view = m.view ∨ ∀ gs, m.enterExplore.1.view ≠ .graph gs := by
  unfold enterExplore
  cases hview : m.view with
  | table => cases m.selectedVisibleRow <;> simp [explore, hview]
  | _ => simp [explore, hview]

/-- INTERNAL: leaving the list shows no chart. -/
theorem exitExplore_view (m : ConsoleModel) :
    m.exitExplore.1.view = m.view ∨ ∀ gs, m.exitExplore.1.view ≠ .graph gs := by
  unfold exitExplore
  cases hview : m.view <;> simp [hview]

/-- INTERNAL: opening a trace shows no new chart. -/
theorem exploreOpenTrace_view (m : ConsoleModel) :
    m.exploreOpenTrace.view = m.view ∨ ∀ gs, m.exploreOpenTrace.view ≠ .graph gs := by
  unfold exploreOpenTrace
  cases hview : m.view with
  | explore es =>
    dsimp only
    split
    · exact Or.inl hview
    · split
      · exact Or.inl hview
      · exact Or.inr fun _ => nofun
  | _ => exact Or.inl hview

/-- INTERNAL: leaving a trace shows no chart. -/
theorem exitTraceDetail_view (m : ConsoleModel) :
    ∀ gs, m.exitTraceDetail.view ≠ .graph gs := by
  intro gs
  unfold exitTraceDetail
  cases m.view <;> exact nofun

/-- INTERNAL: a cursor or a fold of a trace leaves every graph. -/
theorem traceDetailSelectDown_records (m : ConsoleModel) :
    RecordsNothing m (m.traceDetailSelectDown.bind quiet) := by
  unfold traceDetailSelectDown
  cases hview : m.view with
  | traceDetail td =>
    dsimp only
    rw [map_quiet]
    cases visibleTraceRows m.agg td.rootId td.collapsed with
    | none => exact recordsNothing_none m
    | some rows =>
      refine visits_record_nothing m _ .none (Or.inr fun gs => ?_)
      split
      · exact nofun
      · rw [hview]
        exact nofun
  | _ => exact recordsNothing_view m m rfl

/-- INTERNAL: folding a row of a trace records nothing. -/
theorem changeCollapsed_records (m : ConsoleModel) (change : Finset ℕ → ℕ → Finset ℕ) :
    RecordsNothing m ((m.changeCollapsed change).bind quiet) := by
  unfold changeCollapsed
  cases hview : m.view with
  | traceDetail td =>
    dsimp only
    rw [map_quiet]
    cases traceSelectedSpanId m.agg td with
    | none => exact recordsNothing_none m
    | some selected =>
      refine visits_record_nothing m _ .none (Or.inr fun gs => ?_)
      cases selected with
      | some id => exact nofun
      | none =>
        dsimp only
        rw [hview]
        exact nofun
  | _ => exact recordsNothing_view m m rfl

/-- INTERNAL: a split of the table records nothing. -/
theorem toggleSplitSelected_records (m : ConsoleModel) :
    RecordsNothing m (m.toggleSplitSelected.bind quiet) := by
  unfold toggleSplitSelected
  split
  · exact recordsNothing_view m m rfl
  · split
    · exact recordsNothing_view m m rfl
    · next k _ =>
      cases m.agg.setSplitKeys (toggleKey m.agg.splitKeys k) with
      | none => exact recordsNothing_none m
      | some agg => exact recordsNothing_view m _ rfl

/-- INTERNAL: quitting leaves the view. -/
theorem requestQuit_view (now : ℕ) (m : ConsoleModel) : (m.requestQuit now).1.view = m.view := by
  unfold requestQuit
  dsimp only
  split
  · split <;> rfl
  · rfl

/-- INTERNAL: a yes leaves the view. -/
theorem confirmVersionSwitchYes_view (m : ConsoleModel) :
    m.confirmVersionSwitchYes.1.view = m.view := by
  unfold confirmVersionSwitchYes
  split
  · rfl
  · split <;> rfl

/-- INTERNAL: **what an update records**: the samples that are said of it, and nothing else
changes a store.
SRCLINE: core.rs:333-1203 -/
theorem apply_records (now : ℕ) (m : ConsoleModel) (u : Update) :
    RecordsAs m (m.apply now u) (binned m u) := by
  have hsame : ∀ m' : ConsoleModel, Untouched m m' → RecordsNothing m m'.quiet :=
    fun m' h => recordsNothing_view m m' h.view
  cases u with
  | spanReceived span => exact spanReceived_records now m span
  | toggleGraphMetric => exact toggleGraphMetric_records m
  | graphWindowInputCommit => exact graphWindowInputCommit_records m
  | graphToggleSplit => exact graphToggleSplit_records m
  | toggleGraph => exact toggleGraph_records m
  | enterGraph => exact enterGraph_records m
  | selectUp => exact hsame _ (selectUp_untouched m)
  | selectDown => exact hsame _ (selectDown_untouched m)
  | expandSelected => exact hsame _ (expandSelected_untouched m)
  | expandAllSelected => exact hsame _ (expandAllSelected_untouched m)
  | collapseSelected => exact hsame _ (collapseSelected_untouched m)
  | switchFocus => exact hsame _ (switchFocus_untouched m)
  | toggleSplitSelected => exact toggleSplitSelected_records m
  | requestCacheLevel filter => exact visits_record_nothing m m _ (Or.inl rfl)
  | chanceInputCommit =>
    refine visits_record_nothing m _ _ (Or.inl ?_)
    cases m.chanceInput <;> rfl
  | graphAggInputCommit => exact recordsNothing_mapGraph m _ aggInputCommit_chart
  | graphLookbackInputCommit => exact recordsNothing_mapGraph m _ lookbackInputCommit_chart
  | graphSwitchFocus => exact recordsNothing_mapGraph m _ graphSwitchFocus_chart
  | graphSelectDown => exact recordsNothing_mapGraph m _ (graphSelectDown_chart m.agg)
  | setGraphAgg | beginGraphAggInput | graphAggInputChar | graphAggInputBackspace
  | graphAggInputCancel | beginGraphWindowInput | graphWindowInputChar
  | graphWindowInputBackspace | graphWindowInputCancel | beginGraphLookbackInput
  | graphLookbackInputChar | graphLookbackInputBackspace | graphLookbackInputCancel
  | toggleGraphTimeLabels | graphSelectUp | graphSortColumnLeft | graphSortColumnRight =>
    refine recordsNothing_mapGraph m _ ?_
    exact fun gs => ⟨rfl, rfl, rfl, rfl, rfl⟩
  | enterExplore => exact visits_record_nothing m _ _ (enterExplore_view m)
  | exitExplore => exact visits_record_nothing m _ _ (exitExplore_view m)
  | exploreSelectUp | exploreSelectDown | exploreSortLeft | exploreSortRight
  | exploreInvertSort | beginExploreSearch | exploreSearchChar | exploreSearchBackspace
  | exploreSearchCancel | exploreSearchCommit => exact recordsNothing_mapExplore m _
  | exploreOpenTrace => exact visits_record_nothing m _ _ (exploreOpenTrace_view m)
  | exitTraceDetail => exact visits_record_nothing m _ _ (Or.inr (exitTraceDetail_view m))
  | traceDetailSelectUp => exact recordsNothing_mapTraceDetail m _
  | traceDetailSelectDown => exact traceDetailSelectDown_records m
  | traceDetailExpand | traceDetailCollapse => exact changeCollapsed_records m _
  | enterTable => exact visits_record_nothing m _ _ (Or.inr fun _ => nofun)
  | quit => exact visits_record_nothing m _ _ (Or.inl (requestQuit_view now m))
  | beginConfirmVersionSwitch => exact hsame _ (beginConfirmVersionSwitch_untouched m)
  | confirmVersionSwitchYes =>
    exact visits_record_nothing m _ _ (Or.inl (confirmVersionSwitchYes_view m))
  | confirmVersionSwitchNo => exact hsame _ (confirmVersionSwitchNo_untouched m)
  | connected | disconnected | status | cacheLevelReceived | serverInfoReceived
  | cacheChanceReceived | beginChanceInput | chanceInputChar | chanceInputBackspace
  | chanceInputCancel | quitConfirmDismiss | installerSucceeded | installerFailed =>
    exact recordsNothing_view m _ rfl

end TracingConsole.Analysis.Console
