import TracingConsole.Analysis.ChartStore

/-!
# What an update changes

`apply_moves` says once what the reducer does on each of its updates: to the aggregator, to
the view, to the level it takes for confirmed, and which request it returns.  Most updates
leave all of them; the views that are visits carry the `ExploreState` that remembers the level
to go back to.
-/

set_option autoImplicit false

namespace TracingConsole.Analysis.Console

open TracingConsole.Model TracingConsole.Model.ConsoleModel

/-- INTERNAL: the explore state of a visit, in the list or below it in a trace. -/
def exploreState : ViewMode → Option ExploreState
  | .explore es => some es
  | .traceDetail td => some td.explore
  | .table | .graph _ => none

/-- INTERNAL: the two updates that put the table in place of a visit and request nothing. -/
def Abandons (m : ConsoleModel) (u : Update) : Prop :=
  u = .toggleGraph ∨ u = .exitTraceDetail ∧ ∃ es, m.view = .explore es

/-- INTERNAL: a new visit begins, from a row of the table or from a graph. -/
def BeginsVisit (m : ConsoleModel) (u : Update) : Prop :=
  u = .enterExplore ∧
    match m.view with
    | .table => m.selectedVisibleRow ≠ none
    | .graph _ => True
    | .explore _ | .traceDetail _ => False

/-- INTERNAL: the level taken for confirmed after an update. -/
def levelAfter (level : Option WireLevelFilter) : Update → Option WireLevelFilter
  | .cacheLevelReceived filter => some filter
  | _ => level

/-- INTERNAL: what becomes of the view when the aggregator stays as it is. -/
inductive ViewMove (m : ConsoleModel) (u : Update) (view : ViewMode) (e : Effect) : Prop
  | same (hview : view = m.view)
      (he : ∀ filter, e = .requestSetLevel filter → u = .requestCacheLevel filter)
  | charts (gs gs' : GraphState) (hview : m.view = .graph gs) (hview' : view = .graph gs')
      (hchart : SameChart gs gs' ∨ Charted m.agg gs') (he : e = .none)
  | lists (es es' : ExploreState) (hview : m.view = .explore es) (hview' : view = .explore es')
      (hlevel : es'.restoreLevel = es.restoreLevel) (hstack : es'.lockedStack = es.lockedStack)
      (he : e = .none)
  | traces (td td' : TraceDetailState) (hview : m.view = .traceDetail td)
      (hview' : view = .traceDetail td') (hexplore : td'.explore = td.explore) (he : e = .none)
  | descends (td : TraceDetailState) (hview : m.view = .explore td.explore)
      (hview' : view = .traceDetail td) (he : e = .none)
  | ascends (td : TraceDetailState) (hview : m.view = .traceDetail td)
      (hview' : view = .explore td.explore) (he : e = .none)
  | opens (gs : GraphState) (hnone : exploreState m.view = none) (hview' : view = .graph gs)
      (hchart : Charted m.agg gs) (he : e = .none)
  | closes (hnone : exploreState m.view = none) (hview' : view = .table) (he : e = .none)
  | starts (stack : List String) (hbegins : BeginsVisit m u)
      (hview' : view = .explore (ExploreState.new stack m.cacheLevel))
      (he : e = .requestSetLevel .off)
  | ends (es : ExploreState) (hvisit : exploreState m.view = some es)
      (hview' : view = .table ∨ ∃ gs, view = .graph gs ∧ Charted m.agg gs)
      (he : e = .requestSetLevel (es.restoreLevel.getD .trace))
  | abandons (es : ExploreState) (hvisit : exploreState m.view = some es) (hu : Abandons m u)
      (hview' : view = .table) (he : e = .none)

/-- INTERNAL: what one update does. -/
inductive Move (m : ConsoleModel) (u : Update) (m' : ConsoleModel) (e : Effect) : Prop
  | absorbs (span : WireSpan) (r : Aggregator × List ℕ) (hu : u = .spanReceived span)
      (habsorb : m.agg.absorb span = some r) (hagg : m'.agg = r.1)
      (hview : m'.view = m.view ∧ (∀ gs, m.view ≠ .graph gs) ∨
        ∃ gs gs', m.view = .graph gs ∧ m'.view = .graph gs' ∧
          r.2.foldlM (recordInserted r.1) gs = some gs')
      (hlevel : m'.cacheLevel = m.cacheLevel) (he : e = .none)
  | splits (keys : Finset String) (hu : u = .toggleSplitSelected)
      (hsplit : m.agg.setSplitKeys keys = some m'.agg) (hview : m'.view = m.view)
      (hlevel : m'.cacheLevel = m.cacheLevel) (he : e = .none)
  | shows (hagg : m'.agg = m.agg) (hview : ViewMove m u m'.view e)
      (hlevel : m'.cacheLevel = levelAfter m.cacheLevel u)

/-! ## The parts an arm leaves alone -/

/-- INTERNAL: neither the aggregator, nor the view, nor the confirmed level has changed. -/
structure Untouched (m m' : ConsoleModel) : Prop where
  agg : m'.agg = m.agg
  view : m'.view = m.view
  cacheLevel : m'.cacheLevel = m.cacheLevel

/-- INTERNAL: a console is untouched while nothing happens. -/
theorem Untouched.refl (m : ConsoleModel) : Untouched m m := ⟨rfl, rfl, rfl⟩

/-- INTERNAL: an arm without an effect leaves just its console. -/
theorem quiet_eq {m m' : ConsoleModel} {e : Effect} (h : m.quiet = some (m', e)) :
    m' = m ∧ e = .none := by
  cases h
  exact ⟨rfl, rfl⟩

/-- INTERNAL: a selection leaves view and level. -/
theorem setCurrentSelected_untouched (m : ConsoleModel) (idx : ℕ) :
    Untouched m (m.setCurrentSelected idx) := by
  unfold setCurrentSelected
  cases m.focus <;> exact ⟨rfl, rfl, rfl⟩

/-- INTERNAL: so does moving it up. -/
theorem selectUp_untouched (m : ConsoleModel) : Untouched m m.selectUp := by
  unfold selectUp
  split
  · exact Untouched.refl m
  · exact setCurrentSelected_untouched m _

/-- INTERNAL: and moving it down. -/
theorem selectDown_untouched (m : ConsoleModel) : Untouched m m.selectDown := by
  unfold selectDown
  dsimp only
  split
  · exact Untouched.refl m
  · exact setCurrentSelected_untouched m _

/-- INTERNAL: unfolding a row leaves view and level. -/
theorem expandSelected_untouched (m : ConsoleModel) : Untouched m m.expandSelected := by
  unfold expandSelected
  split
  · split
    · split <;> exact ⟨rfl, rfl, rfl⟩
    · exact Untouched.refl m
  · exact Untouched.refl m

/-- INTERNAL: so does unfolding all below it. -/
theorem expandAllSelected_untouched (m : ConsoleModel) : Untouched m m.expandAllSelected := by
  unfold expandAllSelected
  split
  · exact Untouched.refl m
  · split <;> exact ⟨rfl, rfl, rfl⟩

/-- INTERNAL: and folding it. -/
theorem collapseSelected_untouched (m : ConsoleModel) : Untouched m m.collapseSelected := by
  unfold collapseSelected
  split
  · exact Untouched.refl m
  · split
    · exact Untouched.refl m
    · split
      · exact ⟨rfl, rfl, rfl⟩
      · split
        · dsimp only
          split <;> exact ⟨rfl, rfl, rfl⟩
        · exact Untouched.refl m

/-- INTERNAL: the focus leaves view and level. -/
theorem switchFocus_untouched (m : ConsoleModel) : Untouched m m.switchFocus := by
  unfold switchFocus
  cases m.focus <;> exact ⟨rfl, rfl, rfl⟩

/-- INTERNAL: opening the version modal leaves view and level. -/
theorem beginConfirmVersionSwitch_untouched (m : ConsoleModel) :
    Untouched m m.beginConfirmVersionSwitch := by
  unfold beginConfirmVersionSwitch
  split
  · split <;> exact ⟨rfl, rfl, rfl⟩
  · exact Untouched.refl m

/-- INTERNAL: so does closing it. -/
theorem confirmVersionSwitchNo_untouched (m : ConsoleModel) :
    Untouched m m.confirmVersionSwitchNo := by
  unfold confirmVersionSwitchNo
  split
  · exact Untouched.refl m
  · split <;> exact ⟨rfl, rfl, rfl⟩

/-- INTERNAL: no effect, no level. -/
theorem requests_nothing {u : Update} {e : Effect} (he : e = .none) (filter : WireLevelFilter)
    (hfilter : e = .requestSetLevel filter) : u = .requestCacheLevel filter := by
  rw [he] at hfilter
  cases hfilter

/-- INTERNAL: an arm that leaves the parts alone requests no level. -/
theorem shows_untouched {m m₁ m' : ConsoleModel} {u : Update} {e : Effect}
    (hu : ∀ level, levelAfter level u = level) (h : Untouched m m₁)
    (hquiet : m₁.quiet = some (m', e)) : Move m u m' e := by
  obtain ⟨hm', he⟩ := quiet_eq hquiet
  subst hm'
  exact Move.shows h.agg (ViewMove.same h.view (requests_nothing he))
    (by rw [hu, h.cacheLevel])

/-! ## The arms of the views -/

/-- INTERNAL: an arm that only changes how the graph is shown. -/
theorem shows_graph {m m' : ConsoleModel} {u : Update} {e : Effect} (f : GraphState → GraphState)
    (hu : ∀ level, levelAfter level u = level) (hf : ∀ gs, SameChart gs (f gs))
    (hquiet : (m.mapGraph f).quiet = some (m', e)) : Move m u m' e := by
  unfold mapGraph at hquiet
  cases hview : m.view with
  | graph gs =>
    simp only [hview] at hquiet
    obtain ⟨hm', he⟩ := quiet_eq hquiet
    subst hm'
    exact Move.shows rfl (ViewMove.charts gs (f gs) hview rfl (Or.inl (hf gs)) he) (hu _).symm
  | _ =>
    simp only [hview] at hquiet
    exact shows_untouched hu (Untouched.refl m) hquiet

/-- INTERNAL: an arm that records the ring anew. -/
theorem shows_regraph {m m₁ m' : ConsoleModel} {u : Update} {e : Effect}
    (f : GraphState → GraphState) (hu : ∀ level, levelAfter level u = level)
    (h : m.regraph f = some m₁) (hquiet : m₁.quiet = some (m', e)) : Move m u m' e := by
  unfold regraph at h
  cases hview : m.view with
  | graph gs =>
    simp only [hview, Option.map_eq_some_iff] at h
    obtain ⟨gs', hgs', hm₁⟩ := h
    subst hm₁
    obtain ⟨hm', he⟩ := quiet_eq hquiet
    subst hm'
    have hchart := rehydrate_charted m.agg (f gs) gs' hgs'
    exact Move.shows rfl (ViewMove.charts gs gs' hview rfl (Or.inr hchart) he) (hu _).symm
  | _ =>
    simp only [hview] at h
    cases h
    exact shows_untouched hu (Untouched.refl m) hquiet

/-- INTERNAL: an arm of the explore list. -/
theorem shows_explore {m m' : ConsoleModel} {u : Update} {e : Effect}
    (f : ExploreState → ExploreState) (hu : ∀ level, levelAfter level u = level)
    (hlevel : ∀ es, (f es).restoreLevel = es.restoreLevel)
    (hstack : ∀ es, (f es).lockedStack = es.lockedStack)
    (hquiet : (m.mapExplore f).quiet = some (m', e)) : Move m u m' e := by
  unfold mapExplore at hquiet
  cases hview : m.view with
  | explore es =>
    simp only [hview] at hquiet
    obtain ⟨hm', he⟩ := quiet_eq hquiet
    subst hm'
    exact Move.shows rfl (ViewMove.lists es (f es) hview rfl (hlevel es) (hstack es) he)
      (hu _).symm
  | _ =>
    simp only [hview] at hquiet
    exact shows_untouched hu (Untouched.refl m) hquiet

/-- INTERNAL: moving down the list keeps the level to restore. -/
theorem exploreSelectDown_level (agg : Aggregator) (es : ExploreState) :
    (exploreSelectDown agg es).restoreLevel = es.restoreLevel := by
  unfold exploreSelectDown
  dsimp only
  split <;> rfl

/-- INTERNAL: and the stack it is locked on. -/
theorem exploreSelectDown_stack (agg : Aggregator) (es : ExploreState) :
    (exploreSelectDown agg es).lockedStack = es.lockedStack := by
  unfold exploreSelectDown
  dsimp only
  split <;> rfl

/-- INTERNAL: committing a search keeps the level to restore. -/
theorem exploreSearchCommit_level (es : ExploreState) :
    (exploreSearchCommit es).restoreLevel = es.restoreLevel := by
  unfold exploreSearchCommit
  split <;> rfl

/-- INTERNAL: and the stack it is locked on. -/
theorem exploreSearchCommit_stack (es : ExploreState) :
    (exploreSearchCommit es).lockedStack = es.lockedStack := by
  unfold exploreSearchCommit
  split <;> rfl

/-- INTERNAL: an arm of the trace. -/
theorem shows_traceDetail {m m' : ConsoleModel} {u : Update} {e : Effect}
    (f : TraceDetailState → TraceDetailState) (hu : ∀ level, levelAfter level u = level)
    (hexplore : ∀ td, (f td).explore = td.explore)
    (hquiet : (m.mapTraceDetail f).quiet = some (m', e)) : Move m u m' e := by
  unfold mapTraceDetail at hquiet
  cases hview : m.view with
  | traceDetail td =>
    simp only [hview] at hquiet
    obtain ⟨hm', he⟩ := quiet_eq hquiet
    subst hm'
    exact Move.shows rfl (ViewMove.traces td (f td) hview rfl (hexplore td) he) (hu _).symm
  | _ =>
    simp only [hview] at hquiet
    exact shows_untouched hu (Untouched.refl m) hquiet

/-- INTERNAL: moving down a trace stays in the list it was opened from. -/
theorem traceDetailSelectDown_moves {m m₁ m' : ConsoleModel} {u : Update} {e : Effect}
    (hu : ∀ level, levelAfter level u = level) (h : m.traceDetailSelectDown = some m₁)
    (hquiet : m₁.quiet = some (m', e)) : Move m u m' e := by
  unfold traceDetailSelectDown at h
  cases hview : m.view with
  | traceDetail td =>
    simp only [hview, Option.map_eq_some_iff] at h
    obtain ⟨rows, -, hm₁⟩ := h
    subst hm₁
    split at hquiet
    · obtain ⟨hm', he⟩ := quiet_eq hquiet
      subst hm'
      exact Move.shows rfl (ViewMove.traces td _ hview rfl rfl he) (hu _).symm
    · exact shows_untouched hu (Untouched.refl m) hquiet
  | _ =>
    simp only [hview] at h
    cases h
    exact shows_untouched hu (Untouched.refl m) hquiet

/-- INTERNAL: so does folding a row of it. -/
theorem changeCollapsed_moves {m m₁ m' : ConsoleModel} {u : Update} {e : Effect}
    (change : Finset ℕ → ℕ → Finset ℕ) (hu : ∀ level, levelAfter level u = level)
    (h : m.changeCollapsed change = some m₁) (hquiet : m₁.quiet = some (m', e)) :
    Move m u m' e := by
  unfold changeCollapsed at h
  cases hview : m.view with
  | traceDetail td =>
    simp only [hview, Option.map_eq_some_iff] at h
    obtain ⟨selected, -, hm₁⟩ := h
    subst hm₁
    cases selected with
    | some id =>
      obtain ⟨hm', he⟩ := quiet_eq hquiet
      subst hm'
      exact Move.shows rfl (ViewMove.traces td _ hview rfl rfl he) (hu _).symm
    | none => exact shows_untouched hu (Untouched.refl m) hquiet
  | _ =>
    simp only [hview] at h
    cases h
    exact shows_untouched hu (Untouched.refl m) hquiet

/-! ## How a graph is shown -/

/-- INTERNAL: committing an aggregation keeps the locked stack. -/
theorem aggInputCommit_chart (gs : GraphState) : SameChart gs (aggInputCommit gs) := by
  unfold aggInputCommit
  split
  · exact SameChart.refl gs
  · split <;> exact ⟨rfl, rfl, rfl, rfl, rfl⟩

/-- INTERNAL: so does committing a lookback. -/
theorem lookbackInputCommit_chart (gs : GraphState) : SameChart gs (lookbackInputCommit gs) := by
  unfold lookbackInputCommit
  split
  · exact SameChart.refl gs
  · split <;> exact ⟨rfl, rfl, rfl, rfl, rfl⟩

/-- INTERNAL: and the focus of the chart. -/
theorem graphSwitchFocus_chart (gs : GraphState) : SameChart gs (graphSwitchFocus gs) := by
  unfold graphSwitchFocus
  split <;> exact ⟨rfl, rfl, rfl, rfl, rfl⟩

/-- INTERNAL: and its selection. -/
theorem graphSelectDown_chart (agg : Aggregator) (gs : GraphState) :
    SameChart gs (graphSelectDown agg gs) := by
  unfold graphSelectDown
  dsimp only
  split <;> exact ⟨rfl, rfl, rfl, rfl, rfl⟩

/-- INTERNAL: committing a window stays in the chart. -/
theorem graphWindowInputCommit_moves {m m₁ m' : ConsoleModel} {u : Update} {e : Effect}
    (hu : ∀ level, levelAfter level u = level) (h : m.graphWindowInputCommit = some m₁)
    (hquiet : m₁.quiet = some (m', e)) : Move m u m' e := by
  unfold graphWindowInputCommit at h
  cases hview : m.view with
  | graph gs =>
    simp only [hview] at h
    obtain ⟨hm', he⟩ := quiet_eq hquiet
    subst hm'
    split at h
    · cases h
      exact shows_untouched hu (Untouched.refl m) hquiet
    · -- the buffer is closed, whatever was typed
      have hclosed : some { m with view := .graph { gs with windowInput := none } } = some m' →
          Move m u m' e := by
        intro hsame
        cases hsame
        exact Move.shows rfl
          (ViewMove.charts gs _ hview rfl (Or.inl ⟨rfl, rfl, rfl, rfl, rfl⟩) he) (hu _).symm
      split at h
      · rename_i v hv
        split at h
        · simp only [regraph, Option.map_eq_some_iff] at h
          obtain ⟨gs', hgs', hm'⟩ := h
          subst hm'
          have hchart := rehydrate_charted m.agg _ gs' hgs'
          exact Move.shows rfl (ViewMove.charts gs gs' hview rfl (Or.inr hchart) he) (hu _).symm
        · exact hclosed h
      · exact hclosed h
  | _ =>
    simp only [hview] at h
    cases h
    exact shows_untouched hu (Untouched.refl m) hquiet

/-- INTERNAL: so does a split of the chart. -/
theorem graphToggleSplit_moves {m m₁ m' : ConsoleModel} {u : Update} {e : Effect}
    (hu : ∀ level, levelAfter level u = level) (h : m.graphToggleSplit = some m₁)
    (hquiet : m₁.quiet = some (m', e)) : Move m u m' e := by
  unfold graphToggleSplit at h
  cases hview : m.view with
  | graph gs =>
    simp only [hview] at h
    obtain ⟨hm', he⟩ := quiet_eq hquiet
    subst hm'
    split at h
    · cases h
      exact Move.shows rfl
        (ViewMove.charts gs _ hview rfl (Or.inl ⟨rfl, rfl, rfl, rfl, rfl⟩) he) (hu _).symm
    · split at h
      · rename_i k hk
        rw [Option.map_eq_some_iff] at h
        obtain ⟨gs', hgs', hm'⟩ := h
        subst hm'
        have hchart := rehydrate_charted m.agg (toggleSplitKey gs k) gs' hgs'
        -- the cursor moves after the rebuild
        refine Move.shows rfl (ViewMove.charts gs _ hview rfl (Or.inr ?_) he) (hu _).symm
        have hcursor : ∀ i, SameChart gs' { gs' with detailsSelected := i } :=
          fun _ => ⟨rfl, rfl, rfl, rfl, rfl⟩
        exact (hcursor _).charted hchart
      · cases h
        exact shows_untouched hu (Untouched.refl m) hquiet
  | _ =>
    simp only [hview] at h
    cases h
    exact shows_untouched hu (Untouched.refl m) hquiet

/-! ## From one view to another -/

/-- INTERNAL: the chart is opened from the table, or closed. -/
theorem toggleGraph_moves {m m₁ m' : ConsoleModel} {e : Effect} (h : m.toggleGraph = some m₁)
    (hquiet : m₁.quiet = some (m', e)) : Move m .toggleGraph m' e := by
  obtain ⟨hm', he⟩ := quiet_eq hquiet
  subst hm'
  unfold toggleGraph at h
  cases hview : m.view with
  | table =>
    simp only [hview] at h
    cases hrow : m.selectedVisibleRow with
    | some row =>
      simp only [hrow, regraph, Option.map_eq_some_iff] at h
      obtain ⟨gs, hgs, hm'⟩ := h
      subst hm'
      have hchart := rehydrate_charted m.agg _ gs hgs
      exact Move.shows rfl (ViewMove.opens gs (by rw [hview]; rfl) rfl hchart he) rfl
    | none =>
      simp only [hrow, regraph] at h
      cases h
      exact Move.shows rfl (ViewMove.closes (by rw [hview]; rfl) rfl he) rfl
  | graph gs =>
    simp only [hview, regraph] at h
    cases h
    exact Move.shows rfl (ViewMove.closes (by rw [hview]; rfl) rfl he) rfl
  | explore es =>
    simp only [hview, regraph] at h
    cases h
    exact Move.shows rfl (ViewMove.abandons es (by rw [hview]; rfl) (Or.inl rfl) rfl he) rfl
  | traceDetail td =>
    simp only [hview, regraph] at h
    cases h
    exact Move.shows rfl
      (ViewMove.abandons td.explore (by rw [hview]; rfl) (Or.inl rfl) rfl he) rfl

/-- INTERNAL: the list opens, and asks for more spans. -/
theorem enterExplore_moves {m m' : ConsoleModel} {e : Effect}
    (h : some m.enterExplore = some (m', e)) : Move m .enterExplore m' e := by
  unfold enterExplore explore at h
  cases hview : m.view with
  | table =>
    simp only [hview] at h
    cases hrow : m.selectedVisibleRow with
    | some row =>
      simp only [hrow] at h
      cases h
      have hbegins : BeginsVisit m .enterExplore := by simp [BeginsVisit, hview, hrow]
      exact Move.shows rfl (ViewMove.starts row.key.stack hbegins rfl rfl) rfl
    | none =>
      simp only [hrow] at h
      exact shows_untouched (fun _ => rfl) (Untouched.refl m) h
  | graph gs =>
    simp only [hview] at h
    cases h
    have hbegins : BeginsVisit m .enterExplore := by simp [BeginsVisit, hview]
    exact Move.shows rfl (ViewMove.starts gs.lockedStack hbegins rfl rfl) rfl
  | explore es =>
    simp only [hview] at h
    exact shows_untouched (fun _ => rfl) (Untouched.refl m) h
  | traceDetail td =>
    simp only [hview] at h
    cases h
    exact Move.shows rfl (ViewMove.ascends td hview rfl rfl) rfl

/-- INTERNAL: the list closes, and asks for the level it found. -/
theorem exitExplore_moves {m m' : ConsoleModel} {e : Effect}
    (h : some m.exitExplore = some (m', e)) : Move m .exitExplore m' e := by
  unfold exitExplore restoreRequest at h
  cases hview : m.view with
  | explore es =>
    simp only [hview] at h
    cases h
    exact Move.shows rfl (ViewMove.ends es (by rw [hview]; rfl) (Or.inl rfl) rfl) rfl
  | traceDetail td =>
    simp only [hview] at h
    cases h
    exact Move.shows rfl (ViewMove.ends td.explore (by rw [hview]; rfl) (Or.inl rfl) rfl) rfl
  | _ =>
    simp only [hview] at h
    exact shows_untouched (fun _ => rfl) (Untouched.refl m) h

/-- INTERNAL: the table from any view; a list left asks for the level it found. -/
theorem enterTable_moves {m m' : ConsoleModel} {e : Effect}
    (h : some m.enterTable = some (m', e)) : Move m .enterTable m' e := by
  unfold enterTable restoreRequest at h
  cases hview : m.view with
  | explore es =>
    simp only [hview] at h
    cases h
    exact Move.shows rfl (ViewMove.ends es (by rw [hview]; rfl) (Or.inl rfl) rfl) rfl
  | traceDetail td =>
    simp only [hview] at h
    cases h
    exact Move.shows rfl (ViewMove.ends td.explore (by rw [hview]; rfl) (Or.inl rfl) rfl) rfl
  | _ =>
    simp only [hview] at h
    cases h
    exact Move.shows rfl (ViewMove.closes (by rw [hview]; rfl) rfl rfl) rfl

/-- INTERNAL: the chart that is opened is of the stack asked for. -/
theorem graph_moves {m m' : ConsoleModel} {e effect : Effect} (locked : List String)
    (h : m.graph locked effect = some (m', e)) :
    ∃ gs, m' = { m with view := .graph gs } ∧ Charted m.agg gs ∧ e = effect := by
  unfold ConsoleModel.graph at h
  rw [Option.map_eq_some_iff] at h
  obtain ⟨gs, hgs, hm'⟩ := h
  cases hm'
  exact ⟨gs, rfl, rehydrate_charted m.agg _ gs hgs, rfl⟩

/-- INTERNAL: the chart from any view; a list left asks for the level it found. -/
theorem enterGraph_moves {m m' : ConsoleModel} {e : Effect} (h : m.enterGraph = some (m', e)) :
    Move m .enterGraph m' e := by
  unfold enterGraph restoreRequest at h
  cases hview : m.view with
  | table =>
    simp only [hview] at h
    cases hrow : m.selectedVisibleRow with
    | some row =>
      simp only [hrow] at h
      obtain ⟨gs, hm', hchart, he⟩ := graph_moves row.key.stack h
      subst hm'
      exact Move.shows rfl (ViewMove.opens gs (by rw [hview]; rfl) rfl hchart he) rfl
    | none =>
      simp only [hrow] at h
      exact shows_untouched (fun _ => rfl) (Untouched.refl m) h
  | graph gs =>
    simp only [hview] at h
    exact shows_untouched (fun _ => rfl) (Untouched.refl m) h
  | explore es =>
    simp only [hview] at h
    obtain ⟨gs, hm', hchart, he⟩ := graph_moves es.lockedStack h
    subst hm'
    exact Move.shows rfl
      (ViewMove.ends es (by rw [hview]; rfl) (Or.inr ⟨gs, rfl, hchart⟩) he) rfl
  | traceDetail td =>
    simp only [hview] at h
    obtain ⟨gs, hm', hchart, he⟩ := graph_moves td.explore.lockedStack h
    subst hm'
    exact Move.shows rfl
      (ViewMove.ends td.explore (by rw [hview]; rfl) (Or.inr ⟨gs, rfl, hchart⟩) he) rfl

/-- INTERNAL: a trace is opened over the list, or nothing changes. -/
theorem exploreOpenTrace_moves {m m' : ConsoleModel} {e : Effect}
    (hquiet : m.exploreOpenTrace.quiet = some (m', e)) : Move m .exploreOpenTrace m' e := by
  unfold exploreOpenTrace at hquiet
  cases hview : m.view with
  | explore es =>
    simp only [hview] at hquiet
    split at hquiet
    · exact shows_untouched (fun _ => rfl) (Untouched.refl m) hquiet
    · split at hquiet
      · exact shows_untouched (fun _ => rfl) (Untouched.refl m) hquiet
      · obtain ⟨hm', he⟩ := quiet_eq hquiet
        subst hm'
        exact Move.shows rfl (ViewMove.descends _ hview rfl he) rfl
  | _ =>
    simp only [hview] at hquiet
    exact shows_untouched (fun _ => rfl) (Untouched.refl m) hquiet

/-- INTERNAL: the list comes back as it was. -/
theorem exitTraceDetail_moves {m m' : ConsoleModel} {e : Effect}
    (hquiet : m.exitTraceDetail.quiet = some (m', e)) : Move m .exitTraceDetail m' e := by
  obtain ⟨hm', he⟩ := quiet_eq hquiet
  subst hm'
  unfold exitTraceDetail
  cases hview : m.view with
  | traceDetail td => exact Move.shows rfl (ViewMove.ascends td hview rfl he) rfl
  | explore es =>
    refine Move.shows rfl (ViewMove.abandons es (by rw [hview]; rfl) ?_ rfl he) rfl
    exact Or.inr ⟨rfl, es, hview⟩
  | _ => exact Move.shows rfl (ViewMove.closes (by rw [hview]; rfl) rfl he) rfl

/-! ## Spans and splits -/

/-- INTERNAL: a span that arrives leaves the view what it is. -/
theorem spanReceived_moves {m m₁ m' : ConsoleModel} {e : Effect} (now : ℕ) (span : WireSpan)
    (h : m.spanReceived now span = some m₁) (hquiet : m₁.quiet = some (m', e)) :
    Move m (.spanReceived span) m' e := by
  obtain ⟨hm', he⟩ := quiet_eq hquiet
  subst hm'
  unfold spanReceived at h
  rw [Option.bind_eq_some_iff] at h
  obtain ⟨r, habsorb, h⟩ := h
  cases hview : m.view with
  | graph gs =>
    simp only [hview, Option.map_eq_some_iff] at h
    obtain ⟨gs', hgs', hm'⟩ := h
    subst hm'
    exact Move.absorbs span r rfl habsorb rfl (Or.inr ⟨gs, gs', hview, rfl, hgs'⟩) rfl he
  | _ =>
    simp only [hview] at h
    cases h
    refine Move.absorbs span r rfl habsorb rfl (Or.inl ⟨?_, ?_⟩) rfl he
    · exact hview.symm
    · intro gs hgraph
      rw [hview] at hgraph
      cases hgraph

/-- INTERNAL: so does a split. -/
theorem toggleSplitSelected_moves {m m₁ m' : ConsoleModel} {e : Effect}
    (h : m.toggleSplitSelected = some m₁) (hquiet : m₁.quiet = some (m', e)) :
    Move m .toggleSplitSelected m' e := by
  unfold toggleSplitSelected at h
  split at h
  · cases h
    exact shows_untouched (fun _ => rfl) (Untouched.refl m) hquiet
  · split at h
    · cases h
      exact shows_untouched (fun _ => rfl) (Untouched.refl m) hquiet
    · rename_i k hk
      rw [Option.map_eq_some_iff] at h
      obtain ⟨agg, hagg, hm₁⟩ := h
      subst hm₁
      obtain ⟨hm', he⟩ := quiet_eq hquiet
      subst hm'
      exact Move.splits _ rfl hagg rfl rfl he

/-! ## Quitting and switching versions -/

/-- INTERNAL: an arm whose request is not for a level. -/
theorem shows_request {m m₁ m' : ConsoleModel} {u : Update} {e e₁ : Effect}
    (hu : ∀ level, levelAfter level u = level) (huntouched : Untouched m m₁)
    (he₁ : ∀ filter, e₁ ≠ .requestSetLevel filter) (h : some (m₁, e₁) = some (m', e)) :
    Move m u m' e := by
  obtain ⟨hm', he⟩ := Prod.mk.inj (Option.some.inj h)
  subst hm' he
  have hnone : ∀ filter, e₁ = .requestSetLevel filter → u = .requestCacheLevel filter :=
    fun filter hfilter => absurd hfilter (he₁ filter)
  exact Move.shows huntouched.agg (ViewMove.same huntouched.view hnone)
    (by rw [hu, huntouched.cacheLevel])

/-- INTERNAL: a chance asked for is no move between views. -/
theorem chanceInputCommit_moves {m m' : ConsoleModel} {e : Effect}
    (h : some m.chanceInputCommit = some (m', e)) : Move m .chanceInputCommit m' e := by
  unfold chanceInputCommit at h
  split at h
  · exact shows_untouched (fun _ => rfl) (Untouched.refl m) h
  · refine shows_request (fun _ => rfl) ?_ ?_ h
    · exact ⟨rfl, rfl, rfl⟩
    · intro filter hfilter
      split at hfilter
      · split at hfilter <;> cases hfilter
      · cases hfilter

/-- INTERNAL: nor is quitting. -/
theorem requestQuit_moves {m m' : ConsoleModel} {e : Effect} (now : ℕ)
    (h : some (m.requestQuit now) = some (m', e)) : Move m .quit m' e := by
  unfold requestQuit at h
  dsimp only at h
  have hrearm : some ({ m with quitConfirmDeadline := some (now + 2000000000) }, Effect.none) =
      some (m', e) → Move m .quit m' e := by
    intro h
    have harmed : Untouched m { m with quitConfirmDeadline := some (now + 2000000000) } :=
      ⟨rfl, rfl, rfl⟩
    exact shows_untouched (fun _ => rfl) harmed h
  split at h
  · split at h
    · refine shows_request (fun _ => rfl) ?_ ?_ h
      · exact ⟨rfl, rfl, rfl⟩
      · exact fun filter hfilter => by cases hfilter
    · exact hrearm h
  · exact hrearm h

/-- INTERNAL: nor is a yes to the version modal. -/
theorem confirmVersionSwitchYes_moves {m m' : ConsoleModel} {e : Effect}
    (h : some m.confirmVersionSwitchYes = some (m', e)) :
    Move m .confirmVersionSwitchYes m' e := by
  unfold confirmVersionSwitchYes at h
  split at h
  · exact shows_untouched (fun _ => rfl) (Untouched.refl m) h
  · split at h
    · refine shows_request (fun _ => rfl) ?_ ?_ h
      · exact ⟨rfl, rfl, rfl⟩
      · exact fun filter hfilter => by cases hfilter
    · refine shows_request (fun _ => rfl) (Untouched.refl m) ?_ h
      exact fun filter hfilter => by cases hfilter
    · exact shows_untouched (fun _ => rfl) (Untouched.refl m) h
    · exact shows_untouched (fun _ => rfl) (Untouched.refl m) h

/-! ## Every update -/

/-- INTERNAL: a visit begins outside the list. -/
theorem BeginsVisit.none {m : ConsoleModel} {u : Update} (h : BeginsVisit m u) :
    exploreState m.view = none := by
  obtain ⟨-, hfrom⟩ := h
  cases hview : m.view with
  | table => rfl
  | graph gs => rfl
  | explore es => simp [hview] at hfrom
  | traceDetail td => simp [hview] at hfrom

/-- INTERNAL: **what each of the updates does.** -/
theorem apply_moves (now : ℕ) (m m' : ConsoleModel) (u : Update) (e : Effect)
    (h : m.apply now u = some (m', e)) : Move m u m' e := by
  have hsame : ∀ {u : Update} {m₁ : ConsoleModel}, (∀ level, levelAfter level u = level) →
      Untouched m m₁ → m₁.quiet = some (m', e) → Move m u m' e := shows_untouched
  cases u with
  | spanReceived span =>
    obtain ⟨m₁, hm₁, hquiet⟩ := Option.bind_eq_some_iff.mp h
    exact spanReceived_moves now span hm₁ hquiet
  | selectUp => exact hsame (fun _ => rfl) (selectUp_untouched m) h
  | selectDown => exact hsame (fun _ => rfl) (selectDown_untouched m) h
  | expandSelected => exact hsame (fun _ => rfl) (expandSelected_untouched m) h
  | expandAllSelected => exact hsame (fun _ => rfl) (expandAllSelected_untouched m) h
  | collapseSelected => exact hsame (fun _ => rfl) (collapseSelected_untouched m) h
  | switchFocus => exact hsame (fun _ => rfl) (switchFocus_untouched m) h
  | toggleSplitSelected =>
    obtain ⟨m₁, hm₁, hquiet⟩ := Option.bind_eq_some_iff.mp h
    exact toggleSplitSelected_moves hm₁ hquiet
  | cacheLevelReceived filter =>
    obtain ⟨hm', he⟩ := quiet_eq h
    subst hm' he
    exact Move.shows rfl (ViewMove.same rfl (fun _ => nofun)) rfl
  | requestCacheLevel filter =>
    cases h
    refine Move.shows rfl (ViewMove.same rfl fun filter' hfilter => ?_) rfl
    cases hfilter
    rfl
  | chanceInputCommit => exact chanceInputCommit_moves h
  | toggleGraph =>
    obtain ⟨m₁, hm₁, hquiet⟩ := Option.bind_eq_some_iff.mp h
    exact toggleGraph_moves hm₁ hquiet
  | toggleGraphMetric =>
    obtain ⟨m₁, hm₁, hquiet⟩ := Option.bind_eq_some_iff.mp h
    exact shows_regraph _ (fun _ => rfl) hm₁ hquiet
  | graphAggInputCommit => exact shows_graph _ (fun _ => rfl) aggInputCommit_chart h
  | graphWindowInputCommit =>
    obtain ⟨m₁, hm₁, hquiet⟩ := Option.bind_eq_some_iff.mp h
    exact graphWindowInputCommit_moves (fun _ => rfl) hm₁ hquiet
  | graphLookbackInputCommit => exact shows_graph _ (fun _ => rfl) lookbackInputCommit_chart h
  | graphSwitchFocus => exact shows_graph _ (fun _ => rfl) graphSwitchFocus_chart h
  | graphSelectDown => exact shows_graph _ (fun _ => rfl) (graphSelectDown_chart m.agg) h
  | setGraphAgg | beginGraphAggInput | graphAggInputChar | graphAggInputBackspace
  | graphAggInputCancel | beginGraphWindowInput | graphWindowInputChar | graphWindowInputBackspace
  | graphWindowInputCancel | beginGraphLookbackInput | graphLookbackInputChar
  | graphLookbackInputBackspace | graphLookbackInputCancel | toggleGraphTimeLabels
  | graphSelectUp | graphSortColumnLeft | graphSortColumnRight =>
    refine shows_graph _ (fun _ => rfl) ?_ h
    exact fun gs => ⟨rfl, rfl, rfl, rfl, rfl⟩
  | graphToggleSplit =>
    obtain ⟨m₁, hm₁, hquiet⟩ := Option.bind_eq_some_iff.mp h
    exact graphToggleSplit_moves (fun _ => rfl) hm₁ hquiet
  | enterExplore => exact enterExplore_moves h
  | exitExplore => exact exitExplore_moves h
  | exploreSelectDown =>
    exact shows_explore _ (fun _ => rfl) (exploreSelectDown_level m.agg)
      (exploreSelectDown_stack m.agg) h
  | exploreSearchCommit =>
    exact shows_explore _ (fun _ => rfl) exploreSearchCommit_level exploreSearchCommit_stack h
  | exploreSelectUp | exploreSortLeft | exploreSortRight | exploreInvertSort
  | beginExploreSearch | exploreSearchChar | exploreSearchBackspace | exploreSearchCancel =>
    refine shows_explore _ (fun _ => rfl) ?_ ?_ h
    · exact fun _ => rfl
    · exact fun _ => rfl
  | exploreOpenTrace => exact exploreOpenTrace_moves h
  | exitTraceDetail => exact exitTraceDetail_moves h
  | traceDetailSelectUp =>
    refine shows_traceDetail _ (fun _ => rfl) ?_ h
    exact fun _ => rfl
  | traceDetailSelectDown =>
    obtain ⟨m₁, hm₁, hquiet⟩ := Option.bind_eq_some_iff.mp h
    exact traceDetailSelectDown_moves (fun _ => rfl) hm₁ hquiet
  | traceDetailExpand | traceDetailCollapse =>
    obtain ⟨m₁, hm₁, hquiet⟩ := Option.bind_eq_some_iff.mp h
    exact changeCollapsed_moves _ (fun _ => rfl) hm₁ hquiet
  | enterTable => exact enterTable_moves h
  | enterGraph => exact enterGraph_moves h
  | quit => exact requestQuit_moves now h
  | beginConfirmVersionSwitch =>
    exact hsame (fun _ => rfl) (beginConfirmVersionSwitch_untouched m) h
  | confirmVersionSwitchYes => exact confirmVersionSwitchYes_moves h
  | confirmVersionSwitchNo => exact hsame (fun _ => rfl) (confirmVersionSwitchNo_untouched m) h
  | connected | disconnected | status | serverInfoReceived | cacheChanceReceived
  | beginChanceInput | chanceInputChar | chanceInputBackspace | chanceInputCancel
  | quitConfirmDismiss | installerSucceeded | installerFailed =>
    refine hsame (fun _ => rfl) ?_ h
    exact ⟨rfl, rfl, rfl⟩

end TracingConsole.Analysis.Console
