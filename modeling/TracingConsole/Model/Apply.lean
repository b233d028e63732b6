import TracingConsole.Model.Console

/-!
# The reducer

`Model::apply` (core.rs:333-1203), one definition for every arm that does more than set a
field.
-/

set_option autoImplicit false

namespace TracingConsole.Model.ConsoleModel

open TracingConsole.Model

/-- INTERNAL: change the state of the graph, if that is the view. -/
def mapGraph (m : ConsoleModel) (f : GraphState → GraphState) : ConsoleModel :=
  match m.view with
  | .graph gs => { m with view := .graph (f gs) }
  | _ => m

/-- INTERNAL: change the state of the explore list, if that is the view. -/
def mapExplore (m : ConsoleModel) (f : ExploreState → ExploreState) : ConsoleModel :=
  match m.view with
  | .explore es => { m with view := .explore (f es) }
  | _ => m

/-- INTERNAL: change the state of the trace, if that is the view. -/
def mapTraceDetail (m : ConsoleModel) (f : TraceDetailState → TraceDetailState) : ConsoleModel :=
  match m.view with
  | .traceDetail td => { m with view := .traceDetail (f td) }
  | _ => m

/-- INTERNAL: change the state of the graph and record the ring anew.
SRCLINE: core.rs:567-573, 637-651 -/
def regraph (m : ConsoleModel) (f : GraphState → GraphState) : Option ConsoleModel :=
  match m.view with
  | .graph gs => ((f gs).rehydrate m.agg).map fun gs => { m with view := .graph gs }
  | _ => some m

/-! ## Spans -/

/-- INTERNAL: record a span just absorbed, if its stack is the locked one.
SRCLINE: core.rs:348-359 -/
def recordInserted (agg : Aggregator) (gs : GraphState) (id : ℕ) : Option GraphState :=
  if agg.resolvedStack id = some gs.lockedStack then GraphState.recordId agg gs id else some gs

/-- INTERNAL: SRCLINE: core.rs:335-363 -/
def spanReceived (now : ℕ) (m : ConsoleModel) (span : WireSpan) : Option ConsoleModel :=
  (m.agg.absorb span).bind fun r =>
    let m := { m with rate := m.rate.record now, agg := r.1 }
    match m.view with
    | .graph gs => (r.2.foldlM (recordInserted r.1) gs).map fun gs => { m with view := .graph gs }
    | _ => some m

/-! ## The table -/

/-- INTERNAL: SRCLINE: core.rs:364-372 -/
def selectUp (m : ConsoleModel) : ConsoleModel :=
  if m.currentPaneLen = 0 then m else m.setCurrentSelected (m.currentSelected - 1)

/-- INTERNAL: SRCLINE: core.rs:373-382 -/
def selectDown (m : ConsoleModel) : ConsoleModel :=
  let n := m.currentPaneLen
  if n = 0 then m else m.setCurrentSelected (min (m.currentSelected + 1) (n - 1))

/-- INTERNAL: SRCLINE: core.rs:383-393 -/
def expandSelected (m : ConsoleModel) : ConsoleModel :=
  if m.focus = .stacks then
    match m.visibleRows[m.selected]? with
    | some r =>
      if r.hasChildren then { m with expanded := insert r.key.stack m.expanded } else m
    | none => m
  else m

/-- INTERNAL: every proper prefix, from the root's stack on, of a stack below it.
SRCLINE: core.rs:408-414 -/
def prefixesBelow (rootStack stack : List String) : List (List String) :=
  if rootStack.isPrefixOf stack && rootStack.length < stack.length then
    (List.range' rootStack.length (stack.length - rootStack.length)).map fun len => stack.take len
  else []

/-- INTERNAL: SRCLINE: core.rs:394-418 -/
def expandAllSelected (m : ConsoleModel) : ConsoleModel :=
  if m.focus ≠ .stacks then m
  else
    match m.visibleRows[m.selected]? with
    | some r =>
      { m with
        expanded := m.expanded ∪
          (m.agg.rows.flatMap fun row => prefixesBelow r.key.stack row.1.stack).toFinset }
    | none => m

/-- INTERNAL: forget every stack from `stack` on.
SRCLINE: core.rs:427, 432 -/
def collapseBelow (m : ConsoleModel) (stack : List String) : ConsoleModel :=
  { m with expanded := m.expanded.filter fun s => !stack.isPrefixOf s }

/-- INTERNAL: SRCLINE: core.rs:419-443 -/
def collapseSelected (m : ConsoleModel) : ConsoleModel :=
  if m.focus ≠ .stacks then m
  else
    match m.visibleRows[m.selected]? with
    | none => m
    | some r =>
      if r.isExpanded then m.collapseBelow r.key.stack
      else if 0 < r.depth then
        let parentStack := r.key.stack.dropLast
        let m := m.collapseBelow parentStack
        match m.visibleRows.findIdx? fun row => row.key.stack = parentStack with
        | some idx => { m with selected := idx }
        | none => m
      else m

/-- INTERNAL: SRCLINE: core.rs:444-453 -/
def switchFocus (m : ConsoleModel) : ConsoleModel :=
  match m.focus with
  | .stacks => { m with focus := .details, detailsSelected := 0 }
  | .details => { m with focus := .stacks }

/-- INTERNAL: put `k` into the set, or take it out. -/
def toggleKey {α : Type} [DecidableEq α] (keys : Finset α) (k : α) : Finset α :=
  if k ∈ keys then keys.erase k else insert k keys

/-- INTERNAL: SRCLINE: core.rs:454-471 -/
def toggleSplitSelected (m : ConsoleModel) : Option ConsoleModel :=
  if m.focus ≠ .details then some m
  else
    match m.candidateSplitKeys[m.detailsSelected]? with
    | none => some m
    | some k =>
      (m.agg.setSplitKeys (toggleKey m.agg.splitKeys k)).map fun agg =>
        { m with agg := agg, expanded := ∅, selected := 0 }

/-- INTERNAL: a number between 0 and 100, or nothing.
SRCLINE: core.rs:514-527 -/
def chanceInputCommit (m : ConsoleModel) : ConsoleModel × Effect :=
  match m.chanceInput with
  | none => (m, .none)
  | some buf =>
    ({ m with chanceInput := none },
      match parseDouble buf with
      | some v => if 0 ≤ v ∧ v ≤ 100 then .requestSetChance v else .none
      | none => .none)

/-! ## The graph -/

/-- INTERNAL: SRCLINE: core.rs:529-545 -/
def toggleGraph (m : ConsoleModel) : Option ConsoleModel :=
  let view := match m.view with
    | .table =>
      match m.selectedVisibleRow with
      | some row => ViewMode.graph (GraphState.new row.key.stack)
      | none => .table
    -- from any other view, back to the stack table
    | _ => .table
  { m with view := view }.regraph id

/-- INTERNAL: letters, digits and one point; upper case is lowered.
SRCLINE: core.rs:574-594 -/
def aggInputChar (buf : String) (c : Char) : String :=
  let c := c.toLower
  if c.isLower || c.isDigit || c = '.' then
    if c = '.' && buf.contains '.' then buf else buf.push c
  else buf

/-- INTERNAL: SRCLINE: core.rs:607-620 -/
def aggInputCommit (gs : GraphState) : GraphState :=
  match gs.aggInput with
  | none => gs
  | some buf =>
    match parseAggInput buf with
    | some mode => { gs with aggInput := none, aggregation := mode }
    | none => { gs with aggInput := none }

/-- INTERNAL: the buffer is taken before it is read.  The window is kept as it was typed; the
source keeps the nearest double.
SRCLINE: core.rs:637-651 -/
def graphWindowInputCommit (m : ConsoleModel) : Option ConsoleModel :=
  match m.view with
  | .graph gs =>
    match gs.windowInput with
    | none => some m
    | some buf =>
      let m := { m with view := .graph { gs with windowInput := none } }
      match parseFinite buf with
      | some v => if 0 < v then m.regraph fun gs => { gs with windowSecs := v } else some m
      | none => some m
  | _ => some m

/-- INTERNAL: a digit, one point, or a last `s` or `m` after a number.
SRCLINE: core.rs:658-677 -/
def lookbackInputChar (buf : String) (c : Char) : String :=
  let hasSuffix := buf.toList.getLast? = some 's' ∨ buf.toList.getLast? = some 'm'
  if hasSuffix then buf
  else
    match pushDigitOrDecimal buf c with
    | some buf => buf
    | none => if (c = 's' ∨ c = 'm') ∧ buf.toList ≠ [] then buf.push c else buf

/-- INTERNAL: SRCLINE: core.rs:690-704 -/
def lookbackInputCommit (gs : GraphState) : GraphState :=
  match gs.lookbackInput with
  | none => gs
  | some buf =>
    match parseLookbackInput buf with
    | some secs => { gs with lookbackInput := none, lookbackSecs := secs }
    | none => { gs with lookbackInput := none }

/-- INTERNAL: back in the chart the cursor can only be on a series.
SRCLINE: core.rs:711-727 -/
def graphSwitchFocus (gs : GraphState) : GraphState :=
  match gs.focus with
  | .chart => { gs with focus := .details }
  | .details =>
    { gs with
      focus := .chart
      detailsSelected := min gs.detailsSelected (gs.seriesKeys.length - 1) }

/-- INTERNAL: the split keys the cursor can be on.
SRCLINE: core.rs:747-750, 775-778 -/
def graphCandidates (agg : Aggregator) (gs : GraphState) : List String :=
  match gs.focus with
  | .chart => []
  | .details => agg.candidateSplitKeysFor gs.lockedStack

/-- INTERNAL: SRCLINE: core.rs:734-759 -/
def graphSelectDown (agg : Aggregator) (gs : GraphState) : GraphState :=
  let total := gs.seriesKeys.length + (graphCandidates agg gs).length
  if total = 0 then gs
  else { gs with detailsSelected := min (gs.detailsSelected + 1) (total - 1) }

/-- INTERNAL: toggle a split key; the sort column falls back if it was on that split.
SRCLINE: core.rs:807-826 -/
def toggleSplitKey (gs : GraphState) (k : String) : GraphState :=
  let splitKeys := toggleKey gs.splitKeys k
  { gs with
    splitKeys := splitKeys
    hiddenSeries := ∅
    sortColumn := match gs.sortColumn with
      | .splitKey sk => if sk ∈ splitKeys then .splitKey sk else .count
      | column => column }

/-- INTERNAL: hide or show the series under the cursor, or toggle the split key there, which
records the ring anew and keeps the cursor on the key.
SRCLINE: core.rs:760-845 -/
def graphToggleSplit (m : ConsoleModel) : Option ConsoleModel :=
  match m.view with
  | .graph gs =>
    let candidates := graphCandidates m.agg gs
    let series := gs.seriesKeys
    match series[gs.detailsSelected]? with
    | some key =>
      some { m with view := .graph { gs with hiddenSeries := toggleKey gs.hiddenSeries key } }
    | none =>
      match candidates[gs.detailsSelected - series.length]? with
      | some k =>
        ((toggleSplitKey gs k).rehydrate m.agg).map fun gs =>
          { m with
            view := .graph
              { gs with
                detailsSelected := match candidates.findIdx? fun c => c = k with
                  | some pos => gs.seriesKeys.length + pos
                  | none => gs.detailsSelected } }
      | none => some m
  | _ => some m

/-- INTERNAL: SRCLINE: core.rs:846-856 -/
def graphSortColumnLeft (gs : GraphState) : GraphState :=
  let cols := gs.seriesTableColumns
  let next := match cols.findIdx? fun c => c = gs.sortColumn with
    | some i => if 0 < i then cols[i - 1]? else cols.getLast?
    | none => cols.getLast?
  { gs with sortColumn := next.getD .count }

/-- INTERNAL: SRCLINE: core.rs:857-867 -/
def graphSortColumnRight (gs : GraphState) : GraphState :=
  let cols := gs.seriesTableColumns
  let next := match cols.findIdx? fun c => c = gs.sortColumn with
    | some i => if i + 1 < cols.length then cols[i + 1]? else cols.head?
    | none => cols.head?
  { gs with sortColumn := next.getD .count }

/-! ## The explore list and the trace -/

/-- INTERNAL: the explore state a new visit starts with, and the level it asks for.
SRCLINE: core.rs:894-899 -/
def explore (m : ConsoleModel) (lockedStack : List String) : ConsoleModel × Effect :=
  ({ m with view := .explore (ExploreState.new lockedStack m.cacheLevel) },
    .requestSetLevel .off)

/-- INTERNAL: SRCLINE: core.rs:869-900 -/
def enterExplore (m : ConsoleModel) : ConsoleModel × Effect :=
  match m.view with
  | .table =>
    match m.selectedVisibleRow with
    | none => (m, .none)
    | some row => m.explore row.key.stack
  | .graph gs => m.explore gs.lockedStack
  | .traceDetail td => ({ m with view := .explore td.explore }, .none)
  | .explore _ => (m, .none)

/-- INTERNAL: the request that a visit ends with.
SRCLINE: core.rs:911, 1074, 1078, 1099, 1103 -/
def restoreRequest (es : ExploreState) : Effect := .requestSetLevel (es.restoreLevel.getD .trace)

/-- INTERNAL: SRCLINE: core.rs:901-915 -/
def exitExplore (m : ConsoleModel) : ConsoleModel × Effect :=
  match m.view with
  | .explore es => ({ m with view := .table }, restoreRequest es)
  | .traceDetail td => ({ m with view := .table }, restoreRequest td.explore)
  | _ => (m, .none)

/-- INTERNAL: SRCLINE: core.rs:922-935 -/
def exploreSelectDown (agg : Aggregator) (es : ExploreState) : ExploreState :=
  let rowCount := (matchingSpans agg es).length
  if 0 < rowCount ∧ es.selected + 1 < rowCount then { es with selected := es.selected + 1 }
  else es

/-- INTERNAL: SRCLINE: core.rs:936-952 -/
def exploreSort (agg : Aggregator) (delta : ℤ) (es : ExploreState) : ExploreState :=
  cycleSort es (distinguishingFields (matchingSpans agg es)) delta

/-- INTERNAL: `char::is_control`. -/
def isControl (c : Char) : Bool := c.toNat < 0x20 ∨ (0x7F ≤ c.toNat ∧ c.toNat ≤ 0x9F)

/-- INTERNAL: SRCLINE: core.rs:966-974 -/
def exploreSearchChar (es : ExploreState) (c : Char) : ExploreState :=
  { es with searchInput := es.searchInput.map fun buf => if isControl c then buf else buf.push c }

/-- INTERNAL: SRCLINE: core.rs:988-996 -/
def exploreSearchCommit (es : ExploreState) : ExploreState :=
  match es.searchInput with
  | none => es
  | some buf => { es with searchInput := none, query := buf, selected := 0 }

/-- INTERNAL: SRCLINE: core.rs:998-1020 -/
def exploreOpenTrace (m : ConsoleModel) : ConsoleModel :=
  match m.view with
  | .explore es =>
    let spans := matchingSpans m.agg es
    match spans[min es.selected (spans.length - 1)]? with
    | none => m
    | some span =>
      match findRootId m.agg span.id with
      | none => m
      | some rootId =>
        { m with
          view := .traceDetail
            { rootId := rootId, selectedIdx := 0, collapsed := ∅, explore := es } }
  | _ => m

/-- INTERNAL: the view is replaced by the table before it is looked at.
SRCLINE: core.rs:1021-1028 -/
def exitTraceDetail (m : ConsoleModel) : ConsoleModel :=
  match m.view with
  | .traceDetail td => { m with view := .explore td.explore }
  | _ => { m with view := .table }

/-- INTERNAL: SRCLINE: core.rs:1035-1056 -/
def traceDetailSelectDown (m : ConsoleModel) : Option ConsoleModel :=
  match m.view with
  | .traceDetail td =>
    (visibleTraceRows m.agg td.rootId td.collapsed).map fun rows =>
      if 0 < rows.length ∧ td.selectedIdx + 1 < rows.length then
        { m with view := .traceDetail { td with selectedIdx := td.selectedIdx + 1 } }
      else m
  | _ => some m

/-- INTERNAL: the span under the cursor of a trace, unless an event is.
SRCLINE: core.rs:45-64 -/
def traceSelectedSpanId (agg : Aggregator) (td : TraceDetailState) : Option (Option ℕ) :=
  (visibleTraceRows agg td.rootId td.collapsed).map fun rows =>
    match (rows[min td.selectedIdx (rows.length - 1)]? : Option TraceRow) with
    | some (TraceRow.span spanId _ _ _) => some spanId
    | _ => none

/-- INTERNAL: SRCLINE: core.rs:1057-1068 -/
def changeCollapsed (m : ConsoleModel) (change : Finset ℕ → ℕ → Finset ℕ) :
    Option ConsoleModel :=
  match m.view with
  | .traceDetail td =>
    (traceSelectedSpanId m.agg td).map fun selected =>
      match selected with
      | some id => { m with view := .traceDetail { td with collapsed := change td.collapsed id } }
      | none => m
  | _ => some m

/-- INTERNAL: SRCLINE: core.rs:1069-1082 -/
def enterTable (m : ConsoleModel) : ConsoleModel × Effect :=
  ({ m with view := .table },
    match m.view with
    | .explore es => restoreRequest es
    | .traceDetail td => restoreRequest td.explore
    | _ => .none)

/-- INTERNAL: open the graph of a stack.
SRCLINE: core.rs:1106-1112 -/
def graph (m : ConsoleModel) (locked : List String) (effect : Effect) :
    Option (ConsoleModel × Effect) :=
  ((GraphState.new locked).rehydrate m.agg).map fun gs => ({ m with view := .graph gs }, effect)

/-- INTERNAL: SRCLINE: core.rs:1083-1113 -/
def enterGraph (m : ConsoleModel) : Option (ConsoleModel × Effect) :=
  match m.view with
  | .table =>
    match m.selectedVisibleRow with
    | some row => m.graph row.key.stack .none
    | none => some (m, .none)
  | .graph _ => some (m, .none)
  | .explore es => m.graph es.lockedStack (restoreRequest es)
  | .traceDetail td => m.graph td.explore.lockedStack (restoreRequest td.explore)

/-! ## Quitting and switching versions -/

/-- INTERNAL: a second `q` within two seconds quits.
SRCLINE: core.rs:1114-1131 -/
def requestQuit (now : ℕ) (m : ConsoleModel) : ConsoleModel × Effect :=
  let rearm := ({ m with quitConfirmDeadline := some (now + 2000000000) }, Effect.none)
  match m.quitConfirmDeadline with
  | some deadline =>
    if now < deadline then ({ m with quitConfirmDeadline := none }, .quit) else rearm
  | none => rearm

/-- INTERNAL: SRCLINE: core.rs:1136-1153 -/
def beginConfirmVersionSwitch (m : ConsoleModel) : ConsoleModel :=
  match m.confirmVersionSwitch, m.serverVersion with
  | none, some serverVersion =>
    if serverVersion ≠ clientVersion then
      { m with
        confirmVersionSwitch :=
          some { serverVersion := serverVersion, status := .confirming } }
    else m
  | _, _ => m

/-- INTERNAL: SRCLINE: core.rs:1154-1174 -/
def confirmVersionSwitchYes (m : ConsoleModel) : ConsoleModel × Effect :=
  match m.confirmVersionSwitch with
  | none => (m, .none)
  | some c =>
    match c.status with
    | .confirming =>
      ({ m with confirmVersionSwitch := some { c with status := .running } },
        .runUpdateInstaller (some c.serverVersion))
    | .restart => (m, .restart)
    | .running | .failed _ => (m, .none)

/-- INTERNAL: SRCLINE: core.rs:1175-1185 -/
def confirmVersionSwitchNo (m : ConsoleModel) : ConsoleModel :=
  match m.confirmVersionSwitch with
  | none => m
  | some c => if c.status = .running then m else { m with confirmVersionSwitch := none }

/-- INTERNAL: the status of an open version switch.
SRCLINE: core.rs:1186-1203 -/
def setConfirmStatus (m : ConsoleModel) (status : ConfirmStatus) : ConsoleModel :=
  { m with confirmVersionSwitch := m.confirmVersionSwitch.map fun c => { c with status := status } }

/-! ## The reducer -/

/-- INTERNAL: no effect. -/
def quiet (m : ConsoleModel) : Option (ConsoleModel × Effect) := some (m, .none)

/-- INTERNAL: **one update**.
SRCLINE: core.rs:333-1203 -/
def apply (now : ℕ) (m : ConsoleModel) : Update → Option (ConsoleModel × Effect)
  | .spanReceived span => (m.spanReceived now span).bind quiet
  | .selectUp => m.selectUp.quiet
  | .selectDown => m.selectDown.quiet
  | .expandSelected => m.expandSelected.quiet
  | .expandAllSelected => m.expandAllSelected.quiet
  | .collapseSelected => m.collapseSelected.quiet
  | .switchFocus => m.switchFocus.quiet
  | .toggleSplitSelected => m.toggleSplitSelected.bind quiet
  | .connected => { m with connection := .connected, status := none }.quiet
  | .disconnected reason => { m with connection := .disconnected reason }.quiet
  | .status msg => { m with status := some msg }.quiet
  | .cacheLevelReceived filter => { m with cacheLevel := some filter }.quiet
  | .serverInfoReceived version => { m with serverVersion := some version }.quiet
  | .requestCacheLevel filter => some (m, .requestSetLevel filter)
  | .cacheChanceReceived pct => { m with cacheChance := some pct }.quiet
  | .beginChanceInput => { m with chanceInput := openModal }.quiet
  | .chanceInputChar c =>
    { m with chanceInput := m.chanceInput.map fun buf => (pushDigitOrDecimal buf c).getD buf }.quiet
  | .chanceInputBackspace => { m with chanceInput := backspaceModal m.chanceInput }.quiet
  | .chanceInputCancel => { m with chanceInput := closeModal }.quiet
  | .chanceInputCommit => some m.chanceInputCommit
  | .toggleGraph => m.toggleGraph.bind quiet
  | .setGraphAgg mode => (m.mapGraph fun gs => { gs with aggregation := mode }).quiet
  | .toggleGraphMetric => (m.regraph fun gs => { gs with metric := gs.metric.next }).bind quiet
  | .beginGraphAggInput => (m.mapGraph fun gs => { gs with aggInput := openModal }).quiet
  | .graphAggInputChar c =>
    (m.mapGraph fun gs => { gs with aggInput := gs.aggInput.map fun buf => aggInputChar buf c }).quiet
  | .graphAggInputBackspace =>
    (m.mapGraph fun gs => { gs with aggInput := backspaceModal gs.aggInput }).quiet
  | .graphAggInputCancel => (m.mapGraph fun gs => { gs with aggInput := closeModal }).quiet
  | .graphAggInputCommit => (m.mapGraph aggInputCommit).quiet
  | .beginGraphWindowInput => (m.mapGraph fun gs => { gs with windowInput := openModal }).quiet
  | .graphWindowInputChar c =>
    (m.mapGraph fun gs =>
      { gs with
        windowInput := gs.windowInput.map fun buf => (pushDigitOrDecimal buf c).getD buf }).quiet
  | .graphWindowInputBackspace =>
    (m.mapGraph fun gs => { gs with windowInput := backspaceModal gs.windowInput }).quiet
  | .graphWindowInputCancel => (m.mapGraph fun gs => { gs with windowInput := closeModal }).quiet
  | .graphWindowInputCommit => m.graphWindowInputCommit.bind quiet
  | .beginGraphLookbackInput => (m.mapGraph fun gs => { gs with lookbackInput := openModal }).quiet
  | .graphLookbackInputChar c =>
    (m.mapGraph fun gs =>
      { gs with lookbackInput := gs.lookbackInput.map fun buf => lookbackInputChar buf c }).quiet
  | .graphLookbackInputBackspace =>
    (m.mapGraph fun gs => { gs with lookbackInput := backspaceModal gs.lookbackInput }).quiet
  | .graphLookbackInputCancel =>
    (m.mapGraph fun gs => { gs with lookbackInput := closeModal }).quiet
  | .graphLookbackInputCommit => (m.mapGraph lookbackInputCommit).quiet
  | .toggleGraphTimeLabels =>
    (m.mapGraph fun gs => { gs with timeLabels := gs.timeLabels.next }).quiet
  | .graphSwitchFocus => (m.mapGraph graphSwitchFocus).quiet
  | .graphSelectUp =>
    (m.mapGraph fun gs => { gs with detailsSelected := gs.detailsSelected - 1 }).quiet
  | .graphSelectDown => (m.mapGraph (graphSelectDown m.agg)).quiet
  | .graphToggleSplit => m.graphToggleSplit.bind quiet
  | .graphSortColumnLeft => (m.mapGraph graphSortColumnLeft).quiet
  | .graphSortColumnRight => (m.mapGraph graphSortColumnRight).quiet
  | .enterExplore => some m.enterExplore
  | .exitExplore => some m.exitExplore
  | .exploreSelectUp => (m.mapExplore fun es => { es with selected := es.selected - 1 }).quiet
  | .exploreSelectDown => (m.mapExplore (exploreSelectDown m.agg)).quiet
  | .exploreSortLeft => (m.mapExplore (exploreSort m.agg (-1))).quiet
  | .exploreSortRight => (m.mapExplore (exploreSort m.agg 1)).quiet
  | .exploreInvertSort =>
    (m.mapExplore fun es => { es with direction := es.direction.flip }).quiet
  | .beginExploreSearch =>
    (m.mapExplore fun es => { es with searchInput := openModal, selected := 0 }).quiet
  | .exploreSearchChar c => (m.mapExplore fun es => exploreSearchChar es c).quiet
  | .exploreSearchBackspace =>
    (m.mapExplore fun es => { es with searchInput := backspaceModal es.searchInput }).quiet
  | .exploreSearchCancel =>
    (m.mapExplore fun es => { es with searchInput := closeModal, selected := 0 }).quiet
  | .exploreSearchCommit => (m.mapExplore exploreSearchCommit).quiet
  | .exploreOpenTrace => m.exploreOpenTrace.quiet
  | .exitTraceDetail => m.exitTraceDetail.quiet
  | .traceDetailSelectUp =>
    (m.mapTraceDetail fun td => { td with selectedIdx := td.selectedIdx - 1 }).quiet
  | .traceDetailSelectDown => m.traceDetailSelectDown.bind quiet
  | .traceDetailExpand => (m.changeCollapsed Finset.erase).bind quiet
  | .traceDetailCollapse => (m.changeCollapsed fun collapsed id => insert id collapsed).bind quiet
  | .enterTable => some m.enterTable
  | .enterGraph => m.enterGraph
  | .quit => some (m.requestQuit now)
  | .quitConfirmDismiss => { m with quitConfirmDeadline := none }.quiet
  | .beginConfirmVersionSwitch => m.beginConfirmVersionSwitch.quiet
  | .confirmVersionSwitchYes => some m.confirmVersionSwitchYes
  | .confirmVersionSwitchNo => m.confirmVersionSwitchNo.quiet
  | .installerSucceeded => (m.setConfirmStatus .restart).quiet
  | .installerFailed output => (m.setConfirmStatus (.failed output)).quiet

end TracingConsole.Model.ConsoleModel
