import TracingConsole.Library.PrefixForest
import TracingConsole.Model.Explore
import TracingConsole.Model.Graph

/-!
# The model of the console

`Model` of core.rs and its reducer `apply`, with one update for every state change
(update.rs).  `apply` is given the time `Instant::now()` reads, in nanoseconds, and returns
the effect with the model; it is `none` where a call it makes does not return or panics.
-/

set_option autoImplicit false

namespace TracingConsole.Model

/-! ## The rate counter -/

/-- INTERNAL: counts by half-seconds; `head` is the one in progress.
SRCLINE: core.rs:79-96 -/
structure RateTracker where
  buckets : List ℕ
  head : ℕ
  bucketStart : Option ℕ

namespace RateTracker

/-- INTERNAL: SRCLINE: core.rs:101 -/
def bucketCount : ℕ := 9

/-- INTERNAL: SRCLINE: core.rs:88-96 -/
def default : RateTracker := { buckets := List.replicate bucketCount 0, head := 0, bucketStart := none }

/-- INTERNAL: open the next half-second.
SRCLINE: core.rs:120-123 -/
def advance (rate : RateTracker) : RateTracker :=
  let head := (rate.head + 1) % bucketCount
  { rate with head := head, buckets := rate.buckets.set head 0 }

/-- INTERNAL: SRCLINE: core.rs:106-128 -/
def record (rate : RateTracker) (now : ℕ) : RateTracker :=
  let rate := match rate.bucketStart with
    | none => { rate with bucketStart := some now }
    | some start =>
      let elapsedMs := (now - start) / 1000000
      if 500 ≤ elapsedMs then
        let advances := min (elapsedMs / 500) bucketCount
        { RateTracker.advance^[advances] rate with
          bucketStart := some (start + 500 * advances * 1000000) }
      else rate
  { rate with
    buckets := rate.buckets.set rate.head (min (rate.buckets.getD rate.head 0 + 1) (2 ^ 32 - 1)) }

/-- INTERNAL: the sum over the completed half-seconds.
SRCLINE: core.rs:132-141 -/
def completed (rate : RateTracker) : ℕ :=
  if rate.bucketStart.isNone then 0
  else ((rate.buckets.zipIdx.filter fun x => x.2 ≠ rate.head).map Prod.fst).sum

/-- INTERNAL: SRCLINE: core.rs:104, 130-142 -/
def rateHz (rate : RateTracker) : ℚ := rate.completed / 4

end RateTracker

/-! ## State -/

/-- INTERNAL: SRCLINE: core.rs:165-185 -/
inductive ConfirmStatus where
  | confirming
  | running
  | failed (output : String)
  | restart
deriving DecidableEq

/-- INTERNAL: SRCLINE: core.rs:145-163 -/
structure ConfirmVersionSwitch where
  serverVersion : String
  status : ConfirmStatus
deriving DecidableEq

/-- INTERNAL: `CARGO_PKG_VERSION`, pinned by the workspace.
SRCLINE: core.rs:187-190 -/
def clientVersion : String := "0.1.4"

/-- INTERNAL: SRCLINE: core.rs:202-209 -/
inductive Focus where
  | stacks
  | details
deriving DecidableEq

/-- INTERNAL: SRCLINE: core.rs:1298-1303 -/
inductive ConnectionStatus where
  | connecting
  | connected
  | disconnected (reason : String)
deriving DecidableEq

/-- INTERNAL: SRCLINE: graph.rs:13-27 -/
inductive ViewMode where
  | table
  | graph (gs : GraphState)
  | explore (es : ExploreState)
  | traceDetail (td : TraceDetailState)

/-- INTERNAL: SRCLINE: core.rs:219-306 -/
structure ConsoleModel where
  agg : Aggregator
  expanded : Finset (List String)
  selected : ℕ
  detailsSelected : ℕ
  focus : Focus
  connection : ConnectionStatus
  status : Option String
  historyBudget : ℕ
  cacheLevel : Option WireLevelFilter
  cacheChance : Option F64
  serverVersion : Option String
  confirmVersionSwitch : Option ConfirmVersionSwitch
  quitConfirmDeadline : Option ℕ
  chanceInput : Option String
  view : ViewMode
  rate : RateTracker

/-- INTERNAL: SRCLINE: update.rs:14-174 -/
inductive Update where
  | spanReceived (span : WireSpan)
  | selectUp | selectDown
  | expandSelected | expandAllSelected | collapseSelected
  | switchFocus
  | toggleSplitSelected
  | serverInfoReceived (version : String)
  | cacheLevelReceived (filter : WireLevelFilter)
  | requestCacheLevel (filter : WireLevelFilter)
  | cacheChanceReceived (pct : F64)
  | beginChanceInput | chanceInputChar (c : Char) | chanceInputBackspace
  | chanceInputCancel | chanceInputCommit
  | toggleGraph
  | setGraphAgg (mode : AggMode)
  | toggleGraphMetric
  | beginGraphAggInput | graphAggInputChar (c : Char) | graphAggInputBackspace
  | graphAggInputCancel | graphAggInputCommit
  | beginGraphWindowInput | graphWindowInputChar (c : Char) | graphWindowInputBackspace
  | graphWindowInputCancel | graphWindowInputCommit
  | beginGraphLookbackInput | graphLookbackInputChar (c : Char) | graphLookbackInputBackspace
  | graphLookbackInputCancel | graphLookbackInputCommit
  | toggleGraphTimeLabels
  | enterExplore | exitExplore
  | exploreSelectUp | exploreSelectDown
  | exploreSortLeft | exploreSortRight
  | exploreInvertSort
  | beginExploreSearch | exploreSearchChar (c : Char) | exploreSearchBackspace
  | exploreSearchCancel | exploreSearchCommit
  | exploreOpenTrace
  | exitTraceDetail
  | traceDetailSelectUp | traceDetailSelectDown
  | traceDetailExpand | traceDetailCollapse
  | enterTable | enterGraph
  | graphSwitchFocus | graphSelectUp | graphSelectDown | graphToggleSplit
  | graphSortColumnLeft | graphSortColumnRight
  | connected
  | disconnected (reason : String)
  | status (msg : String)
  | quit
  | beginConfirmVersionSwitch | confirmVersionSwitchYes | confirmVersionSwitchNo
  | quitConfirmDismiss
  | installerSucceeded
  | installerFailed (output : String)

/-- INTERNAL: SRCLINE: update.rs:176-211 -/
inductive Effect where
  | none
  | quit
  | requestSetLevel (filter : WireLevelFilter)
  | requestSetChance (pct : ℚ)
  | runUpdateInstaller (version : Option String)
  | restart
deriving DecidableEq

/-- INTERNAL: one visible line of the stacks tree.
SRCLINE: core.rs:192-200 -/
structure VisibleRow where
  key : BucketKey
  stats : StackStats
  depth : ℕ
  hasChildren : Bool
  isExpanded : Bool
deriving DecidableEq

namespace ConsoleModel

/-- INTERNAL: SRCLINE: core.rs:309-329 -/
def new (historyBudget : ℕ) : ConsoleModel where
  agg := Aggregator.new historyBudget
  expanded := ∅
  selected := 0
  detailsSelected := 0
  focus := .stacks
  connection := .connecting
  status := none
  historyBudget := historyBudget
  cacheLevel := none
  cacheChance := none
  serverVersion := none
  confirmVersionSwitch := none
  quitConfirmDeadline := none
  chanceInput := none
  view := .table
  rate := RateTracker.default

/-- INTERNAL: SRCLINE: core.rs:335-346 -/
def expireQuitConfirmIfDue (m : ConsoleModel) (now : ℕ) : ConsoleModel :=
  match m.quitConfirmDeadline with
  | some deadline => if deadline ≤ now then { m with quitConfirmDeadline := none } else m
  | none => m

/-! ### Rows -/

/-- INTERNAL: scan the rows after one for a longer stack, as long as they extend its stack.
SRCLINE: core.rs:1230-1245 -/
def scanChildren (stack : List String) : List (BucketKey × StackStats) → Bool
  | [] => false
  | (nextKey, _) :: rest =>
    if !stack.isPrefixOf nextKey.stack then false
    else if stack.length < nextKey.stack.length then true
    else scanChildren stack rest

/-- INTERNAL: SRCLINE: core.rs:1211-1255 -/
def visibleFrom (expanded : Finset (List String)) :
    List (BucketKey × StackStats) → List VisibleRow
  | [] => []
  | (key, stats) :: rest =>
    -- every proper prefix of the stack has to be expanded
    let visible := (List.range' 1 (key.stack.length - 1)).all fun k => key.stack.take k ∈ expanded
    let rows := visibleFrom expanded rest
    if visible then
      { key := key
        stats := stats
        depth := key.stack.length - 1
        hasChildren := scanChildren key.stack rest
        isExpanded := decide (key.stack ∈ expanded) } :: rows
    else rows

/-- INTERNAL: SRCLINE: core.rs:1205-1256 -/
def visibleRows (m : ConsoleModel) : List VisibleRow := visibleFrom m.expanded m.agg.rows

/-- INTERNAL: for each row the index of its immediate ancestor, by a stack of the depths in
scope.
SRCLINE: table.rs:55-71 -/
def parentIndices (rows : List VisibleRow) : List (Option ℕ) :=
  Library.ancestorScan 0 [] (rows.map VisibleRow.depth)

/-- INTERNAL: SRCLINE: core.rs:1268-1274 -/
def selectedVisibleRow (m : ConsoleModel) : Option VisibleRow :=
  let rows := m.visibleRows
  rows[min m.selected (rows.length - 1)]?

/-- INTERNAL: SRCLINE: core.rs:1261-1266 -/
def candidateSplitKeys (m : ConsoleModel) : List String :=
  match m.selectedVisibleRow with
  | none => []
  | some row => m.agg.candidateSplitKeysFor row.key.stack

/-- INTERNAL: SRCLINE: core.rs:1276-1281 -/
def currentPaneLen (m : ConsoleModel) : ℕ :=
  match m.focus with
  | .stacks => m.visibleRows.length
  | .details => m.candidateSplitKeys.length

/-- INTERNAL: SRCLINE: core.rs:1283-1288 -/
def currentSelected (m : ConsoleModel) : ℕ :=
  match m.focus with
  | .stacks => m.selected
  | .details => m.detailsSelected

/-- INTERNAL: SRCLINE: core.rs:1290-1295 -/
def setCurrentSelected (m : ConsoleModel) (idx : ℕ) : ConsoleModel :=
  match m.focus with
  | .stacks => { m with selected := idx }
  | .details => { m with detailsSelected := idx }

end ConsoleModel

end TracingConsole.Model
