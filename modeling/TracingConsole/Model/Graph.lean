import TracingConsole.Model.GraphStore

/-!
# The graph view

`GraphState` (graph.rs:540-776): what the chart is locked on, how it is shown, and the store
its samples go into.  A number the user typed is a rational, as in the modal inputs.
-/

set_option autoImplicit false

namespace TracingConsole.Model

open Std (ExtTreeMap)

/-! ## What the graph asks the aggregator -/

namespace Aggregator

/-- INTERNAL: the fields of a span and its ancestors, closest to the leaf first; `fuel` levels
at most.
SRCLINE: state.rs:194-209 -/
def collectSplitsUp (a : Aggregator) (keys : Finset String) :
    ℕ → Option Entry → List (String × String) → List (String × String)
  | 0, _, out => out
  | _, none, out => out
  | fuel + 1, some entry, out =>
    a.collectSplitsUp keys fuel (entry.span.parentId.bind fun pid => a.byId[pid]?)
      (pushSplits (fun k => decide (k ∈ keys))
        (entry.span.fields.map fun kv => (kv.1, kv.2.toStringValue)) out)

/-- INTERNAL: the splits of a span under any key set; the walk breaks off above depth 64.
SRCLINE: state.rs:187-211 -/
def collectSplitsFor (a : Aggregator) (id : ℕ) (keys : Finset String) : List (String × String) :=
  (a.collectSplitsUp keys 65 a.byId[id]? []).insertionSort (fun x y => x.1 ≤ y.1)

/-- INTERNAL: the field names of the spans with a stack, each once and in order.
SRCLINE: util.rs:11-23 -/
def candidateSplitKeysFor (a : Aggregator) (targetStack : List String) : List String :=
  ((a.iterWithStack.filter fun s => s.2 = targetStack).flatMap fun s =>
    s.1.fields.map Prod.fst).dedup.insertionSort (· ≤ ·)

end Aggregator

/-! ## The state of the view -/

/-- INTERNAL: SRCLINE: graph.rs:84-96 -/
inductive TimeLabels where
  | delta
  | unix
  | localTime
deriving DecidableEq

/-- INTERNAL: SRCLINE: graph.rs:98-108 -/
def TimeLabels.next : TimeLabels → TimeLabels
  | .delta => .unix
  | .unix => .localTime
  | .localTime => .delta

/-- INTERNAL: SRCLINE: graph.rs:110-117 -/
inductive GraphFocus where
  | chart
  | details
deriving DecidableEq

/-- INTERNAL: SRCLINE: graph.rs:119-133 -/
inductive SortColumn where
  | splitKey (key : String)
  | count
  | min
  | avg
  | max
  | last
deriving DecidableEq

/-- INTERNAL: SRCLINE: graph.rs:543-592 -/
structure GraphState where
  lockedStack : List String
  aggregation : AggMode
  metric : Metric
  windowSecs : ℚ
  lookbackSecs : WithTop ℚ
  splitKeys : Finset String
  hiddenSeries : Finset SeriesKey
  detailsSelected : ℕ
  focus : GraphFocus
  sortColumn : SortColumn
  aggInput : Option String
  windowInput : Option String
  lookbackInput : Option String
  timeLabels : TimeLabels
  store : GraphSeriesStore

namespace GraphState

/-- INTERNAL: SRCLINE: graph.rs:595-617 -/
def new (lockedStack : List String) : GraphState where
  lockedStack := lockedStack
  aggregation := .avg
  metric := .total
  windowSecs := 1
  lookbackSecs := 60
  splitKeys := ∅
  hiddenSeries := ∅
  detailsSelected := 0
  focus := .chart
  sortColumn := .count
  aggInput := none
  windowInput := none
  lookbackInput := none
  timeLabels := .delta
  store := GraphSeriesStore.new 1

/-- INTERNAL: the columns of the series table, left to right.
SRCLINE: graph.rs:619-633 -/
def seriesTableColumns (gs : GraphState) : List SortColumn :=
  (gs.splitKeys.sort (· ≤ ·)).map SortColumn.splitKey ++ [.count, .min, .avg, .max, .last]

/-- INTERNAL: SRCLINE: graph.rs:635-645 -/
def alphaSeriesKeys (gs : GraphState) : List SeriesKey := gs.store.series.keys

/-- INTERNAL: the order of two series under the active column; ties go by key.
SRCLINE: graph.rs:680-725 -/
def compareSeries (gs : GraphState) (a b : SeriesKey) : Ordering :=
  let summaries := gs.store.seriesSummary gs.aggregation gs.metric
  let stat (f : SeriesSummary → ℕ) (key : SeriesKey) : ℕ :=
    ((summaries.find? fun s => s.key = key).map f).getD 0
  let value (k : String) (key : SeriesKey) : String :=
    ((key.find? fun kv => kv.1 = k).map Prod.snd).getD ""
  let primary := match gs.sortColumn with
    | .splitKey k => compare (value k a) (value k b)
    | .count => compare (stat SeriesSummary.count b) (stat SeriesSummary.count a)
    | .min => compare (stat SeriesSummary.minNs a) (stat SeriesSummary.minNs b)
    | .avg => compare (stat SeriesSummary.avgNs b) (stat SeriesSummary.avgNs a)
    | .max => compare (stat SeriesSummary.maxNs b) (stat SeriesSummary.maxNs a)
    | .last => compare (stat SeriesSummary.lastNs b) (stat SeriesSummary.lastNs a)
  primary.then (compare a b)

/-- INTERNAL: the series in the order of the table.
SRCLINE: graph.rs:670-727 -/
def seriesKeys (gs : GraphState) : List SeriesKey :=
  gs.alphaSeriesKeys.insertionSort fun a b => (gs.compareSeries a b).isLE = true

/-- INTERNAL: what one span contributes.
SRCLINE: graph.rs:735-747 -/
def sampleOf (gs : GraphState) (agg : Aggregator) (span : WireSpan) (closed : ℕ) : ℕ :=
  let total := closed - span.openedAtNs
  match gs.metric with
  | .total => total
  | .selfTime => total - agg.childSumFor span.id
  | .count => 1

/-- INTERNAL: record one span, open ones excepted.
SRCLINE: graph.rs:734-750 -/
def recordSpan (gs : GraphState) (agg : Aggregator) (span : WireSpan) : Option GraphState :=
  match span.closedAtNs with
  | none => some gs
  | some closed =>
    let value := gs.sampleOf agg span closed
    let seriesKey := agg.collectSplitsFor span.id gs.splitKeys
    (gs.store.record seriesKey closed value).map fun store => { gs with store := store }

/-- INTERNAL: record the span with an id, if it is in the ring.
SRCLINE: graph.rs:769-774 -/
def recordId (agg : Aggregator) (gs : GraphState) (id : ℕ) : Option GraphState :=
  match agg.spanById id with
  | none => some gs
  | some span => gs.recordSpan agg span

/-- INTERNAL: the ids of the ring whose stack the graph is locked on, oldest first.
SRCLINE: graph.rs:763-768 -/
def matchingIds (gs : GraphState) (agg : Aggregator) : List ℕ :=
  (agg.iterWithStack.filter fun s => s.2 = gs.lockedStack).map fun s => s.1.id

/-- INTERNAL: drop every bin and record the whole ring anew.
SRCLINE: graph.rs:758-775 -/
def rehydrate (gs : GraphState) (agg : Aggregator) : Option GraphState :=
  let gs := { gs with store := gs.store.resetWindow gs.windowSecs }
  (gs.matchingIds agg).foldlM (recordId agg) gs

end GraphState

end TracingConsole.Model
