import TracingConsole.Model.LevelBus
import TracingConsole.Model.Modal
import TracingConsole.Model.TraceTree

/-!
# The explore view

The list of the spans of one stack, with search and sort columns, and the trace a span
belongs to (explore.rs).  The rows of a trace are in `TraceTree`.
-/

set_option autoImplicit false

namespace TracingConsole.Model

/-! ## State -/

/-- INTERNAL: SRCLINE: explore.rs:42-49 -/
inductive SortDirection where
  | asc
  | desc
deriving DecidableEq

/-- INTERNAL: SRCLINE: explore.rs:51-56 -/
def SortDirection.flip : SortDirection → SortDirection
  | .asc => .desc
  | .desc => .asc

/-- INTERNAL: SRCLINE: explore.rs:18-31 -/
inductive ExploreSortColumn where
  | timestamp
  | latency
  | field (key : String)
deriving DecidableEq

/-- INTERNAL: SRCLINE: explore.rs:33-42 -/
def ExploreSortColumn.defaultDirection : ExploreSortColumn → SortDirection
  | .timestamp | .latency => .desc
  | .field _ => .asc

/-- INTERNAL: SRCLINE: explore.rs:67-92 -/
structure ExploreState where
  lockedStack : List String
  restoreLevel : Option WireLevelFilter
  selected : ℕ
  sort : ExploreSortColumn
  direction : SortDirection
  searchInput : Option String
  query : String
deriving DecidableEq

namespace ExploreState

/-- INTERNAL: SRCLINE: explore.rs:99-111 -/
def new (lockedStack : List String) (restoreLevel : Option WireLevelFilter) : ExploreState where
  lockedStack := lockedStack
  restoreLevel := restoreLevel
  selected := 0
  sort := .timestamp
  direction := ExploreSortColumn.timestamp.defaultDirection
  searchInput := none
  query := ""

/-- INTERNAL: the search buffer while it is open, the committed query otherwise.
SRCLINE: explore.rs:113-118 -/
def effectiveQuery (es : ExploreState) : String := es.searchInput.getD es.query

end ExploreState

/-- INTERNAL: SRCLINE: explore.rs:121-137 -/
structure TraceDetailState where
  rootId : ℕ
  selectedIdx : ℕ
  collapsed : Finset ℕ
  explore : ExploreState
deriving DecidableEq

/-! ## The rows of the list -/

/-- INTERNAL: `str::contains`. -/
def containsText (text query : String) : Bool :=
  text.toList.tails.any fun rest => query.toList.isPrefixOf rest

/-- INTERNAL: SRCLINE: explore.rs:266-290 -/
def spanMatchesQuery (s : WireSpan) (q : String) : Bool :=
  let fieldMatches (kv : String × WireFieldValue) : Bool :=
    containsText (asciiLowercase kv.1) q || containsText (asciiLowercase kv.2.toStringValue) q
  containsText (asciiLowercase s.name) q || s.fields.any fieldMatches ||
    s.events.any fun e => containsText (asciiLowercase e.name) q || e.fields.any fieldMatches

/-- INTERNAL: SRCLINE: explore.rs:309-313 -/
def latencyNs (s : WireSpan) : ℕ := (s.closedAtNs.map fun c => c - s.openedAtNs).getD 0

/-- INTERNAL: SRCLINE: explore.rs:315-319 -/
def fieldString (s : WireSpan) (key : String) : String :=
  ((s.fields.find? fun kv => kv.1 = key).map fun kv => kv.2.toStringValue).getD ""

/-- INTERNAL: a stable sort by the column, reversed as a whole when descending.
SRCLINE: explore.rs:292-307 -/
def sortSpans (spans : List WireSpan) (column : ExploreSortColumn) (direction : SortDirection) :
    List WireSpan :=
  let sorted := match column with
    | .timestamp => spans.insertionSort fun a b => a.openedAtNs ≤ b.openedAtNs
    | .latency => spans.insertionSort fun a b => latencyNs a ≤ latencyNs b
    | .field k => spans.insertionSort fun a b => fieldString a k ≤ fieldString b k
  match direction with
  | .asc => sorted
  | .desc => sorted.reverse

/-- INTERNAL: SRCLINE: explore.rs:244-251 -/
def lockedStackSpans (agg : Aggregator) (es : ExploreState) : List WireSpan :=
  (agg.iterWithStack.filter fun s => s.2 = es.lockedStack).map Prod.fst

/-- INTERNAL: the rows of the list.
SRCLINE: explore.rs:256-264 -/
def matchingSpans (agg : Aggregator) (es : ExploreState) : List WireSpan :=
  let q := asciiLowercase es.effectiveQuery
  sortSpans ((lockedStackSpans agg es).filter fun s => q = "" ∨ spanMatchesQuery s q)
    es.sort es.direction

/-- INTERNAL: the field keys with more than one value, in order.
SRCLINE: explore.rs:323-340 -/
def distinguishingFields (spans : List WireSpan) : List String :=
  let keys := (spans.flatMap fun s => s.fields.map Prod.fst).dedup
  let values (key : String) : List String :=
    (spans.flatMap fun s => (s.fields.filter fun kv => kv.1 = key).map fun kv =>
      kv.2.toStringValue).dedup
  (keys.filter fun key => 1 < (values key).length).insertionSort (· ≤ ·)

/-- INTERNAL: SRCLINE: explore.rs:344-359 -/
def cycleSort (es : ExploreState) (fields : List String) (delta : ℤ) : ExploreState :=
  let all := [ExploreSortColumn.timestamp, .latency] ++ fields.map ExploreSortColumn.field
  let idx := if es.sort ∈ all then all.idxOf es.sort else 0
  let next := (((idx : ℤ) + delta) % (all.length : ℤ)).toNat
  let sort := all.getD next es.sort
  { es with sort := sort, direction := sort.defaultDirection }

/-- INTERNAL: the root above a span, at most 256 levels up.
SRCLINE: explore.rs:372-382 -/
def findRootWithin (agg : Aggregator) : ℕ → ℕ → Option ℕ
  | 0, _ => none
  | fuel + 1, cur =>
    match agg.spanById cur with
    | none => none
    | some s =>
      match s.parentId with
      | none => some cur
      | some p => findRootWithin agg fuel p

/-- INTERNAL: SRCLINE: explore.rs:372-382 -/
def findRootId (agg : Aggregator) (spanId : ℕ) : Option ℕ := findRootWithin agg 256 spanId

end TracingConsole.Model
