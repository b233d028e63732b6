import TracingConsole.Model.Aggregate
import TracingConsole.Model.Modal

/-!
# The time series of a graph

The bins behind the chart (graph.rs:133-447).  A series keeps a deque of bins that starts at
its base index; the store turns a close time into a bin index relative to its origin.

Times and indices are `u64`s: `record` is `none` where an addition, a subtraction or an
index of the source goes out of range, or the window is zero.
-/

set_option autoImplicit false

namespace TracingConsole.Model

open Std (ExtTreeMap)

/-- INTERNAL: which sample a span contributes.
SRCLINE: graph.rs:29-41 -/
inductive Metric where
  | total
  | selfTime
  | count
deriving DecidableEq

namespace Metric

/-- INTERNAL: SRCLINE: graph.rs:44-51 -/
def next : Metric → Metric
  | .total => .selfTime
  | .selfTime => .count
  | .count => .total

/-- INTERNAL: SRCLINE: graph.rs:53-57 -/
def isCount (metric : Metric) : Bool := metric = .count

end Metric

/-! ## Bins -/

/-- INTERNAL: SRCLINE: graph.rs:135-146 -/
structure Bin where
  count : ℕ
  sumNs : ℕ
  minNs : ℕ
  maxNs : ℕ
  samples : List ℕ
deriving DecidableEq

/-- INTERNAL: the bins a series keeps, and the samples a bin keeps.
SRCLINE: graph.rs:218-225 -/
def binCap : ℕ := 600

/-- INTERNAL: how many samples a bin keeps. -/
def binSampleCap : ℕ := 4096

namespace Bin

/-- INTERNAL: SRCLINE: graph.rs:269-275 -/
def new : Bin := { count := 0, sumNs := 0, minNs := 0, maxNs := 0, samples := [] }

/-- INTERNAL: SRCLINE: graph.rs:149-162 -/
def record (bin : Bin) (value : ℕ) : Bin where
  minNs := if bin.count = 0 then value else min bin.minNs value
  maxNs := if bin.count = 0 then value else max bin.maxNs value
  count := bin.count + 1
  sumNs := bin.sumNs + value
  samples := if bin.samples.length < binSampleCap then bin.samples ++ [value] else bin.samples

/-- INTERNAL: the index of a percentile, in doubles, half away from zero.
SRCLINE: graph.rs:176-181 -/
def percentileIdx (p : ℚ) (n : ℕ) : ℕ :=
  let rounded (v : ℚ) := (nearestDouble v).getD v
  ⌊rounded (rounded (p / 100) * ((n - 1 : ℕ) : ℚ)) + 1 / 2⌋₊

/-- INTERNAL: SRCLINE: graph.rs:164-183 -/
def aggregate (bin : Bin) (mode : AggMode) : ℕ :=
  if bin.count = 0 then 0
  else
    match mode with
    | .min => bin.minNs
    | .max => bin.maxNs
    | .avg => bin.sumNs / bin.count
    | .percentile p =>
      let sorted := bin.samples.insertionSort (· ≤ ·)
      let n := sorted.length
      sorted.getD (min (percentileIdx p n) (n - 1)) 0

end Bin

/-! ## Series -/

/-- INTERNAL: SRCLINE: graph.rs:186-194 -/
structure Series where
  bins : List (Option Bin) := []
  baseIdx : ℕ := 0
deriving DecidableEq

/-- INTERNAL: the split values that tell one series from another. -/
abbrev SeriesKey := List (String × String)

namespace Series

/-- INTERNAL: an empty series starts at the bin of its first sample.
SRCLINE: graph.rs:255-257 -/
def start (series : Series) (binIdx : ℕ) : Series :=
  if series.bins = [] then { series with baseIdx := binIdx } else series

/-- INTERNAL: `while bins.len() < needed_back`.
SRCLINE: graph.rs:261-263 -/
def fill (series : Series) (neededBack : ℕ) : Series :=
  { series with bins := series.bins ++ List.replicate (neededBack - series.bins.length) none }

/-- INTERNAL: `while bins.len() > BIN_CAP`.
SRCLINE: graph.rs:264-267 -/
def evict (series : Series) : Series :=
  let excess := series.bins.length - binCap
  { bins := series.bins.drop excess, baseIdx := series.baseIdx + excess }

/-- INTERNAL: one sample into the bin `binIdx`.
SRCLINE: graph.rs:254-276 -/
def record (series : Series) (binIdx value : ℕ) : Option Series :=
  let series := series.start binIdx
  -- `bin_idx + 1 - base_idx`, both within a `u64`
  if 2 ^ 64 ≤ binIdx + 1 then none
  else if binIdx + 1 < series.baseIdx then none
  else
    let series := (series.fill (binIdx + 1 - series.baseIdx)).evict
    -- `bin_idx - base_idx`, and the index into the deque
    if binIdx < series.baseIdx then none
    else
      let slot := binIdx - series.baseIdx
      match series.bins[slot]? with
      | none => none
      | some bin =>
        some { series with bins := series.bins.set slot (some ((bin.getD Bin.new).record value)) }

end Series

/-! ## The store -/

/-- INTERNAL: SRCLINE: graph.rs:196-215 -/
structure GraphSeriesStore where
  originNs : ℕ
  windowNs : ℕ
  latestBinIdx : ℕ
  series : ExtTreeMap SeriesKey Series
deriving DecidableEq

/-- INTERNAL: a window in nanoseconds, rounded; the cast to `u64` saturates.
SRCLINE: graph.rs:460-468 -/
def windowNsFromSecs (secs : ℚ) : ℕ :=
  if secs ≤ 0 then 1000000000 else min ⌊secs * 1000000000 + 1 / 2⌋₊ (2 ^ 64 - 1)

/-- INTERNAL: one series' statistics over the bins it has.
SRCLINE: graph.rs:449-458 -/
structure SeriesSummary where
  key : SeriesKey
  count : ℕ
  minNs : ℕ
  maxNs : ℕ
  avgNs : ℕ
  lastNs : ℕ
deriving DecidableEq

/-- INTERNAL: SRCLINE: graph.rs:363-430 -/
def Series.summary (series : Series) (key : SeriesKey) (agg : AggMode) (metric : Metric) :
    SeriesSummary :=
  let bins := series.bins.filterMap id
  if metric.isCount then
    let binCounts := bins.map Bin.count
    let total := binCounts.sum
    { key := key
      count := total
      minNs := binCounts.min?.getD 0
      maxNs := binCounts.max?.getD 0
      avgNs := if binCounts = [] then 0 else total / binCounts.length
      lastNs := (bins.getLast?.map Bin.count).getD 0 }
  else
    let count := (bins.map Bin.count).sum
    let sum := (bins.map Bin.sumNs).sum
    { key := key
      count := count
      minNs := if count = 0 then 0 else bins.foldl (fun m bin => min m bin.minNs) (2 ^ 64 - 1)
      maxNs := bins.foldl (fun m bin => max m bin.maxNs) 0
      avgNs := if count = 0 then 0 else sum / count
      lastNs := (bins.getLast?.map fun bin => bin.aggregate agg).getD 0 }

namespace GraphSeriesStore

/-- INTERNAL: SRCLINE: graph.rs:227-234 -/
def new (windowSecs : ℚ) : GraphSeriesStore :=
  { originNs := 0, windowNs := windowNsFromSecs windowSecs, latestBinIdx := 0, series := ∅ }

/-- INTERNAL: the first sample sets the origin, half a window before it.
SRCLINE: graph.rs:241-245 -/
def anchor (store : GraphSeriesStore) (tNs : ℕ) : GraphSeriesStore :=
  if store.originNs = 0 then { store with originNs := tNs - store.windowNs / 2 } else store

/-- INTERNAL: SRCLINE: graph.rs:240-277 -/
def record (store : GraphSeriesStore) (seriesKey : SeriesKey) (tNs value : ℕ) :
    Option GraphSeriesStore :=
  let store := store.anchor tNs
  if tNs < store.originNs then some store
  else if store.windowNs = 0 then none
  else
    let binIdx := (tNs - store.originNs) / store.windowNs
    ((store.series.getD seriesKey {}).record binIdx value).map fun series =>
      { store with
        latestBinIdx := max store.latestBinIdx binIdx
        series := store.series.insert seriesKey series }

/-- INTERNAL: SRCLINE: graph.rs:279-286 -/
def wipe (store : GraphSeriesStore) : GraphSeriesStore :=
  { store with series := ∅, originNs := 0, latestBinIdx := 0 }

/-- INTERNAL: SRCLINE: graph.rs:288-293 -/
def resetWindow (store : GraphSeriesStore) (windowSecs : ℚ) : GraphSeriesStore :=
  { store with windowNs := windowNsFromSecs windowSecs }.wipe

/-- INTERNAL: every series with its statistics, by key.
SRCLINE: graph.rs:352-432 -/
def seriesSummary (store : GraphSeriesStore) (agg : AggMode) (metric : Metric) :
    List SeriesSummary :=
  store.series.toList.map fun kv => kv.2.summary kv.1 agg metric

end GraphSeriesStore

end TracingConsole.Model
