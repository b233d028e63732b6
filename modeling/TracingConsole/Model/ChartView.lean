import TracingConsole.Model.Graph

/-!
# The chart of the graph view

What the graph view draws (view/graph.rs:18-67, 235-427): the stored bins of every visible
series as points, a colour for each series, and the y axis with its guides.  The `f64`s of the
chart are exact: a finite one is a rational, and the bounds of no points at all are the top and
the bottom element.
-/

set_option autoImplicit false

namespace TracingConsole.Model

open Std (ExtTreeMap)

/-! ## Colours -/

/-- INTERNAL: the colours of the chart. -/
inductive Color where
  | white
  | cyan
  | magenta
  | yellow
  | green
  | red
  | lightBlue
  | lightGreen
  | lightYellow
deriving DecidableEq

/-- INTERNAL: SRCLINE: view/graph.rs:18-29 -/
def seriesPalette : List Color :=
  [.cyan, .magenta, .yellow, .green, .red, .lightBlue, .lightGreen, .lightYellow]

/-- INTERNAL: SRCLINE: view/graph.rs:31-37 -/
def seriesColor (idx : ℕ) (colorize : Bool) : Color :=
  if colorize then seriesPalette.getD (idx % seriesPalette.length) .white else .white

/-- INTERNAL: `for _ in 0..palette`, with the probes that are left; `none` where an index is out
of range.
SRCLINE: view/graph.rs:56-62 -/
def probeSlot (palette : ℕ) (occupied : List Bool) : ℕ → ℕ → Option ℕ
  | 0, slot => some slot
  | probes + 1, slot =>
    match occupied[slot]? with
    | none => none
    | some false => some slot
    | some true => probeSlot palette occupied probes ((slot + 1) % palette)

/-- INTERNAL: the keys that are left; a remainder by an empty palette panics.
SRCLINE: view/graph.rs:54-65 -/
def assignFrom (palette : ℕ) (colorIndexOf : SeriesKey → ℕ) :
    List Bool → ExtTreeMap SeriesKey ℕ → List SeriesKey → Option (ExtTreeMap SeriesKey ℕ)
  | _, assignment, [] => some assignment
  | occupied, assignment, key :: keys =>
    if palette = 0 then none
    else
      (probeSlot palette occupied palette (colorIndexOf key % palette)).bind fun slot =>
        if slot < occupied.length then
          assignFrom palette colorIndexOf (occupied.set slot true) (assignment.insert key slot) keys
        else none

/-- INTERNAL: the slots of the keys.
SRCLINE: view/graph.rs:48-67 -/
def assignSeriesColors (palette : ℕ) (colorIndexOf : SeriesKey → ℕ) (keys : List SeriesKey) :
    Option (ExtTreeMap SeriesKey ℕ) :=
  assignFrom palette colorIndexOf (List.replicate palette false) ∅ keys

/-! ## The y axis -/

/-- INTERNAL: a step of 1, 2, 5 or 10 times a power of ten.
SRCLINE: view/graph.rs:235-257 -/
def niceStep (raw : ℚ) : ℚ :=
  if raw ≤ 0 then 1
  else
    let exp := Int.log 10 raw
    let pow := (10 : ℚ) ^ exp
    let frac := raw / pow
    let nice :=
      if frac < 3 / 2 then 1
      else if frac < 7 / 2 then 2
      else if frac < 15 / 2 then 5
      else 10
    nice * pow

/-- INTERNAL: the bounds and the step of the axis, `(min, max, step)`.
SRCLINE: view/graph.rs:259-310 -/
def niceAxis (rawMin : WithTop ℚ) (rawMax : WithBot ℚ) : ℚ × ℚ × ℚ :=
  match rawMin, rawMax with
  | .some rawMin, .some rawMax =>
    let rawMin := max rawMin 0
    let rawMax := max rawMax rawMin
    let rawRange := rawMax - rawMin
    let effectiveRange := if 0 < rawRange then rawRange else max (rawMax * (1 / 10)) 1
    let step := niceStep (effectiveRange / 4)
    let min : ℚ := ⌊rawMin / step⌋ * step
    let max : ℚ := ⌈rawMax / step⌉ * step
    let tol := step * (1 / 1000000000)
    -- no bound below zero, even if the axis then touches the data
    let min := if rawMin - tol ≤ min then if 0 ≤ min - step then min - step else min else min
    let max := if max ≤ rawMax + tol then max + step else max
    (min, max, step)
  | _, _ => (0, 1, 1 / 4)

/-- INTERNAL: `while v <= max + step * 0.5`.
SRCLINE: view/graph.rs:320-326 -/
def axisTicksFrom (max step : ℚ) (hstep : 0 < step) (v : ℚ) : List ℚ :=
  if v ≤ max + step * (1 / 2) then v :: axisTicksFrom max step hstep (v + step) else []
termination_by ⌊(max + step * (1 / 2) - v) / step + 1⌋₊
decreasing_by
  have hleft : 0 ≤ (max + step * (1 / 2) - v) / step := div_nonneg (by linarith) hstep.le
  have hnext : (max + step * (1 / 2) - (v + step)) / step + 1 =
      (max + step * (1 / 2) - v) / step := by
    field_simp
    ring
  rw [hnext, Nat.floor_add_one hleft]
  exact Nat.lt_succ_self _

/-- INTERNAL: SRCLINE: view/graph.rs:312-327 -/
def axisTicks (min max step : ℚ) : List ℚ :=
  if hstep : step ≤ 0 then [] else axisTicksFrom max step (not_le.mp hstep) min

/-! ## Points -/

/-- INTERNAL: SRCLINE: model/graph.rs:435-446 -/
def binValue (bin : Bin) (agg : AggMode) (metric : Metric) : ℕ :=
  if metric.isCount then bin.count else bin.aggregate agg

/-- INTERNAL: SRCLINE: model/graph.rs:536-541 -/
structure SeriesProjection where
  key : SeriesKey
  points : List (ℚ × ℚ)

namespace GraphSeriesStore

/-- INTERNAL: SRCLINE: model/graph.rs:236-238 -/
def windowSecs (store : GraphSeriesStore) : ℚ := store.windowNs / 1000000000

/-- INTERNAL: the point of one bin, unless it is not shown.
SRCLINE: model/graph.rs:321-338 -/
def pointOf (store : GraphSeriesStore) (agg : AggMode) (metric : Metric) (oldest absIdx : ℕ)
    (slot : Option Bin) : Option (ℚ × ℚ) :=
  if absIdx < oldest then none
  else if metric.isCount ∧ absIdx = store.latestBinIdx then none
  else
    slot.map fun bin =>
      (-(((store.latestBinIdx - absIdx : ℕ) : ℚ) * store.windowSecs), binValue bin agg metric)

/-- INTERNAL: one series; `none` where the index of a bin is not a `u64`.
SRCLINE: model/graph.rs:319-344 -/
def projectSeries (store : GraphSeriesStore) (agg : AggMode) (metric : Metric) (oldest : ℕ)
    (key : SeriesKey) (series : Series) : Option SeriesProjection :=
  if 2 ^ 64 < series.baseIdx + series.bins.length then none
  else
    let points := series.bins.zipIdx.filterMap fun x =>
      store.pointOf agg metric oldest (series.baseIdx + x.2) x.1
    some { key := key, points := points.insertionSort fun a b => a.1 ≤ b.1 }

/-- INTERNAL: how many bins back the chart reaches; the cast to `u64` saturates.
SRCLINE: model/graph.rs:306 -/
def visibleBins (store : GraphSeriesStore) : WithTop ℚ → ℕ
  | ⊤ => 2 ^ 64 - 1
  | (xMaxSecs : ℚ) => max (min ⌈xMaxSecs / store.windowSecs⌉₊ (2 ^ 64 - 1)) 1

/-- INTERNAL: the points of every series, by key.
SRCLINE: model/graph.rs:295-350 -/
def project (store : GraphSeriesStore) (agg : AggMode) (metric : Metric)
    (xMaxSecs : WithTop ℚ) : Option (List SeriesProjection) :=
  if store.series.isEmpty ∨ store.windowNs = 0 then some []
  else
    let oldest := store.latestBinIdx - store.visibleBins xMaxSecs
    store.series.toList.mapM fun kv => store.projectSeries agg metric oldest kv.1 kv.2

end GraphSeriesStore

/-! ## The chart -/

/-- INTERNAL: what is drawn: the visible series with their colours, the bounds and the step of
the y axis, and the y values of the guides.
SRCLINE: view/graph.rs:398-427 -/
structure Chart where
  series : List (SeriesProjection × Color)
  yAxis : ℚ × ℚ × ℚ
  guides : List ℚ

/-- INTERNAL: `(lo.min(y), hi.max(y))`.
SRCLINE: view/graph.rs:418-420 -/
def widen (bounds : WithTop ℚ × WithBot ℚ) (y : ℚ) : WithTop ℚ × WithBot ℚ :=
  (min bounds.1 (y : WithTop ℚ), max bounds.2 (y : WithBot ℚ))

/-- INTERNAL: the least and the greatest of the values.
SRCLINE: view/graph.rs:415-420 -/
def rawBounds (ys : List ℚ) : WithTop ℚ × WithBot ℚ := ys.foldl widen (⊤, ⊥)

/-- INTERNAL: the chart pane; `colorIndexOf` is the hash of the locked stack and a key.
SRCLINE: view/graph.rs:368-427 -/
def renderGraph (colorIndexOf : List String → SeriesKey → ℕ) (gs : GraphState) (colorize : Bool) :
    Option Chart :=
  let xMaxSecs := max gs.lookbackSecs (gs.windowSecs : WithTop ℚ)
  (gs.store.project gs.aggregation gs.metric xMaxSecs).bind fun projections =>
    (assignSeriesColors seriesPalette.length (colorIndexOf gs.lockedStack)
      gs.alphaSeriesKeys).map fun colorSlots =>
      let series := (projections.filter fun p => p.key ∉ gs.hiddenSeries).map fun p =>
        (p, seriesColor (colorSlots[p.key]?.getD 0) colorize)
      let bounds := rawBounds (series.flatMap fun s => s.1.points.map Prod.snd)
      let axis := niceAxis bounds.1 bounds.2
      { series := series, yAxis := axis, guides := axisTicks axis.1 axis.2.1 axis.2.2 }

end TracingConsole.Model
