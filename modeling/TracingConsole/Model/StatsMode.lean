import TracingConsole.Model.Console
import TracingConsole.Model.TreeLabel

/-!
# The stats mode

What `--mode stats` keeps of the updates (stats.rs:52-100) and what it prints of it at a tick
(stats.rs:102-166), as numbers and names; `absorb` is given the time `Instant::now()` reads.
-/

set_option autoImplicit false

namespace TracingConsole.Model

/-- INTERNAL: SRCLINE: stats.rs:52-59 -/
structure StatsAccumulator where
  agg : Aggregator
  lastStatus : Option String
  connected : Bool
  rate : RateTracker
  totalReceived : ℕ
  totalDroppedUnfinished : ℕ

/-- INTERNAL: what one flush prints; the spans still open are counted only where there are no
rows to print.
SRCLINE: stats.rs:102-166 -/
structure StatsFrame where
  buffered : ℕ
  rateHz : ℚ
  received : ℕ
  status : String
  droppedOpen : Option ℕ
  labels : List String
  rows : List (BucketKey × StackStats)

namespace StatsAccumulator

/-- INTERNAL: SRCLINE: stats.rs:62-71 -/
def new (historyBudget : ℕ) : StatsAccumulator where
  agg := Aggregator.new historyBudget
  lastStatus := none
  connected := false
  rate := RateTracker.default
  totalReceived := 0
  totalDroppedUnfinished := 0

/-- INTERNAL: a span is counted, and absorbed if it is closed.
SRCLINE: stats.rs:75-83 -/
def spanReceived (now : ℕ) (acc : StatsAccumulator) (span : WireSpan) : Option StatsAccumulator :=
  let acc := { acc with totalReceived := acc.totalReceived + 1, rate := acc.rate.record now }
  if span.closedAtNs.isNone then
    some { acc with totalDroppedUnfinished := acc.totalDroppedUnfinished + 1 }
  else (acc.agg.absorb span).map fun r => { acc with agg := r.1 }

/-- INTERNAL: SRCLINE: stats.rs:73-100 -/
def absorb (now : ℕ) (acc : StatsAccumulator) : Update → Option StatsAccumulator
  | .spanReceived span => acc.spanReceived now span
  | .connected => some { acc with connected := true, lastStatus := none }
  | .disconnected reason => some { acc with connected := false, lastStatus := some reason }
  | .status s => some { acc with lastStatus := some s }
  | _ => some acc

/-- INTERNAL: SRCLINE: stats.rs:107-114 -/
def headerStatus (acc : StatsAccumulator) : String :=
  if acc.connected then "[connected]"
  else
    match acc.lastStatus with
    | some s => "[" ++ s ++ "]"
    | none => "[disconnected]"

/-- INTERNAL: SRCLINE: stats.rs:102-166 -/
def flush (acc : StatsAccumulator) : StatsFrame where
  buffered := acc.agg.order.length
  rateHz := acc.rate.rateHz
  received := acc.totalReceived
  status := acc.headerStatus
  droppedOpen := if acc.agg.rows = [] then some acc.totalDroppedUnfinished else none
  labels := (List.finRange acc.agg.rows.length).map (treeLabel acc.agg.rows)
  rows := acc.agg.rows

end StatsAccumulator

end TracingConsole.Model
