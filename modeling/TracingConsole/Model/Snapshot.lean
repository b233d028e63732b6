import TracingConsole.Model.Aggregate

/-!
# Snapshots of the aggregator

What is stored of an aggregator, and how one is made of it again (state.rs:521-563).  The value
itself is taken to survive its encoding.
-/

set_option autoImplicit false

namespace TracingConsole.Model

open Std (ExtTreeMap)

/-- INTERNAL: SRCLINE: state.rs:521-527 -/
structure AggregatorSnapshot where
  spansInOrder : List WireSpan
  pending : ExtTreeMap ℕ (List WireSpan)
  splitKeys : Finset String
  historyBudget : ℕ
deriving DecidableEq

namespace Aggregator

/-- INTERNAL: SRCLINE: state.rs:529-544 -/
def serialize (a : Aggregator) : AggregatorSnapshot where
  spansInOrder := a.ringEntries.map Entry.span
  pending := a.pending
  splitKeys := a.splitKeys
  historyBudget := a.historyBudget

/-- INTERNAL: park the spans of one missing parent.
SRCLINE: state.rs:557-559 -/
def parkAll (a : Aggregator) (pid : ℕ) (waiters : List WireSpan) : Aggregator :=
  waiters.foldl (fun agg w => agg.parkPending pid w) a

/-- INTERNAL: absorb the spans in order, then park the pending ones; `none` when an absorption
does not return.
SRCLINE: state.rs:546-563 -/
def deserialize (snap : AggregatorSnapshot) : Option Aggregator :=
  let agg : Aggregator := { new snap.historyBudget with splitKeys := snap.splitKeys }
  let absorbed : Option Aggregator :=
    snap.spansInOrder.foldlM (fun agg span => (absorb agg span).map Prod.fst) agg
  absorbed.map fun agg => snap.pending.toList.foldl (fun agg kv => parkAll agg kv.1 kv.2) agg

end Aggregator

end TracingConsole.Model
