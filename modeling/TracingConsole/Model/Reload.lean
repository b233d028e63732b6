import TracingConsole.Model.Apply
import TracingConsole.Model.Snapshot

/-!
# A model read back

`Model` derives `Serialize` and `Deserialize` (core.rs:219-306, graph.rs:540-592).  A skipped
field comes back as its default; every other value is taken to survive its encoding, the
aggregator by way of its snapshot.
-/

set_option autoImplicit false

namespace TracingConsole.Model

/-- INTERNAL: the derived default.
SRCLINE: graph.rs:196-215 -/
def GraphSeriesStore.default : GraphSeriesStore :=
  { originNs := 0, windowNs := 0, latestBinIdx := 0, series := ∅ }

/-- INTERNAL: the store of a graph is skipped.
SRCLINE: graph.rs:586-592 -/
def ViewMode.reload : ViewMode → ViewMode
  | .graph gs => .graph { gs with store := GraphSeriesStore.default }
  | view => view

/-- INTERNAL: the quit prompt and the rate are skipped; `none` when the replay of the ring does
not return.
SRCLINE: core.rs:219-306, state.rs:529-563 -/
def ConsoleModel.reload (m : ConsoleModel) : Option ConsoleModel :=
  (Aggregator.deserialize m.agg.serialize).map fun agg =>
    { m with
      agg := agg
      quitConfirmDeadline := none
      view := m.view.reload
      rate := RateTracker.default }

end TracingConsole.Model
