import TracingConsole.Model.Aggregate

/-!
# The trace tree

The rows of a trace (explore.rs:155-233): the spans of the ring are indexed by parent, and
`walkTrace` goes down from the root, a span's events and children in the order of their
times.  It recurses as deep as the tree is; with as many levels as the ring has spans, and
one more, running out of fuel means that a span has come up below itself and that the walk
does not end.
-/

set_option autoImplicit false

namespace TracingConsole.Model

open Std (ExtTreeMap)

/-- INTERNAL: SRCLINE: explore.rs:139-153 -/
inductive TraceRow where
  | span (id depth : ℕ) (hasChildren expanded : Bool)
  | event (parentId idx depth : ℕ)
deriving DecidableEq

/-- INTERNAL: what is interleaved below a span.
SRCLINE: explore.rs:201-205 -/
inductive TraceItem where
  | event (idx recordedAtNs : ℕ)
  | child (id openedAtNs : ℕ)

/-- INTERNAL: SRCLINE: explore.rs:214-216 -/
def TraceItem.time : TraceItem → ℕ
  | .event _ t => t
  | .child _ t => t

/-- INTERNAL: the spans of a ring by id, and the ids of the children by parent.
SRCLINE: explore.rs:161-162 -/
structure TraceIndex where
  byParent : ExtTreeMap ℕ (List ℕ)
  spanById : ExtTreeMap ℕ WireSpan

namespace TraceIndex

/-- INTERNAL: SRCLINE: explore.rs:163-168 -/
def push (index : TraceIndex) (s : WireSpan) : TraceIndex where
  spanById := index.spanById.insert s.id s
  byParent := match s.parentId with
    | none => index.byParent
    | some p => index.byParent.insert p (index.byParent.getD p [] ++ [s.id])

/-- INTERNAL: SRCLINE: explore.rs:161-168 -/
def ofSpans (spans : List WireSpan) : TraceIndex := spans.foldl push ⟨∅, ∅⟩

/-- INTERNAL: SRCLINE: explore.rs:170, 211 -/
def openedAt (index : TraceIndex) (id : ℕ) : ℕ :=
  (index.spanById[id]?.map WireSpan.openedAtNs).getD 0

/-- INTERNAL: the children of a span, by the time they were opened.
SRCLINE: explore.rs:169-171 -/
def kids (index : TraceIndex) (id : ℕ) : List ℕ :=
  (index.byParent.getD id []).insertionSort fun a b => index.openedAt a ≤ index.openedAt b

/-- INTERNAL: the events and the children of a span, by time, events first.
SRCLINE: explore.rs:206-216 -/
def items (index : TraceIndex) (span : WireSpan) : List TraceItem :=
  ((span.events.mapIdx fun i e => TraceItem.event i e.recordedAtNs) ++
    (index.kids span.id).map fun id => TraceItem.child id (index.openedAt id)).insertionSort
      fun a b => a.time ≤ b.time

end TraceIndex

/-- INTERNAL: the rows of a span and what is below it, to the depth `fuel`.
SRCLINE: explore.rs:181-233 -/
def walkTrace (index : TraceIndex) (collapsed : Finset ℕ) :
    ℕ → WireSpan → ℕ → Option (List TraceRow)
  | 0, _, _ => none
  | fuel + 1, span, depth =>
    let hasChildren := !(index.kids span.id).isEmpty || !span.events.isEmpty
    let expanded := decide (span.id ∉ collapsed)
    let row := TraceRow.span span.id depth hasChildren expanded
    if expanded then
      (index.items span).foldlM
        (fun out item =>
          match item with
          | .event idx _ => some (out ++ [.event span.id idx (depth + 1)])
          | .child id _ =>
            match index.spanById[id]? with
            | none => some out
            | some child =>
              (walkTrace index collapsed fuel child (depth + 1)).map fun rows => out ++ rows)
        [row]
    else some [row]

/-- INTERNAL: the rows of the trace below `rootId`, none when that is not in the ring.
SRCLINE: explore.rs:155-178 -/
def visibleTraceRows (a : Aggregator) (rootId : ℕ) (collapsed : Finset ℕ) :
    Option (List TraceRow) :=
  let index := TraceIndex.ofSpans (a.iterWithStack.map Prod.fst)
  match index.spanById[rootId]? with
  | none => some []
  | some root => walkTrace index collapsed (a.len + 1) root 0

end TracingConsole.Model
