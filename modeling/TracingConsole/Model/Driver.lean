import TracingConsole.Library.KeyedTable
import TracingConsole.Model.Record

/-!
# The driver

The driver's batches (driver.rs): events are parked by the id of their span, a span takes
along the events parked for it, and prepared spans are sent to every live subscriber.

A subscriber is the driver's sender of its channel together with what was sent on it.  The
channel may report that it is full whenever a batch is sent, and it reports that it is closed
once its receiver is dropped.
-/

set_option autoImplicit false

namespace TracingConsole.Model

open Std (ExtTreeMap)
open TracingConsole.Library

/-- INTERNAL: events waiting for their span, by its id.
SRCLINE: driver.rs:42-44 -/
abbrev SideEvents := ExtTreeMap ℕ (List EventRecord)

/-- INTERNAL: a subscriber's sender; `number` counts the subscriptions, `delivered` is what
its channel accepted, `reportedFull` whether it ever reported `Full`.
SRCLINE: cache.rs:283-292, driver.rs:45-48 -/
structure Subscriber where
  number : ℕ
  dropped : Bool
  delivered : List SpanRecord
  reportedFull : Bool
deriving DecidableEq

namespace Driver

/-! ## Events -/

/-- INTERNAL: the buffer after making room for a new parent.
SRCLINE: driver.rs:155-163 -/
def makeRoom (side : SideEvents) (capacity : ℕ) : SideEvents :=
  if capacity ≤ side.size then
    match popFirst side with
    | some (_, _, rest) => rest
    | none => side
  else side

/-- INTERNAL: one event of a batch.
SRCLINE: driver.rs:145-165 -/
def parkEvent (capacity : ℕ) (side : SideEvents) (msg : EventMessage) : SideEvents :=
  match side[msg.parentActualId]? with
  | some events => side.insert msg.parentActualId (events ++ [msg.record])
  | none => (makeRoom side capacity).insert msg.parentActualId [msg.record]

/-- INTERNAL: an event batch.
SRCLINE: driver.rs:137-166 -/
def flushEventBatch (side : SideEvents) (capacity : ℕ) (batch : List EventMessage) :
    SideEvents :=
  if batch.isEmpty then side else batch.foldl (parkEvent capacity) side

/-! ## Spans -/

/-- INTERNAL: one span of a batch.
SRCLINE: driver.rs:125-130 -/
def attachParked (anySide : Bool) (side : SideEvents) (span : SpanRecord) :
    SideEvents × SpanRecord :=
  if anySide then
    match side[span.id]? with
    | some events => (side.erase span.id, { span with events := span.events ++ events })
    | none => (side, span)
  else (side, span)

/-- INTERNAL: the spans of a batch, with the events parked for them.
SRCLINE: driver.rs:120-131 -/
def prepareSpans (side : SideEvents) (batch : List SpanRecord) : SideEvents × List SpanRecord :=
  let anySide := !side.isEmpty
  batch.foldl
    (fun (acc : SideEvents × List SpanRecord) span =>
      let next := attachParked anySide acc.1 span
      (next.1, acc.2 ++ [next.2]))
    (side, [])

/-- INTERNAL: what a subscriber's channel answers to a batch.
SRCLINE: driver.rs:178-186 -/
inductive SendResult where
  | ok | closed | full
deriving DecidableEq

/-- INTERNAL: send a batch to one subscriber, all of it or nothing.
SRCLINE: driver.rs:178 -/
def sendMany (full : ℕ → Bool) (prepared : List SpanRecord) (sender : Subscriber) :
    SendResult × Subscriber :=
  if full sender.number then (.full, { sender with reportedFull := true })
  else if sender.dropped then (.closed, sender)
  else (.ok, { sender with delivered := sender.delivered ++ prepared })

/-- INTERNAL: send the prepared spans to every subscriber and drop the closed ones.
SRCLINE: driver.rs:168-187 -/
def fanoutUnderLock (full : ℕ → Bool) (subs : List Subscriber) (prepared : List SpanRecord) :
    List Subscriber :=
  if prepared.isEmpty then subs
  else
    subs.filterMap fun sender =>
      match sendMany full prepared sender with
      | (.ok, sender) => some sender
      | (.closed, _) => none
      | (.full, sender) => some sender

/-- INTERNAL: a span batch; the prepared spans are returned for the history.
SRCLINE: driver.rs:115-135 -/
def flushSpanBatch (full : ℕ → Bool) (side : SideEvents) (subs : List Subscriber)
    (batch : List SpanRecord) : SideEvents × List Subscriber × List SpanRecord :=
  if batch.isEmpty then (side, subs, [])
  else
    let (side, prepared) := prepareSpans side batch
    (side, fanoutUnderLock full subs prepared, prepared)

/-! ## The history of the join -/

/-- INTERNAL: the bucket dropped when an event is parked.
SRCLINE: driver.rs:155-162 -/
def evictedBy (capacity : ℕ) (side : SideEvents) (msg : EventMessage) :
    Option (ℕ × List EventRecord) :=
  match side[msg.parentActualId]? with
  | some _ => none
  | none => if capacity ≤ side.size then (popFirst side).map fun e => (e.1, e.2.1) else none

/-- INTERNAL: the buckets dropped by an event batch, in order. -/
def discardedBy (capacity : ℕ) : SideEvents → List EventMessage → List (ℕ × List EventRecord)
  | _, [] => []
  | side, msg :: batch =>
    (evictedBy capacity side msg).toList ++ discardedBy capacity (parkEvent capacity side msg) batch

end Driver

/-- INTERNAL: a span as it came to the driver and as it was sent on, with how many events had
been received and how many buckets discarded by then. -/
structure Joined where
  arrived : SpanRecord
  sent : SpanRecord
  received : ℕ
  discarded : ℕ
deriving DecidableEq

/-- INTERNAL: the event buffer with the history of the join, oldest first. -/
structure EventJoin where
  side : SideEvents
  received : List EventMessage
  discarded : List (ℕ × List EventRecord)
  joined : List Joined
  fannedOut : List SpanRecord

/-- INTERNAL: a batch from one of the two channels.
SRCLINE: driver.rs:51-87 -/
inductive DriverBatch where
  | events (batch : List EventMessage)
  | spans (batch : List SpanRecord)
deriving DecidableEq

namespace EventJoin

/-- INTERNAL: a new driver.
SRCLINE: cache.rs:188-195 -/
def new : EventJoin where
  side := ∅
  received := []
  discarded := []
  joined := []
  fannedOut := []

/-- INTERNAL: one batch. -/
def flush (capacity : ℕ) (s : EventJoin) : DriverBatch → EventJoin
  | .events batch =>
    { s with
      side := Driver.flushEventBatch s.side capacity batch
      received := s.received ++ batch
      discarded := s.discarded ++ Driver.discardedBy capacity s.side batch }
  | .spans batch =>
    -- the subscribers have no part in the join
    let (side, _, prepared) := Driver.flushSpanBatch (fun _ => false) s.side [] batch
    { s with
      side := side
      joined := s.joined ++ List.zipWith
        (fun arrived sent =>
          { arrived := arrived
            sent := sent
            received := s.received.length
            discarded := s.discarded.length })
        batch prepared
      fannedOut := s.fannedOut ++ prepared }

/-- INTERNAL: the batches in the order the driver takes them. -/
def flushAll (capacity : ℕ) (batches : List DriverBatch) : EventJoin :=
  batches.foldl (flush capacity) new

end EventJoin

end TracingConsole.Model
