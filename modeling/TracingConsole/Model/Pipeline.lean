import TracingConsole.Library.SenderQueue
import TracingConsole.Model.CacheThreads
import TracingConsole.Model.Driver

/-!
# From a thread's buffers to the subscribers

A closed span waits in its thread's buffer, goes over the span channel in the thread's next
flush, is joined with its events by the driver and sent to the subscribers.  A flush is two
steps (cache.rs:298-336): the events are sent, then the spans.  The driver polls the event
channel, and the span channel only when it found the event channel empty (driver.rs:64-87).
Any number of steps of other threads may come between two of these.

A channel takes a batch or reports that it is full; which of the two is part of the step, and
so is the order in which the driver is given the messages of different senders.
-/

set_option autoImplicit false

namespace TracingConsole.Model

open TracingConsole.Library

/-- INTERNAL: a thread's clones of a cache's senders; `clone` numbers the clones made.
SRCLINE: thread_state.rs:45-52 -/
structure ThreadSenders where
  cacheAddr : ℕ
  clone : ℕ
deriving DecidableEq

/-- INTERNAL: the senders are made on first use, and again for another address.
SRCLINE: cache.rs:308-309 -/
def ThreadSenders.needsInit (slot : Option ThreadSenders) (cacheAddr : ℕ) : Bool :=
  match slot with
  | some senders => senders.cacheAddr != cacheAddr
  | none => true

/-- INTERNAL: where a thread is in `flush_pending`.
SRCLINE: cache.rs:318-335 -/
inductive Flush where
  | idle
  /-- the events are next -/
  | events
  /-- the spans are next -/
  | spans
deriving DecidableEq

/-- INTERNAL: the channel the driver polls next.
SRCLINE: driver.rs:64-82 -/
inductive Poll where
  | events | spans
deriving DecidableEq

/-- INTERNAL: a span on its channel, and how many events had been sent before it. -/
structure SentSpan (T : Type) where
  thread : T
  record : SpanRecord
  eventsSent : ℕ
deriving DecidableEq

/-- INTERNAL: a span the driver took, and how many events had been sent by the last poll of
the event channel. -/
structure TakenSpan (T : Type) where
  thread : T
  record : SpanRecord
  eventsSent : ℕ
  eventsPolled : ℕ
deriving DecidableEq

/-- INTERNAL: a drained span buffer, and whether the channel accepted it. -/
structure SpanBatch (T : Type) where
  thread : T
  records : List SpanRecord
  accepted : Bool
deriving DecidableEq

/-- INTERNAL: one cache's pipeline.  `closed`, `batches`, `eventsSent`, `eventsRejected` and
`taken` are histories, oldest first; `registered` holds for every subscription how many spans
had been fanned out by then, `dropped` the subscriptions whose receiver is gone, `eventsPolled`
how many events had been sent when the event channel was last found empty. -/
structure Pipeline (T : Type) where
  cacheAddr : ℕ
  pendingBatch : ℕ
  capacity : ℕ
  pendingSpan : T → List SpanRecord
  pendingEvent : T → List EventMessage
  threadSenders : T → Option ThreadSenders
  clones : ℕ
  flush : T → Flush
  eventChannel : List (ℕ × EventMessage)
  spanChannel : List (ℕ × SentSpan T)
  poll : Poll
  join : EventJoin
  subscribers : List Subscriber
  registered : List ℕ
  dropped : List ℕ
  closed : List (T × SpanRecord)
  batches : List (SpanBatch T)
  eventsSent : List EventMessage
  eventsRejected : List EventMessage
  eventsPolled : ℕ
  taken : List (TakenSpan T)

/-- INTERNAL: the steps of the pipeline.  `full` is what the channel answers; `clones` says
whose messages the driver is given, in order, and `slow` which subscribers are full. -/
inductive PipelineStep (T : Type) where
  | close (t : T) (record : SpanRecord)
  | emit (t : T) (msg : EventMessage)
  | flushPending (t : T)
  | sendEvents (t : T) (full : Bool)
  | sendSpans (t : T) (full : Bool)
  | pollEvents (clones : List ℕ)
  | pollSpans (clones slow : List ℕ)
  | subscribe
  | dropReceiver (n : ℕ)
deriving DecidableEq

namespace Pipeline

variable {T : Type} [DecidableEq T]

/-- INTERNAL: the pipeline of a new cache.
SRCLINE: cache.rs:157-196 -/
def start (cacheAddr pendingBatch capacity : ℕ) : Pipeline T where
  cacheAddr := cacheAddr
  pendingBatch := pendingBatch
  capacity := capacity
  pendingSpan := fun _ => []
  pendingEvent := fun _ => []
  threadSenders := fun _ => none
  clones := 0
  flush := fun _ => .idle
  eventChannel := []
  spanChannel := []
  poll := .events
  join := EventJoin.new
  subscribers := []
  registered := []
  dropped := []
  closed := []
  batches := []
  eventsSent := []
  eventsRejected := []
  eventsPolled := 0
  taken := []

/-! ## Threads -/

/-- INTERNAL: `flush_pending` up to the sends.
SRCLINE: cache.rs:302-318 -/
def startFlush (p : Pipeline T) (t : T) : Pipeline T :=
  let flushing := { p with flush := Function.update p.flush t .events }
  if ThreadSenders.needsInit (p.threadSenders t) p.cacheAddr then
    { flushing with
      threadSenders := Function.update p.threadSenders t
        (some { cacheAddr := p.cacheAddr, clone := p.clones })
      clones := p.clones + 1 }
  else flushing

/-- INTERNAL: the end of `try_close`: the record goes to the thread's buffer.
SRCLINE: cache.rs:559-562 -/
def close (p : Pipeline T) (t : T) (record : SpanRecord) : Pipeline T :=
  let pending := p.pendingSpan t ++ [record]
  let pushed :=
    { p with
      pendingSpan := Function.update p.pendingSpan t pending
      closed := p.closed ++ [(t, record)] }
  if p.pendingBatch ≤ pending.length then pushed.startFlush t else pushed

/-- INTERNAL: the end of `event`: the message goes to the thread's buffer.
SRCLINE: cache.rs:513-520 -/
def emit (p : Pipeline T) (t : T) (msg : EventMessage) : Pipeline T :=
  let pending := p.pendingEvent t ++ [msg]
  let pushed := { p with pendingEvent := Function.update p.pendingEvent t pending }
  if p.pendingBatch ≤ pending.length then pushed.startFlush t else pushed

/-- INTERNAL: the first send of a flush; an empty buffer is not sent.
SRCLINE: cache.rs:324-329 -/
def sendEvents (p : Pipeline T) (t : T) (clone : ℕ) (full : Bool) : Pipeline T :=
  let batch := p.pendingEvent t
  let drained :=
    { p with
      pendingEvent := Function.update p.pendingEvent t []
      flush := Function.update p.flush t .spans }
  if batch.isEmpty then drained
  else if full then { drained with eventsRejected := p.eventsRejected ++ batch }
  else
    { drained with
      eventChannel := p.eventChannel ++ batch.map fun msg => (clone, msg)
      eventsSent := p.eventsSent ++ batch }

/-- INTERNAL: the second send of a flush.
SRCLINE: cache.rs:330-335 -/
def sendSpans (p : Pipeline T) (t : T) (clone : ℕ) (full : Bool) : Pipeline T :=
  let batch := p.pendingSpan t
  let drained :=
    { p with
      pendingSpan := Function.update p.pendingSpan t []
      flush := Function.update p.flush t .idle }
  if batch.isEmpty then drained
  else
    let logged :=
      { drained with
        batches := p.batches ++ [{ thread := t, records := batch, accepted := !full }] }
    if full then logged
    else
      { logged with
        spanChannel := p.spanChannel ++ batch.map fun record =>
          (clone, { thread := t, record := record, eventsSent := p.eventsSent.length }) }

/-! ## The driver -/

/-- INTERNAL: the event channel is polled.
SRCLINE: driver.rs:66-73 -/
def pollEvents (p : Pipeline T) (clones : List ℕ) : Option (Pipeline T) :=
  if p.eventChannel.isEmpty then
    if clones.isEmpty then some { p with poll := .spans, eventsPolled := p.eventsSent.length }
    else none
  else if clones.isEmpty then none
  else
    (takeAll clones p.eventChannel).map fun r =>
      { p with
        eventChannel := r.2
        join := p.join.flush p.capacity (.events (r.1.map Prod.snd)) }

/-- INTERNAL: the span channel is polled.
SRCLINE: driver.rs:74-81 -/
def pollSpans (p : Pipeline T) (clones slow : List ℕ) : Option (Pipeline T) :=
  if p.spanChannel.isEmpty then
    if clones.isEmpty then some { p with poll := .events } else none
  else if clones.isEmpty then none
  else
    (takeAll clones p.spanChannel).map fun r =>
      let batch := r.1.map fun e => e.2.record
      let (_, subscribers, _) :=
        Driver.flushSpanBatch (fun n => n ∈ slow) p.join.side p.subscribers batch
      { p with
        spanChannel := r.2
        poll := .events
        join := p.join.flush p.capacity (.spans batch)
        subscribers := subscribers
        taken := p.taken ++ r.1.map fun e =>
          { thread := e.2.thread, record := e.2.record, eventsSent := e.2.eventsSent,
            eventsPolled := p.eventsPolled } }

/-! ## Subscribers -/

/-- INTERNAL: a new subscriber.
SRCLINE: cache.rs:283-292 -/
def subscribe (p : Pipeline T) : Pipeline T :=
  { p with
    subscribers := p.subscribers ++
      [{ number := p.registered.length, dropped := false, delivered := [], reportedFull := false }]
    registered := p.registered ++ [p.join.fannedOut.length] }

/-- INTERNAL: a subscriber drops its receiver. -/
def dropReceiver (p : Pipeline T) (n : ℕ) : Pipeline T :=
  { p with
    subscribers := p.subscribers.map fun sender =>
      if sender.number = n then { sender with dropped := true } else sender
    dropped := p.dropped ++ [n] }

/-- INTERNAL: one step, if the thread or the driver is where the step needs it. -/
def step (p : Pipeline T) : PipelineStep T → Option (Pipeline T)
  | .close t record => if p.flush t = .idle then some (p.close t record) else none
  | .emit t msg => if p.flush t = .idle then some (p.emit t msg) else none
  | .flushPending t => if p.flush t = .idle then some (p.startFlush t) else none
  | .sendEvents t full =>
    match p.flush t, p.threadSenders t with
    | .events, some senders => some (p.sendEvents t senders.clone full)
    | _, _ => none
  | .sendSpans t full =>
    match p.flush t, p.threadSenders t with
    | .spans, some senders => some (p.sendSpans t senders.clone full)
    | _, _ => none
  | .pollEvents clones => if p.poll = .events then p.pollEvents clones else none
  | .pollSpans clones slow => if p.poll = .spans then p.pollSpans clones slow else none
  | .subscribe => some p.subscribe
  | .dropReceiver n => if n < p.registered.length then some (p.dropReceiver n) else none

end Pipeline

end TracingConsole.Model
