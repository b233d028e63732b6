import TracingConsole.Model.IdAllocator
import TracingConsole.Model.Pipeline

/-!
# Several caches in one process

Caches are created and dropped while threads use them.  The buffers of closed spans and of
events, the clones of the senders and the id cursor belong to the thread, not to the cache
(thread_state.rs:54-101): whichever cache a thread uses, it finds what it left there.

Caches are numbered as they are created.  An address is that of one live cache at a time; it
may be taken again once its cache is dropped.  A clone of a sender stays a sender of the
channels it was cloned from.
-/

set_option autoImplicit false

namespace TracingConsole.Model

/-- INTERNAL: a cache; `reserved` counts the ids reserved from it.
SRCLINE: cache.rs:71-106 -/
structure CacheInstance where
  addr : ℕ
  pendingBatch : ℕ
  idHighWater : ℕ
  alive : Bool
  reserved : ℕ
deriving DecidableEq

/-- INTERNAL: something on a channel: the cache it was recorded through, the cache whose
`flush_pending` sent it, and the cache whose channel it is on. -/
structure Shipped (α : Type) where
  recordedThrough : ℕ
  flushedThrough : ℕ
  channel : ℕ
  item : α
deriving DecidableEq

/-- INTERNAL: the caches and the state of the threads.  `cloned` says of which cache's senders a
clone is; `fetched` holds for a thread between its `fetch_add` and the write of its cursor the
cache and the start of the batch.  `batchOf` (the cache a thread's latest id batch was reserved
from), `ids`, `spansSent` and `eventsSent` are histories.
SRCLINE: thread_state.rs:54-101 -/
structure Process (T : Type) where
  caches : List CacheInstance
  idCursor : T → ℕ
  fetched : T → Option (ℕ × ℕ)
  pendingSpan : T → List (ℕ × SpanRecord)
  pendingEvent : T → List (ℕ × EventMessage)
  threadSenders : T → Option ThreadSenders
  cloned : List ℕ
  batchOf : T → Option ℕ
  ids : List (ℕ × ℕ)
  spansSent : List (Shipped SpanRecord)
  eventsSent : List (Shipped EventMessage)

/-- INTERNAL: the steps.  `full` says which of the two channels is full when the call
flushes. -/
inductive ProcessStep (T : Type) where
  | create (addr pendingBatch : ℕ)
  | drop (c : ℕ)
  | allocate (t : T) (c : ℕ)
  | close (t : T) (c : ℕ) (record : SpanRecord) (full : Bool × Bool)
  | event (t : T) (c : ℕ) (msg : EventMessage) (full : Bool × Bool)
  | flushPending (t : T) (c : ℕ) (full : Bool × Bool)
deriving DecidableEq

namespace Process

variable {T : Type} [DecidableEq T]

/-- INTERNAL: no cache yet. -/
def start : Process T where
  caches := []
  idCursor := fun _ => 0
  fetched := fun _ => none
  pendingSpan := fun _ => []
  pendingEvent := fun _ => []
  threadSenders := fun _ => none
  cloned := []
  batchOf := fun _ => none
  ids := []
  spansSent := []
  eventsSent := []

/-- INTERNAL: a cache that was created and not dropped. -/
def live (p : Process T) (c : ℕ) : Option CacheInstance :=
  (p.caches[c]?).filter fun cache => cache.alive

/-- INTERNAL: a new cache.
SRCLINE: cache.rs:129-205 -/
def create (p : Process T) (addr pendingBatch : ℕ) : Process T :=
  { p with
    caches := p.caches ++
      [{ addr := addr, pendingBatch := pendingBatch, idHighWater := idBatch, alive := true,
         reserved := 0 }] }

/-- INTERNAL: a cache is dropped; nothing of a thread's state is. -/
def drop (p : Process T) (c : ℕ) : Process T :=
  { p with caches := p.caches.modify c fun cache => { cache with alive := false } }

/-- INTERNAL: the allocator of a cache, as a thread finds it.
SRCLINE: cache.rs:208-226 -/
def allocator (p : Process T) (cache : CacheInstance) : Allocator T where
  idHighWater := cache.idHighWater
  idCursor := p.idCursor
  fetched := fun t => (p.fetched t).map Prod.snd

/-- INTERNAL: an atomic step of an allocation.
SRCLINE: cache.rs:208-226 -/
def allocate (p : Process T) (t : T) (c : ℕ) (cache : CacheInstance) : Process T :=
  match (p.allocator cache).advance t with
  | (after, some id) =>
    { p with
      idCursor := after.idCursor
      fetched := Function.update p.fetched t none
      ids := p.ids ++ [(c, id)] }
  | (after, none) =>
    { p with
      caches := p.caches.set c
        { cache with
          idHighWater := after.idHighWater
          reserved := cache.reserved + idBatch }
      fetched := Function.update p.fetched t (some (c, cache.idHighWater))
      batchOf := Function.update p.batchOf t (some c) }

/-- INTERNAL: the thread's senders after the check of `flush_pending`, with a new clone if it
makes one.
SRCLINE: cache.rs:306-317 -/
def ensureSenders (p : Process T) (t : T) (c : ℕ) (cache : CacheInstance) :
    ThreadSenders × List ℕ :=
  match p.threadSenders t with
  | some senders =>
    if ThreadSenders.needsInit (some senders) cache.addr then
      ({ cacheAddr := cache.addr, clone := p.cloned.length }, p.cloned ++ [c])
    else (senders, p.cloned)
  | none => ({ cacheAddr := cache.addr, clone := p.cloned.length }, p.cloned ++ [c])

/-- INTERNAL: a drained buffer on the channel of a clone; a full channel takes nothing.
SRCLINE: cache.rs:324-335 -/
def ship {α : Type} (full : Bool) (c channel : ℕ) (pending : List (ℕ × α)) : List (Shipped α) :=
  if full then []
  else pending.map fun e =>
    { recordedThrough := e.1, flushedThrough := c, channel := channel, item := e.2 }

/-- INTERNAL: a whole `flush_pending`: the buffers and the clones are the thread's own, so it is
one step here.
SRCLINE: cache.rs:298-336 -/
def flushPending (p : Process T) (t : T) (c : ℕ) (cache : CacheInstance) (full : Bool × Bool) :
    Process T :=
  let (senders, cloned) := p.ensureSenders t c cache
  -- a clone is always listed
  let channel := (cloned[senders.clone]?).getD c
  { p with
    threadSenders := Function.update p.threadSenders t (some senders)
    cloned := cloned
    pendingSpan := Function.update p.pendingSpan t []
    pendingEvent := Function.update p.pendingEvent t []
    eventsSent := p.eventsSent ++ ship full.1 c channel (p.pendingEvent t)
    spansSent := p.spansSent ++ ship full.2 c channel (p.pendingSpan t) }

/-- INTERNAL: the end of `try_close`.
SRCLINE: cache.rs:559-562 -/
def close (p : Process T) (t : T) (c : ℕ) (cache : CacheInstance) (record : SpanRecord)
    (full : Bool × Bool) : Process T :=
  let pending := p.pendingSpan t ++ [(c, record)]
  let pushed := { p with pendingSpan := Function.update p.pendingSpan t pending }
  if cache.pendingBatch ≤ pending.length then pushed.flushPending t c cache full else pushed

/-- INTERNAL: the end of `event`.
SRCLINE: cache.rs:513-520 -/
def event (p : Process T) (t : T) (c : ℕ) (cache : CacheInstance) (msg : EventMessage)
    (full : Bool × Bool) : Process T :=
  let pending := p.pendingEvent t ++ [(c, msg)]
  let pushed := { p with pendingEvent := Function.update p.pendingEvent t pending }
  if cache.pendingBatch ≤ pending.length then pushed.flushPending t c cache full else pushed

/-- INTERNAL: one step.  Only live caches are used; a thread in an allocation does nothing
else. -/
def step (p : Process T) : ProcessStep T → Option (Process T)
  | .create addr pendingBatch =>
    if p.caches.any fun cache => cache.alive && cache.addr == addr then none
    else some (p.create addr pendingBatch)
  | .drop c => (p.live c).map fun _ => p.drop c
  | .allocate t c =>
    match p.live c with
    | some cache =>
      match p.fetched t with
      | none => some (p.allocate t c cache)
      | some (c', _) => if c' = c then some (p.allocate t c cache) else none
    | none => none
  | .close t c record full =>
    match p.live c, p.fetched t with
    | some cache, none => some (p.close t c cache record full)
    | _, _ => none
  | .event t c msg full =>
    match p.live c, p.fetched t with
    | some cache, none => some (p.event t c cache msg full)
    | _, _ => none
  | .flushPending t c full =>
    match p.live c, p.fetched t with
    | some cache, none => some (p.flushPending t c cache full)
    | _, _ => none

end Process

end TracingConsole.Model
