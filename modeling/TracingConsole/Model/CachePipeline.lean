import TracingConsole.Model.Pipeline

/-!
# A cache with its pipeline

The cache and what lies behind its buffers, as one machine: a step of the cache hands the span
it closed, or the event it recorded, to the buffer of the thread that called it.  A thread that
is flushing calls nothing else.
-/

set_option autoImplicit false

namespace TracingConsole.Model

open TracingConsole.Library

variable {T : Type} [DecidableEq T]

/-- INTERNAL: the thread that takes a step of the cache. -/
def CacheStep.thread : CacheStep T → T
  | .newSpan t .. => t
  | .predicate t _ => t
  | .allocate t _ => t
  | .pickShard t => t
  | .insert t _ => t
  | .store t => t
  | .finish t => t
  | .enter t _ => t
  | .exit t => t
  | .event t .. => t
  | .tryClose t .. => t

/-- INTERNAL: steps that do not come from the cache. -/
def PipelineStep.isTransport : PipelineStep T → Bool
  | .close .. => false
  | .emit .. => false
  | _ => true

/-- INTERNAL: the cache, its threads and its pipeline. -/
structure System (T : Type) where
  world : World T
  pipeline : Pipeline T

/-- INTERNAL: the steps of the whole. -/
inductive SystemStep (T : Type) where
  | cache (a : CacheStep T)
  | transport (a : PipelineStep T)
deriving DecidableEq

namespace System

/-- INTERNAL: a new cache and its driver.
SRCLINE: cache.rs:129-205 -/
def start (cache : SpanCache) (nextThreadKey : ℕ) (threadShardKey : T → ℕ)
    (cacheAddr capacity : ℕ) : System T where
  world := World.start cache nextThreadKey threadShardKey
  pipeline := Pipeline.start cacheAddr cache.pendingBatch capacity

/-- INTERNAL: the span a call closed and the event it recorded go to the buffers of its thread.
SRCLINE: cache.rs:513-520, cache.rs:559-562 -/
def handOver (p : Pipeline T) (t : T) (closed : List (T × SpanRecord))
    (events : List (EventCall × EventMessage)) : Pipeline T :=
  let closing := closed.foldl (fun p e => p.close t e.2) p
  events.foldl (fun p e => p.emit t e.2) closing

/-- INTERNAL: one step of the whole. -/
def step (s : System T) : SystemStep T → Option (System T)
  | .cache a =>
    if s.pipeline.flush a.thread = .idle then
      (s.world.step a).map fun world =>
        { world := world
          pipeline := handOver s.pipeline a.thread (world.closed.drop s.world.closed.length)
            (world.events.drop s.world.events.length) }
    else none
  | .transport a =>
    if a.isTransport then
      (s.pipeline.step a).map fun pipeline => { s with pipeline := pipeline }
    else none

end System

end TracingConsole.Model
