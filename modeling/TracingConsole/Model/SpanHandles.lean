import TracingConsole.Model.CacheThreads

/-!
# Span handles

A `tracing::Span` is a handle on an id: cloning one calls `clone_span`, which the cache
leaves at the trait's default (the same id, nothing counted), and dropping one calls
`try_close`.  `HandleWorld` is a cache with its threads and the number of live handles of
each id returned.
-/

set_option autoImplicit false

namespace TracingConsole.Model

/-- INTERNAL: `handles` has the number of live handles of the `n`-th id returned. -/
structure HandleWorld (T : Type) where
  world : World T
  handles : List ℕ

/-- INTERNAL: a step of a thread inside a subscriber method, or on a handle. -/
inductive HandleStep (T : Type) where
  | cache (a : CacheStep T)
  | clone (n : ℕ)
  | drop (t : T) (n now : ℕ)
deriving DecidableEq

namespace HandleWorld

variable {T : Type} [DecidableEq T]

/-- INTERNAL: a new cache.
SRCLINE: cache.rs:125-196 -/
def start (cache : SpanCache) (nextThreadKey : ℕ) (threadShardKey : T → ℕ) : HandleWorld T where
  world := World.start cache nextThreadKey threadShardKey
  handles := []

/-- INTERNAL: an id returned comes with one handle; `try_close` is called by dropping handles
alone.
SRCLINE: cache.rs:341-450, cache.rs:542-567 -/
def step (s : HandleWorld T) : HandleStep T → Option (HandleWorld T)
  | .cache (.tryClose ..) => none
  | .cache a =>
    (s.world.step a).map fun w =>
      { world := w
        handles := s.handles ++ List.replicate (w.spans.length - s.world.spans.length) 1 }
  | .clone n =>
    match s.handles[n]? with
    | some (k + 1) => some { s with handles := s.handles.set n (k + 2) }
    | _ => none
  | .drop t n now =>
    match s.handles[n]? with
    | some (k + 1) =>
      (s.world.step (.tryClose t n now)).map fun w =>
        { world := w, handles := s.handles.set n k }
    | _ => none

end HandleWorld

end TracingConsole.Model
