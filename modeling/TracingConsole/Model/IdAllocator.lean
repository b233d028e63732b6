import Mathlib

/-!
# Allocating span ids

`SpanCache::allocate_actual_id` (cache.rs:208-226) as the atomic steps other threads can
interleave with.  A thread owns its cursor, so a call that stays inside its batch is one
step; a refill is two, the `fetch_add` on the shared counter and the write of the cursor.
Counters are the `u64`s of the source: additions are modulo `2 ^ 64`.
-/

set_option autoImplicit false

namespace TracingConsole.Model

/-- INTERNAL: ids a thread reserves at once.
SRCLINE: thread_state.rs:25-33 -/
def idBatch : ℕ := 1024

/-- INTERNAL: the number of values of a `u64`. -/
def u64Size : ℕ := 2 ^ 64

variable {T : Type} [DecidableEq T]

/-- INTERNAL: the shared high-water mark, each thread's cursor, and the start of the batch
of each thread that is between its `fetch_add` and its `cell.set`.
SRCLINE: cache.rs:79, thread_state.rs:91-101 -/
structure Allocator (T : Type) where
  idHighWater : ℕ
  idCursor : T → ℕ
  fetched : T → Option ℕ

namespace Allocator

/-- INTERNAL: a fresh cache; no thread has reserved anything.
SRCLINE: cache.rs:171-175, thread_state.rs:101 -/
def new : Allocator T where
  idHighWater := idBatch
  idCursor := fun _ => 0
  fetched := fun _ => none

/-- INTERNAL: the next atomic step of thread `t`'s call, and the id if the call returns.
SRCLINE: cache.rs:208-226 -/
def advance (a : Allocator T) (t : T) : Allocator T × Option ℕ :=
  match a.fetched t with
  | some start =>
    ({ a with
        idCursor := Function.update a.idCursor t ((start + 1) % u64Size)
        fetched := Function.update a.fetched t none }, some start)
  | none =>
    let cursor := a.idCursor t
    if cursor &&& (idBatch - 1) ≠ 0 then
      ({ a with idCursor := Function.update a.idCursor t ((cursor + 1) % u64Size) }, some cursor)
    else
      ({ a with
          idHighWater := (a.idHighWater + idBatch) % u64Size
          fetched := Function.update a.fetched t (some a.idHighWater) }, none)

end Allocator

/-- INTERNAL: an allocator with its history: the ids returned, in the order of the returns
and with the calling thread, and how many ids were reserved. -/
structure Allocation (T : Type) where
  ids : Allocator T
  returned : List (T × ℕ)
  reserved : ℕ

namespace Allocation

/-- INTERNAL: nothing returned yet. -/
def new : Allocation T := { ids := Allocator.new, returned := [], reserved := 0 }

/-- INTERNAL: thread `t` takes the next atomic step of a call.  Only a `fetch_add` returns
nothing. -/
def advance (a : Allocation T) (t : T) : Allocation T :=
  match a.ids.advance t with
  | (ids, some id) => { ids := ids, returned := a.returned ++ [(t, id)], reserved := a.reserved }
  | (ids, none) => { ids := ids, returned := a.returned, reserved := a.reserved + idBatch }

/-- INTERNAL: the threads take their steps in the order `schedule`. -/
def interleave (schedule : List T) : Allocation T := schedule.foldl advance new

end Allocation

end TracingConsole.Model
