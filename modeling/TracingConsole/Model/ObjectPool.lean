import TracingConsole.Library.Runs
import TracingConsole.Model.Record
import TracingConsole.Model.SpanCache

/-!
# The pool of boxes

The shards that hand out boxes and take them back (object_pool.rs).  A box is an address on the
heap and the value there; addresses come from a counter, so a box that was allocated anew can be
told from one that was handed out again.  A `try_lock` that fails is a choice of the step.
-/

set_option autoImplicit false

namespace TracingConsole.Model

/-- INTERNAL: SRCLINE: object_pool.rs:25-30 -/
class Resettable (α : Type) where
  fresh : α
  reset : α → α

/-- INTERNAL: SRCLINE: record.rs:161-167 -/
instance : Resettable EventRecord where
  fresh := { metadata := none, fields := [], recordedAt := none }
  reset := fun record => { record with metadata := none, fields := [], recordedAt := none }

/-- INTERNAL: a box on the heap. -/
structure PoolBox (α : Type) where
  address : ℕ
  value : α
deriving DecidableEq

/-- INTERNAL: a box that is held, and the shard it came from.
SRCLINE: object_pool.rs:124-135 -/
structure ReuseRef (α : Type) where
  boxed : PoolBox α
  shard : ℕ
deriving DecidableEq

/-- INTERNAL: the ready boxes of each shard, the one pushed last first.
SRCLINE: object_pool.rs:37-41, 85-92 -/
structure ObjectPool (α : Type) where
  shards : List (List (PoolBox α))
  perShardCapacity : ℕ
deriving DecidableEq

namespace ObjectPool

variable {α : Type}

/-- INTERNAL: SRCLINE: object_pool.rs:97-107 -/
def new (shardCount perShardCapacity : ℕ) : ObjectPool α where
  shards := List.replicate (nextPowerOfTwo (max shardCount 1)) []
  perShardCapacity := perShardCapacity

/-- INTERNAL: the shard of a thread's key.
SRCLINE: object_pool.rs:105, 115-116 -/
def shardOf (pool : ObjectPool α) (key : ℕ) : ℕ := key &&& (pool.shards.length - 1)

/-- INTERNAL: the pool, where a shard has other boxes. -/
def setShard (pool : ObjectPool α) (shard : ℕ) (boxes : List (PoolBox α)) : ObjectPool α :=
  { pool with shards := pool.shards.set shard boxes }

end ObjectPool

/-! ## The heap -/

/-- INTERNAL: the pool, the boxes that are held and the addresses that were freed. -/
structure PoolHeap (α : Type) where
  pool : ObjectPool α
  refs : List (ReuseRef α)
  nextAddress : ℕ
  freed : List ℕ
deriving DecidableEq

/-- INTERNAL: the steps; `contended` says that the `try_lock` of the shard fails. -/
inductive PoolStep (α : Type) where
  | acquire (key : ℕ) (contended : Bool)
  | write (i : ℕ) (v : α)
  | clone (i : ℕ)
  | drop (i : ℕ) (contended : Bool)

namespace PoolHeap

variable {α : Type}

/-- INTERNAL: nothing allocated yet. -/
def start (shardCount perShardCapacity : ℕ) : PoolHeap α where
  pool := ObjectPool.new shardCount perShardCapacity
  refs := []
  nextAddress := 0
  freed := []

/-- INTERNAL: `Box::new`, held for a shard. -/
def allocate (h : PoolHeap α) (shard : ℕ) (v : α) : PoolHeap α :=
  { h with
    refs := h.refs ++ [{ boxed := { address := h.nextAddress, value := v }, shard := shard }]
    nextAddress := h.nextAddress + 1 }

/-- INTERNAL: pop a ready box of the shard; with none, or without the lock, allocate.
SRCLINE: object_pool.rs:60-67, 114-122 -/
def tryTake [Resettable α] (h : PoolHeap α) (shard : ℕ) (contended : Bool)
    (boxes : List (PoolBox α)) : PoolHeap α :=
  match boxes with
  | ready :: rest =>
    if contended then h.allocate shard Resettable.fresh
    else
      { h with
        pool := h.pool.setShard shard rest
        refs := h.refs ++ [{ boxed := ready, shard := shard }] }
  | [] => h.allocate shard Resettable.fresh

/-- INTERNAL: hand a box back that was just reset; with no room, or without the lock, free it.
SRCLINE: object_pool.rs:72-83 -/
def tryReturn (h : PoolHeap α) (shard : ℕ) (contended : Bool) (boxes : List (PoolBox α))
    (boxed : PoolBox α) : PoolHeap α :=
  if !contended && boxes.length < h.pool.perShardCapacity then
    { h with pool := h.pool.setShard shard (boxed :: boxes) }
  else { h with freed := h.freed ++ [boxed.address] }

/-- INTERNAL: one step; `none` where the source would index out of range, or the ref is not
held. -/
def step [Resettable α] (h : PoolHeap α) : PoolStep α → Option (PoolHeap α)
  | .acquire key contended =>
    let shard := h.pool.shardOf key
    (h.pool.shards[shard]?).map fun boxes => h.tryTake shard contended boxes
  | .write i v =>
    (h.refs[i]?).map fun r =>
      { h with refs := h.refs.set i { r with boxed := { r.boxed with value := v } } }
  | .clone i => (h.refs[i]?).map fun r => h.allocate r.shard r.boxed.value
  | .drop i contended =>
    match h.refs[i]? with
    | some r =>
      (h.pool.shards[r.shard]?).map fun boxes =>
        { h with refs := h.refs.eraseIdx i }.tryReturn r.shard contended boxes
          { r.boxed with value := Resettable.reset r.boxed.value }
    | none => none

/-- INTERNAL: what the holders see, in the order the boxes were acquired. -/
def values (h : PoolHeap α) : List α := h.refs.map fun r => r.boxed.value

end PoolHeap

end TracingConsole.Model
