import TracingConsole.Library.Slab
import TracingConsole.Model.IdAllocator
import TracingConsole.Model.Record

/-!
# The span cache

The in-flight part of `SpanCache` (cache.rs, id_encoding.rs): the sharded slabs with their
sidecars of span ids, the encoding of a slab address as a `tracing::span::Id`, and the
parts of the subscriber methods that touch them.  A `u64` is a natural below `2 ^ 64`; an
index out of bounds is `Outcome.panicked`.
-/

set_option autoImplicit false

namespace TracingConsole.Model

open TracingConsole.Library

/-- INTERNAL: the id of a span the predicate or the capacity check rejected.
SRCLINE: id_encoding.rs:24 -/
def disabledId : ℕ := 1

/-- INTERNAL: added to a slab index in an id.
SRCLINE: id_encoding.rs:25 -/
def slabOffset : ℕ := 2

/-- INTERNAL: the knobs the in-flight part reads.
SRCLINE: config.rs:10-53 -/
structure CacheConfig where
  laneCount : ℕ
  pendingBatch : ℕ
deriving DecidableEq

/-- INTERNAL: a slab and the ids of the spans under its indices.
SRCLINE: cache.rs:37-47 -/
structure ShardLane where
  slab : Slab SpanRecord
  actualIds : List ℕ
deriving DecidableEq

/-- INTERNAL: the shared in-flight state of a cache.
SRCLINE: cache.rs:75-106 -/
structure SpanCache where
  inFlight : List ShardLane
  shardCapacity : ℕ
  pendingBatch : ℕ
  shardMask : ℕ
  shardShift : ℕ
deriving DecidableEq

/-- INTERNAL: how a call ends: with a value, by returning the disabled id (or dropping the
event), or by a panic. -/
inductive Outcome (α : Type) where
  | value (a : α)
  | disabled
  | panicked
deriving DecidableEq

/-- INTERNAL: go on with the value. -/
def Outcome.map {α β : Type} (f : α → β) : Outcome α → Outcome β
  | .value a => .value (f a)
  | .disabled => .disabled
  | .panicked => .panicked

/-! ## Construction -/

/-- INTERNAL: the standard library's `usize::next_power_of_two`. -/
def nextPowerOfTwo (n : ℕ) : ℕ := if n ≤ 1 then 1 else 2 ^ (Nat.log2 (n - 1) + 1)

/-- INTERNAL: the standard library's `usize::trailing_zeros`. -/
def trailingZeros (n : ℕ) : ℕ := ((List.range 64).find? n.testBit).getD 64

/-- INTERNAL: the standard library's `usize::div_ceil`. -/
def divCeil (n d : ℕ) : ℕ := if n % d = 0 then n / d else n / d + 1

namespace SpanCache

/-- INTERNAL: the number of lanes for a configured one.
SRCLINE: cache.rs:132 -/
def normalizedLanes (config : CacheConfig) : ℕ := nextPowerOfTwo (max 1 (min config.laneCount 256))

/-- INTERNAL: a new cache.  The sidecars are words of eight bytes: a request for more of
them than the address space has bytes does not return.
SRCLINE: cache.rs:125-205 -/
def withConfig (capacity : ℕ) (config : CacheConfig) : Option SpanCache :=
  let laneCount := normalizedLanes config
  let shardBits := trailingZeros laneCount
  let shardCapacity := divCeil capacity laneCount
  if laneCount * (8 * shardCapacity) ≤ 2 ^ 64 then
    some
      { inFlight := List.replicate laneCount
          { slab := Slab.empty, actualIds := List.replicate shardCapacity 0 }
        shardCapacity := shardCapacity
        pendingBatch := config.pendingBatch
        shardMask := laneCount - 1
        -- at least one bit stays at the top when there is one lane
        shardShift := 64 - max shardBits 1 }
  else none

/-- INTERNAL: write one lane. -/
def setLane (c : SpanCache) (shard : ℕ) (lane : ShardLane) : SpanCache :=
  { c with inFlight := c.inFlight.set shard lane }

/-! ## Ids -/

/-- INTERNAL: the shard of a thread's key.
SRCLINE: cache.rs:202-206 -/
def pickShard (c : SpanCache) (key : ℕ) : ℕ := key &&& c.shardMask

/-- INTERNAL: the `tracing::span::Id` of a slab address.
SRCLINE: cache.rs:228-231 -/
def encodeTracingId (c : SpanCache) (shard slabIdx : ℕ) : ℕ :=
  ((shard <<< c.shardShift) % u64Size) ||| ((slabIdx + slabOffset) % u64Size)

/-- INTERNAL: the slab address of an id.
SRCLINE: cache.rs:233-246 -/
def decodeTracingId (c : SpanCache) (id : ℕ) : Option (ℕ × ℕ) :=
  if id = disabledId then none
  else
    let slabMask := (1 <<< c.shardShift) % u64Size - 1
    let raw := id &&& slabMask
    if raw < slabOffset then none
    else some ((id >>> c.shardShift) &&& c.shardMask, raw - slabOffset)

/-- INTERNAL: the span id in the sidecar.
SRCLINE: cache.rs:248-255 -/
def loadActualId (c : SpanCache) (shard slabIdx : ℕ) : Outcome ℕ :=
  match (c.inFlight[shard]?).bind fun lane => lane.actualIds[slabIdx]? with
  | some id => .value id
  | none => .panicked

/-- INTERNAL: the span id of an in-flight span.
SRCLINE: cache.rs:257-265 -/
def actualIdFor (c : SpanCache) (tracingId : ℕ) : Outcome ℕ :=
  match c.decodeTracingId tracingId with
  | none => .disabled
  | some (shard, slabIdx) => c.loadActualId shard slabIdx

end SpanCache

/-! ## Span stacks -/

/-- INTERNAL: an entry of a thread's stack of entered spans.
SRCLINE: thread_state.rs:40-49 -/
structure StackedSpan where
  tracingId : ℕ
  actualId : ℕ
deriving DecidableEq

/-- INTERNAL: how a new span names its parent.
SRCLINE: cache.rs:373-402 -/
inductive ParentKind where
  | contextual
  | root
  | explicit (tracingId : ℕ)
deriving DecidableEq

/-- INTERNAL: the attributes of a new span; `values` are its fields as the visitor sees
them.
SRCLINE: cache.rs:368 -/
structure Attributes where
  parent : ParentKind
  metadata : Metadata
  values : List (String × FieldValue)
deriving DecidableEq

namespace SpanCache

/-! ## Opening a span -/

/-- INTERNAL: the id of the parent, `none` for a root.
SRCLINE: cache.rs:369-402 -/
def resolveParent (c : SpanCache) (attrs : Attributes) (top : Option StackedSpan) :
    Outcome (Option ℕ) :=
  match attrs.parent with
  | .contextual =>
    match top with
    | none => .disabled
    | some top => if top.tracingId = disabledId then .disabled else .value (some top.actualId)
  | .root => if top.isSome then .disabled else .value none
  | .explicit tracingId =>
    match c.decodeTracingId tracingId with
    | none => .disabled
    | some (shard, slabIdx) => (c.loadActualId shard slabIdx).map some

/-- INTERNAL: the fields a visitor collects.
SRCLINE: record.rs:193-261 -/
def recordFields (values : List (String × FieldValue)) : FieldList :=
  values.foldl (fun fields v => fields.set v.1 v.2) []

/-- INTERNAL: the record of a new span.
SRCLINE: cache.rs:409-424 -/
def buildRecord (attrs : Attributes) (actualId : ℕ) (parentActualId : Option ℕ) (now : ℕ) :
    SpanRecord where
  id := actualId
  parentId := parentActualId
  metadata := attrs.metadata
  fields := recordFields attrs.values
  events := []
  openedAt := now
  closedAt := none

/-- INTERNAL: the capacity check and the insertion under the lane's lock; `slabIdx` is the
index the slab picks.
SRCLINE: cache.rs:433-446 -/
def insertRecord (c : SpanCache) (shard slabIdx : ℕ) (record : SpanRecord) :
    Outcome SpanCache :=
  match c.inFlight[shard]? with
  | none => .panicked
  | some lane =>
    if c.shardCapacity ≤ lane.slab.len then .disabled
    else
      .value (c.setLane shard { lane with slab := lane.slab.insert slabIdx record })

/-- INTERNAL: the sidecar store.
SRCLINE: cache.rs:447-449 -/
def storeActualId (c : SpanCache) (shard slabIdx actualId : ℕ) : Outcome SpanCache :=
  match c.inFlight[shard]? with
  | none => .panicked
  | some lane =>
    if slabIdx < lane.actualIds.length then
      .value (c.setLane shard { lane with actualIds := lane.actualIds.set slabIdx actualId })
    else .panicked

/-! ## Entering, recording, closing -/

/-- INTERNAL: the stack entry `enter` pushes.
SRCLINE: cache.rs:523-536 -/
def enteredSpan (c : SpanCache) (tracingId : ℕ) : Outcome StackedSpan :=
  match c.decodeTracingId tracingId with
  | none => .value { tracingId := tracingId, actualId := 0 }
  | some (shard, slabIdx) =>
    (c.loadActualId shard slabIdx).map fun id => { tracingId := tracingId, actualId := id }

/-- INTERNAL: the span an event belongs to.
SRCLINE: cache.rs:471-498 -/
def eventParent (c : SpanCache) (parent : Option ℕ) (top : Option StackedSpan) : Outcome ℕ :=
  match parent with
  | some tracingId =>
    if tracingId = disabledId then .disabled
    else
      match c.decodeTracingId tracingId with
      | none => .disabled
      | some (shard, slabIdx) => c.loadActualId shard slabIdx
  | none =>
    match top with
    | none => .disabled
    | some top => if top.tracingId = disabledId then .disabled else .value top.actualId

/-- INTERNAL: the record of an event.
SRCLINE: cache.rs:500-508 -/
def buildEvent (metadata : Metadata) (values : List (String × FieldValue)) (now : ℕ) :
    EventRecord where
  metadata := some metadata
  fields := recordFields values
  recordedAt := some now

/-- INTERNAL: fields recorded on a span after it was opened; a vacant slot has none.
SRCLINE: cache.rs:452-467 -/
def record (c : SpanCache) (tracingId : ℕ) (values : List (String × FieldValue)) :
    Outcome SpanCache :=
  match c.decodeTracingId tracingId with
  | none => .value c
  | some (shard, slabIdx) =>
    match c.inFlight[shard]? with
    | none => .panicked
    | some lane =>
      let visit (record : SpanRecord) : SpanRecord :=
        { record with fields := values.foldl (fun fields v => fields.set v.1 v.2) record.fields }
      .value (c.setLane shard { lane with slab := lane.slab.modify slabIdx visit })

/-- INTERNAL: the record taken out of the slab, with its closing time, and the cache
without it.
SRCLINE: cache.rs:542-567 -/
def tryClose (c : SpanCache) (tracingId now : ℕ) : Outcome (Option SpanRecord × SpanCache) :=
  match c.decodeTracingId tracingId with
  | none => .value (none, c)
  | some (shard, slabIdx) =>
    match c.inFlight[shard]? with
    | none => .panicked
    | some lane =>
      let (removed, slab) := lane.slab.tryRemove slabIdx
      .value
        (removed.map fun record => { record with closedAt := some now },
          c.setLane shard { lane with slab := slab })

end SpanCache

end TracingConsole.Model
