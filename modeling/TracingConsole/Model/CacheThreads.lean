import TracingConsole.Model.SpanCache

/-!
# Threads calling the cache

The subscriber methods of one cache, called by any number of threads, as the atomic steps
other threads can interleave with.  `new_span` is several steps (cache.rs:368-450): the
parent, the predicate, the allocation of the id, the choice of the shard, the insertion
under the lane's lock, the sidecar store, the return.  `enter`, `exit`, `event` and
`try_close` touch shared state once.

Callers name spans by the ids `new_span` returned: `spans` lists the returns, and a step
names one by its place there.
-/

set_option autoImplicit false

namespace TracingConsole.Model

open TracingConsole.Library

/-- INTERNAL: the locals of a `new_span` call once the parent is resolved.
SRCLINE: cache.rs:369-402 -/
structure Opening where
  attrs : Attributes
  top : Option StackedSpan
  parentActualId : Option ℕ
deriving DecidableEq

/-- INTERNAL: where a thread is in a `new_span` call.  The record moves into the slab on
insertion; it is kept here for the history.
SRCLINE: cache.rs:368-450 -/
inductive Call where
  | idle
  /-- the parent is resolved, the predicate is next -/
  | resolved (o : Opening)
  /-- `allocate_actual_id` is next, or under way -/
  | enabled (o : Opening)
  /-- the record is built, the shard is next -/
  | built (o : Opening) (record : SpanRecord)
  /-- the insertion is next -/
  | picked (o : Opening) (record : SpanRecord) (shard : ℕ)
  /-- the sidecar store is next -/
  | inserted (record : SpanRecord) (shard slabIdx : ℕ)
  /-- the return is next -/
  | stored (record : SpanRecord) (shard slabIdx : ℕ)
  | panicked
deriving DecidableEq

/-- INTERNAL: an id `new_span` returned, with the record inserted for it (`none` for the
disabled id), and whether `try_close` was called for it. -/
structure Returned where
  tracingId : ℕ
  record : Option SpanRecord
  closed : Bool
deriving DecidableEq

/-- INTERNAL: how an event came about: the parent it names and the top of the stack. -/
structure EventCall where
  parent : Option ℕ
  top : Option StackedSpan
deriving DecidableEq

/-- INTERNAL: a cache and its threads.  `spans`, `inserted`, `closed` and `events` are
histories, oldest first: the ids returned, the records inserted, and what was handed to
the buffers of closed spans and of events. -/
structure World (T : Type) where
  cache : SpanCache
  ids : Allocation T
  nextThreadKey : ℕ
  threadShardKey : T → ℕ
  spanStack : T → List StackedSpan
  call : T → Call
  spans : List Returned
  inserted : List (Opening × SpanRecord)
  closed : List (T × SpanRecord)
  events : List (EventCall × EventMessage)

/-- INTERNAL: the parent of a new span as its caller names it. -/
inductive ParentRef where
  | contextual
  | root
  | span (n : ℕ)
deriving DecidableEq

/-- INTERNAL: the atomic steps.  `accepts` is the predicate's answer, `slabIdx` the index
the slab picks. -/
inductive CacheStep (T : Type) where
  | newSpan (t : T) (parent : ParentRef) (metadata : Metadata)
      (values : List (String × FieldValue))
  | predicate (t : T) (accepts : Bool)
  | allocate (t : T) (now : ℕ)
  | pickShard (t : T)
  | insert (t : T) (slabIdx : ℕ)
  | store (t : T)
  | finish (t : T)
  | enter (t : T) (n : ℕ)
  | exit (t : T)
  | event (t : T) (parent : Option ℕ) (metadata : Metadata)
      (values : List (String × FieldValue)) (now : ℕ)
  | tryClose (t : T) (n now : ℕ)
deriving DecidableEq

namespace World

variable {T : Type} [DecidableEq T]

/-- INTERNAL: a new cache.  Thread keys are process-wide, so they may be anything by now.
SRCLINE: thread_state.rs:35-38, thread_state.rs:58-102 -/
def start (cache : SpanCache) (nextThreadKey : ℕ) (threadShardKey : T → ℕ) : World T where
  cache := cache
  ids := Allocation.new
  nextThreadKey := nextThreadKey
  threadShardKey := threadShardKey
  spanStack := fun _ => []
  call := fun _ => .idle
  spans := []
  inserted := []
  closed := []
  events := []

/-- INTERNAL: the innermost entered span of a thread.
SRCLINE: thread_state.rs:104-107 -/
def stackTop (w : World T) (t : T) : Option StackedSpan := (w.spanStack t).head?

/-- INTERNAL: thread `t` goes on to `call`. -/
def setCall (w : World T) (t : T) (call : Call) : World T :=
  { w with call := Function.update w.call t call }

/-- INTERNAL: thread `t` panics. -/
def panic (w : World T) (t : T) : World T := w.setCall t .panicked

/-- INTERNAL: `new_span` returns an id. -/
def giveOut (w : World T) (t : T) (tracingId : ℕ) (record : Option SpanRecord) : World T :=
  { w.setCall t .idle with
    spans := w.spans ++ [{ tracingId := tracingId, record := record, closed := false }] }

/-- INTERNAL: `new_span` returns the disabled id.
SRCLINE: id_encoding.rs:35-38 -/
def reject (w : World T) (t : T) : World T := w.giveOut t disabledId none

/-- INTERNAL: the parent as `new_span` is given it. -/
def parentKind (w : World T) : ParentRef → Option ParentKind
  | .contextual => some .contextual
  | .root => some .root
  | .span n => (w.spans[n]?).map fun sp => .explicit sp.tracingId

/-- INTERNAL: `new_span` up to the parent.
SRCLINE: cache.rs:368-402 -/
def newSpan (w : World T) (t : T) (attrs : Attributes) : World T :=
  match w.cache.resolveParent attrs (w.stackTop t) with
  | .value parentActualId =>
    w.setCall t (.resolved
      { attrs := attrs, top := w.stackTop t, parentActualId := parentActualId })
  | .disabled => w.reject t
  | .panicked => w.panic t

/-- INTERNAL: an atomic step of the allocation; when it returns, the record is built.
SRCLINE: cache.rs:409-424 -/
def allocate (w : World T) (t : T) (o : Opening) (now : ℕ) : World T :=
  let next := { w with ids := w.ids.advance t }
  match (w.ids.ids.advance t).2 with
  | none => next
  | some id =>
    next.setCall t (.built o (SpanCache.buildRecord o.attrs id o.parentActualId now))

/-- INTERNAL: the thread's key, claimed on first use.
SRCLINE: thread_state.rs:159-173 -/
def pickShard (w : World T) (t : T) (o : Opening) (record : SpanRecord) : World T :=
  if w.threadShardKey t = u64Size - 1 then
    let next :=
      { w with
        nextThreadKey := (w.nextThreadKey + 1) % u64Size
        threadShardKey := Function.update w.threadShardKey t w.nextThreadKey }
    next.setCall t (.picked o record (w.cache.pickShard w.nextThreadKey))
  else w.setCall t (.picked o record (w.cache.pickShard (w.threadShardKey t)))

/-- INTERNAL: the insertion.
SRCLINE: cache.rs:425-446 -/
def insert (w : World T) (t : T) (o : Opening) (record : SpanRecord) (shard slabIdx : ℕ) :
    World T :=
  match w.cache.insertRecord shard slabIdx record with
  | .value cache =>
    { w.setCall t (.inserted record shard slabIdx) with
      cache := cache, inserted := w.inserted ++ [(o, record)] }
  | .disabled => w.reject t
  | .panicked => w.panic t

/-- INTERNAL: the sidecar store.
SRCLINE: cache.rs:447-449 -/
def store (w : World T) (t : T) (record : SpanRecord) (shard slabIdx : ℕ) : World T :=
  match w.cache.storeActualId shard slabIdx record.id with
  | .value cache => { w.setCall t (.stored record shard slabIdx) with cache := cache }
  | .disabled => w
  | .panicked => w.panic t

/-- INTERNAL: `enter`.
SRCLINE: cache.rs:523-536 -/
def enter (w : World T) (t : T) (tracingId : ℕ) : World T :=
  match w.cache.enteredSpan tracingId with
  | .value entry =>
    { w with spanStack := Function.update w.spanStack t (entry :: w.spanStack t) }
  | .disabled => w
  | .panicked => w.panic t

/-- INTERNAL: `exit` pops whatever is on top.
SRCLINE: cache.rs:538-540 -/
def exit (w : World T) (t : T) : World T :=
  { w with spanStack := Function.update w.spanStack t (w.spanStack t).tail }

/-- INTERNAL: `event`, up to the push on the thread's buffer.
SRCLINE: cache.rs:471-521 -/
def event (w : World T) (t : T) (parent : Option ℕ) (record : EventRecord) : World T :=
  match w.cache.eventParent parent (w.stackTop t) with
  | .value parentActualId =>
    { w with
      events := w.events ++
        [({ parent := parent, top := w.stackTop t },
          { parentActualId := parentActualId, record := record })] }
  | .disabled => w
  | .panicked => w.panic t

/-- INTERNAL: `try_close`, up to the push on the thread's buffer.
SRCLINE: cache.rs:542-567 -/
def tryClose (w : World T) (t : T) (tracingId now : ℕ) : World T :=
  match w.cache.tryClose tracingId now with
  | .value (removed, cache) =>
    { w with cache := cache, closed := w.closed ++ (removed.toList.map fun r => (t, r)) }
  | .disabled => w
  | .panicked => w.panic t

/-- INTERNAL: the caller's `n`-th id is closed. -/
def markClosed (w : World T) (n : ℕ) : World T :=
  { w with spans := w.spans.modify n fun sp => { sp with closed := true } }

/-- INTERNAL: one atomic step, if the thread is where the step needs it. -/
def step (w : World T) : CacheStep T → Option (World T)
  | .newSpan t parent metadata values =>
    match w.call t, w.parentKind parent with
    | .idle, some kind =>
      some (w.newSpan t { parent := kind, metadata := metadata, values := values })
    | _, _ => none
  | .predicate t accepts =>
    match w.call t with
    | .resolved o => some (if accepts then w.setCall t (.enabled o) else w.reject t)
    | _ => none
  | .allocate t now =>
    match w.call t with
    | .enabled o => some (w.allocate t o now)
    | _ => none
  | .pickShard t =>
    match w.call t with
    | .built o record => some (w.pickShard t o record)
    | _ => none
  | .insert t slabIdx =>
    match w.call t with
    | .picked o record shard =>
      -- the slab picks a vacant index, or the next one past its end
      if ∀ lane ∈ w.cache.inFlight[shard]?, lane.slab.Takes slabIdx then
        some (w.insert t o record shard slabIdx)
      else none
    | _ => none
  | .store t =>
    match w.call t with
    | .inserted record shard slabIdx => some (w.store t record shard slabIdx)
    | _ => none
  | .finish t =>
    match w.call t with
    | .stored record shard slabIdx =>
      some (w.giveOut t (w.cache.encodeTracingId shard slabIdx) (some record))
    | _ => none
  | .enter t n =>
    match w.call t, w.spans[n]? with
    | .idle, some sp => some (w.enter t sp.tracingId)
    | _, _ => none
  | .exit t =>
    match w.call t with
    | .idle => some (w.exit t)
    | _ => none
  | .event t none metadata values now =>
    match w.call t with
    | .idle => some (w.event t none (SpanCache.buildEvent metadata values now))
    | _ => none
  | .event t (some n) metadata values now =>
    match w.call t, w.spans[n]? with
    | .idle, some sp =>
      some (w.event t (some sp.tracingId) (SpanCache.buildEvent metadata values now))
    | _, _ => none
  | .tryClose t n now =>
    match w.call t, w.spans[n]? with
    | .idle, some sp => some ((w.tryClose t sp.tracingId now).markClosed n)
    | _, _ => none

end World

end TracingConsole.Model
