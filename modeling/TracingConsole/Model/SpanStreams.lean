import TracingConsole.Model.LevelBus
import TracingConsole.Model.Sampling

/-!
# The span streams of a connection

Every `StartStream` of a connection spawns a task of its own, and all of them consult the one
`StreamState` of the connection (server.rs:30-46, 186-333).  A task reads the state with each
batch and then hands out the batch span by span, so that requests are handled in between.  What
the requests about the cache do to it, and when a stream has a level or a chance to tell, is in
`LevelBus`; here they are answered, and told.
-/

set_option autoImplicit false

namespace TracingConsole.Model

/-! ## Filters -/

/-- INTERNAL: the order of `tracing`'s levels: the more severe is the lesser. -/
def WireLevel.verbosity : WireLevel → ℕ
  | .error => 0
  | .warn => 1
  | .info => 2
  | .debug => 3
  | .trace => 4

/-- INTERNAL: SRCLINE: server.rs:335-341 -/
def levelAtLeast (recordLevel floor : WireLevel) : Bool :=
  recordLevel.verbosity ≤ floor.verbosity

namespace F64

/-- INTERNAL: the literal `1.0`. -/
def one : F64 := ⟨0x3FF0000000000000#64⟩

/-- INTERNAL: the value of a finite double. -/
def toRat (x : F64) : ℚ :=
  let exponent : ℕ := x.bits.toNat / 2 ^ 52 % 2 ^ 11
  let fraction := x.bits.toNat % 2 ^ 52
  let mant : ℕ := if exponent = 0 then 2 * fraction else fraction + 2 ^ 52
  let magnitude : ℚ := mant * (2 : ℚ) ^ ((exponent : ℤ) - 1075)
  if x.bits.msb then -magnitude else magnitude

end F64

/-! ## State -/

/-- INTERNAL: SRCLINE: server.rs:30-37 -/
structure StreamState where
  streaming : Bool
  minLevel : Option WireLevel
  samplingRate : F64
deriving DecidableEq

/-- INTERNAL: SRCLINE: server.rs:39-46 -/
def StreamState.new : StreamState :=
  { streaming := false, minLevel := none, samplingRate := F64.one }

/-- INTERNAL: SRCLINE: protocol.rs:177-210 -/
inductive StreamRequest where
  | noop
  | startStream
  | stopStream
  | setLevel (level : WireLevel)
  | setCacheLevel (filter : WireLevelFilter)
  | setCacheChance (pct : F64)
  | setSamplingRate (rate : F64)
deriving DecidableEq

/-- INTERNAL: SRCLINE: protocol.rs:267-292 -/
inductive StreamResponse where
  | serverInfo (version : String)
  | span (record : SpanRecord)
  | cacheLevel (filter : WireLevelFilter)
  | cacheChance (pct : F64)
  | ack
  | error (message : String)
deriving DecidableEq

/-- INTERNAL: the task of one stream: the id it answers under, the channel of its subscriber
once it has one, what is left of the batch under way with the filters read with it, and whether
the stream has ended.
SRCLINE: server.rs:253-333 -/
structure SpanTask where
  requestId : ℕ
  spanRx : Option (List SpanRecord)
  minLevel : Option WireLevel
  samplingRate : F64
  batch : List SpanRecord
  ended : Bool
deriving DecidableEq

/-- INTERNAL: a connection, the tasks it has spawned and the responses sent on it.
SRCLINE: server.rs:155-179 -/
structure ConnectionState where
  state : StreamState
  tasks : List SpanTask
  responses : List (ℕ × StreamResponse)
deriving DecidableEq

namespace ConnectionState

/-- INTERNAL: SRCLINE: server.rs:169-179 -/
def new : ConnectionState := { state := StreamState.new, tasks := [], responses := [] }

/-- INTERNAL: a response is put into the connection's outgoing ones. -/
def respond (c : ConnectionState) (requestId : ℕ) (response : StreamResponse) : ConnectionState :=
  { c with responses := c.responses ++ [(requestId, response)] }

/-- INTERNAL: SRCLINE: server.rs:186-250 -/
def newRpc (c : ConnectionState) (requestId : ℕ) : StreamRequest → ConnectionState
  | .startStream =>
    { c with
      state := { c.state with streaming := true }
      tasks := c.tasks ++ [{
        requestId := requestId
        spanRx := none
        minLevel := none
        samplingRate := F64.one
        batch := []
        ended := false }] }
  | .stopStream =>
    { c with state := { c.state with streaming := false } }.respond requestId .ack
  | .setLevel level =>
    { c with state := { c.state with minLevel := some level } }.respond requestId .ack
  -- the level and the chance of the cache are not the connection's own
  | .setCacheLevel _ => c.respond requestId .ack
  | .setCacheChance _ => c.respond requestId .ack
  | .setSamplingRate rate =>
    if rate.lt F64.zero || F64.one.lt rate || rate.isNan then
      c.respond requestId
        (.error ("sampling rate " ++ rate.display ++ " out of range [0.0, 1.0]"))
    else { c with state := { c.state with samplingRate := rate } }.respond requestId .ack
  | .noop => c

end ConnectionState

/-! ## The tasks -/

namespace SpanTask

/-- INTERNAL: whether a record of the batch under way is sent.
SRCLINE: server.rs:320-328 -/
def passes (t : SpanTask) (record : SpanRecord) : Bool :=
  (match t.minLevel with
    | some min => levelAtLeast record.metadata.level min
    | none => true) && samplingPasses record t.samplingRate.toRat

/-- INTERNAL: the driver hands a batch to the subscriber, all of it or nothing.
SRCLINE: server.rs:25-28, driver.rs:168-187 -/
def deliver (t : SpanTask) (full : Bool) (batch : List SpanRecord) : SpanTask :=
  if t.ended || full then t else { t with spanRx := t.spanRx.map fun rx => rx ++ batch }

/-- INTERNAL: whether the task can tell this between two batches: the host's version before it
subscribes, a level or a chance at any time.
SRCLINE: server.rs:272-308 -/
def tells (t : SpanTask) : StreamResponse → Bool
  | .serverInfo _ => t.batch = [] && t.spanRx.isNone
  | .cacheLevel _ | .cacheChance _ => t.batch = []
  | _ => false

/-- INTERNAL: after the preamble.
SRCLINE: server.rs:272-291 -/
def subscribe (t : SpanTask) : Option SpanTask :=
  if t.spanRx.isNone then some { t with spanRx := some [] } else none

/-- INTERNAL: the next `k` spans of the channel, discarded while the connection is stopped.
SRCLINE: server.rs:307-319 -/
def read (t : SpanTask) (state : StreamState) (k : ℕ) : Option SpanTask :=
  match t.spanRx with
  | some rx =>
    if t.batch = [] ∧ 0 < k ∧ k ≤ rx.length then
      some { t with
        spanRx := some (rx.drop k)
        minLevel := state.minLevel
        samplingRate := state.samplingRate
        batch := if state.streaming then rx.take k else [] }
    else none
  | none => none

/-- INTERNAL: the next span of the batch under way is sent or skipped.
SRCLINE: server.rs:320-330 -/
def next (t : SpanTask) : Option SpanTask :=
  match t.batch with
  | _ :: rest => some { t with batch := rest }
  | [] => none

end SpanTask

/-- INTERNAL: what can happen next: a request is handled, a task tells something of the cache, a
task subscribes, closed spans are fanned out (to all tasks but those in `full`), a task reads a
batch or comes to the next span of it, a stream ends. -/
inductive StreamStep where
  | request (requestId : ℕ) (body : StreamRequest)
  | tell (n : ℕ) (response : StreamResponse)
  | subscribe (n : ℕ)
  | fanout (batch : List SpanRecord) (full : List ℕ)
  | read (n k : ℕ)
  | forward (n : ℕ)
  | finish (n : ℕ)
deriving DecidableEq

namespace ConnectionState

/-- INTERNAL: one step of the task `n`, which is still running. -/
def withTask (c : ConnectionState) (n : ℕ) (f : SpanTask → Option SpanTask) :
    Option ConnectionState :=
  match c.tasks[n]? with
  | some t => if t.ended then none else (f t).map fun t' => { c with tasks := c.tasks.set n t' }
  | none => none

/-- INTERNAL: the span a step sends, with the task that sends it.
SRCLINE: server.rs:320-330 -/
def forwarded (c : ConnectionState) : StreamStep → Option (ℕ × SpanRecord)
  | .forward n =>
    match c.tasks[n]? with
    | some t => (t.batch.head?.filter fun record => !t.ended && t.passes record).map fun record =>
        (n, record)
    | none => none
  | _ => none

/-- INTERNAL: one step of the connection and its tasks. -/
def step (c : ConnectionState) : StreamStep → Option ConnectionState
  | .request requestId body => some (c.newRpc requestId body)
  | .tell n response =>
    (c.tasks[n]?.filter fun t => !t.ended && t.tells response).map fun t =>
      c.respond t.requestId response
  | .subscribe n => c.withTask n SpanTask.subscribe
  | .fanout batch full =>
    some { c with tasks := c.tasks.mapIdx fun n t => t.deliver (n ∈ full) batch }
  | .read n k => c.withTask n fun t => t.read c.state k
  | .forward n =>
    (c.withTask n SpanTask.next).map fun c' =>
      match c.forwarded (.forward n) with
      | some (_, record) =>
        c'.respond ((c.tasks.map SpanTask.requestId).getD n 0) (.span record)
      | none => c'
  | .finish n => c.withTask n fun t => some { t with ended := true }

end ConnectionState

end TracingConsole.Model
