import TracingConsole.Model.Console

/-!
# The network task

The task of the console that talks to the host (runtime.rs:85-263): it dials, starts one stream,
and passes on what the host pushes, in bursts, until the stream breaks; then it sleeps and dials
again.  What it sends to the reducer goes over a bounded channel that may refuse a message, a
burst as a whole.

What `connect`, the stream and the channel answer is part of the step.
-/

set_option autoImplicit false

namespace TracingConsole.Model

/-- INTERNAL: what the host can send.
SRCLINE: protocol.rs:267-292 -/
inductive ResponseBody where
  | noop
  | serverInfo (version : String)
  | span (s : WireSpan)
  | cacheLevel (filter : WireLevelFilter)
  | cacheChance (pct : F64)
  | ack
  | error (message : String)
deriving DecidableEq

/-- INTERNAL: SRCLINE: runtime.rs:37-41 -/
inductive Outgoing where
  | setCacheLevel (filter : WireLevelFilter)
  | setCacheChance (pct : ℚ)
deriving DecidableEq

/-- INTERNAL: SRCLINE: runtime.rs:142-150 -/
def respToUpdate : ResponseBody → Option Update
  | .span s => some (.spanReceived s)
  | .cacheLevel filter => some (.cacheLevelReceived filter)
  | .cacheChance pct => some (.cacheChanceReceived pct)
  | .serverInfo version => some (.serverInfoReceived version)
  | .noop | .ack | .error _ => none

/-! ## Bursts -/

/-- INTERNAL: SRCLINE: runtime.rs:154 -/
def maxBatch : ℕ := 256

/-- INTERNAL: what the stream yields.
SRCLINE: runtime.rs:168-178 -/
inductive StreamItem where
  | response (body : ResponseBody)
  | failed (e : String)
  | ended
deriving DecidableEq

/-- INTERNAL: whether nothing comes after an item. -/
def StreamItem.endsStream : StreamItem → Bool
  | .response _ => false
  | .failed _ | .ended => true

/-- INTERNAL: the updates of a burst, and how the stream ended if it did.
SRCLINE: runtime.rs:165-167 -/
structure Burst where
  batch : List Update
  streamEndedAt : Option String
  streamDropped : Bool

/-- INTERNAL: take what else is ready, until the batch is full; the second part is what is left
on the stream.
SRCLINE: runtime.rs:179-198 -/
def drainReady (batch : List Update) : List StreamItem → Burst × List StreamItem
  | [] => ({ batch := batch, streamEndedAt := none, streamDropped := false }, [])
  | item :: items =>
    if batch.length < maxBatch then
      match item with
      | .ended => ({ batch := batch, streamEndedAt := none, streamDropped := true }, items)
      | .failed e =>
        ({ batch := batch, streamEndedAt := some ("stream error: " ++ e), streamDropped := false },
          items)
      | .response body => drainReady (batch ++ (respToUpdate body).toList) items
    else
      ({ batch := batch, streamEndedAt := none, streamDropped := false }, item :: items)

/-- INTERNAL: the burst that begins with `item`, while `items` are ready after it.
SRCLINE: runtime.rs:164-198 -/
def takeBurst (item : StreamItem) (items : List StreamItem) : Burst × List StreamItem :=
  match item with
  | .ended => ({ batch := [], streamEndedAt := none, streamDropped := true }, items)
  | .failed e =>
    ({ batch := [], streamEndedAt := some ("stream error: " ++ e), streamDropped := false }, items)
  | .response body => drainReady (respToUpdate body).toList items

/-! ## The task -/

/-- INTERNAL: where the task is.
SRCLINE: runtime.rs:108-262 -/
inductive NetworkPhase where
  /-- at the top of the loop -/
  | dialing
  /-- `connect` is awaited -/
  | connecting
  /-- connected, the stream is started next -/
  | starting
  | streaming
  | sleeping
  /-- the console is gone -/
  | stopped
deriving DecidableEq

/-- INTERNAL: what the channel answers. -/
inductive SendAnswer where
  | accepted | full | closed
deriving DecidableEq

/-- INTERNAL: the task.  `channel` is what the reducer has not taken yet; `accepted` (all the
channel took), `refused` (the single updates it did not take), `bursts` (each with its answer) and
`requested` (the ids of the requests) are histories, oldest first. -/
structure NetworkTask where
  phase : NetworkPhase
  nextId : ℕ
  channel : List Update
  accepted : List Update
  refused : List Update
  bursts : List (List Update × SendAnswer)
  requested : List ℕ

/-- INTERNAL: the steps of the task, with what it is answered. -/
inductive NetworkStep where
  | dial (addr : String) (answer : SendAnswer)
  | connectFailed (e : String) (answer : SendAnswer)
  | connected (answer : SendAnswer)
  | startFailed (e : String) (answer : SendAnswer)
  | started
  | burst (item : StreamItem) (items : List StreamItem) (many error last : SendAnswer)
  | outgoing (req : Outgoing)
  | outgoingClosed (last : SendAnswer)
  | wake
deriving DecidableEq

namespace NetworkTask

/-- INTERNAL: SRCLINE: runtime.rs:85-105 -/
def start : NetworkTask where
  phase := .dialing
  nextId := 1
  channel := []
  accepted := []
  refused := []
  bursts := []
  requested := []

/-- INTERNAL: `let _ = tx.send(update)`. -/
def send (n : NetworkTask) (answer : SendAnswer) (update : Update) : NetworkTask :=
  if answer = .accepted then
    { n with channel := n.channel ++ [update], accepted := n.accepted ++ [update] }
  else { n with refused := n.refused ++ [update] }

/-- INTERNAL: the whole batch or nothing.
SRCLINE: runtime.rs:199-207 -/
def sendMany (n : NetworkTask) (answer : SendAnswer) (batch : List Update) : NetworkTask :=
  let logged := { n with bursts := n.bursts ++ [(batch, answer)] }
  if answer = .accepted then
    { logged with channel := n.channel ++ batch, accepted := n.accepted ++ batch }
  else logged

/-- INTERNAL: a request takes the next id, which wraps around.
SRCLINE: runtime.rs:124-125, 242 -/
def request (n : NetworkTask) : NetworkTask :=
  { n with nextId := (n.nextId + 1) % 2 ^ 64, requested := n.requested ++ [n.nextId] }

/-- INTERNAL: after the inner loop.
SRCLINE: runtime.rs:256-261 -/
def leaveStream (n : NetworkTask) (last : SendAnswer) (runtimeGone : Bool) : NetworkTask :=
  { n.send last (.disconnected "stream ended") with
    phase := if runtimeGone then .stopped else .sleeping }

/-- INTERNAL: the burst is sent, and the inner loop left if the stream ended or the console is
gone.
SRCLINE: runtime.rs:199-215 -/
def takeBatch (n : NetworkTask) (burst : Burst) (many error last : SendAnswer) : NetworkTask :=
  let sent := if burst.batch.isEmpty then n else n.sendMany many burst.batch
  if ¬ burst.batch.isEmpty ∧ many = .closed then sent.leaveStream last true
  else
    match burst.streamEndedAt with
    | some msg => (sent.send error (.disconnected msg)).leaveStream last false
    | none => if burst.streamDropped then sent.leaveStream last false else sent

/-- INTERNAL: one step, if the task is where it needs to be.
SRCLINE: runtime.rs:108-262 -/
def step (n : NetworkTask) : NetworkStep → Option NetworkTask
  | .dial addr answer =>
    if n.phase = .dialing then
      some { n.send answer (.status ("connecting to " ++ addr ++ "…")) with phase := .connecting }
    else none
  | .connectFailed e answer =>
    if n.phase = .connecting then
      some { n.send answer (.disconnected ("connect failed: " ++ e)) with phase := .sleeping }
    else none
  | .connected answer =>
    if n.phase = .connecting then some { n.send answer .connected with phase := .starting }
    else none
  | .startFailed e answer =>
    if n.phase = .starting then
      some { n.request.send answer (.disconnected ("StartStream failed: " ++ e)) with
        phase := .sleeping }
    else none
  | .started => if n.phase = .starting then some { n.request with phase := .streaming } else none
  | .burst item items many error last =>
    if n.phase = .streaming then some (n.takeBatch (takeBurst item items).1 many error last)
    else none
  | .outgoing _ => if n.phase = .streaming then some n.request else none
  | .outgoingClosed last =>
    if n.phase = .streaming then some (n.leaveStream last true) else none
  | .wake => if n.phase = .sleeping then some { n with phase := .dialing } else none

end NetworkTask

end TracingConsole.Model
