import TracingConsole.Model.Apply
import TracingConsole.Model.CachePipeline
import TracingConsole.Model.Network
import TracingConsole.Model.SpanStreams
import TracingConsole.Model.WireRecord

/-!
# A host and its console

The whole way of a span as one machine: the cache and its driver on the host, the stream task of
every connection the console has made, the responses under way on it, the console's network
task, and the reducer behind the network task's channel.

A connection delivers in order, and may break at any time with what is still on it.  When the
console has dialled again, the tasks of its old connections may go on for a while; nobody reads
what they send.  Other consoles may subscribe as well.
-/

set_option autoImplicit false

namespace TracingConsole.Model

open TracingConsole.Library

/-- INTERNAL: one connection of the console: the host's side of it, the number of its
subscription once its task has subscribed, and the responses the console has not read.
SRCLINE: server.rs:155-179, runtime.rs:123-135 -/
structure Link where
  server : ConnectionState
  subscription : Option ℕ
  inFlight : List ResponseBody
deriving DecidableEq

/-- INTERNAL: the console's one request, handled by the host.
SRCLINE: runtime.rs:124-126, server.rs:186-216 -/
def Link.open (requestId : ℕ) : Link where
  server := ConnectionState.new.newRpc requestId .startStream
  subscription := none
  inFlight := []

/-- INTERNAL: the host, the console's connections in the order they were made, the network task
and the reducer; `given` are the spans the reducer was given so far. -/
structure Relay (T : Type) where
  host : System T
  links : List Link
  network : NetworkTask
  console : ConsoleModel
  given : List WireSpan

/-- INTERNAL: what the task of a connection does next. -/
inductive LinkStep where
  | subscribe
  | read (k : ℕ)
  | forward
  | finish
  /-- a response that is not a span: the server's version, the cache's level or chance -/
  | push (body : ResponseBody)
deriving DecidableEq

/-- INTERNAL: the steps of the whole.  A burst of the network task takes `ready` responses of the
connection and then, if the stream has ended, its end. -/
inductive RelayStep (T : Type) where
  | host (a : SystemStep T)
  | link (n : ℕ) (a : LinkStep)
  | network (a : NetworkStep)
  | burst (ready : ℕ) (ending : Option StreamItem) (many error last : SendAnswer)
  /-- the reducer takes the next update of the network task -/
  | take (now : ℕ)
  /-- the reducer takes an update of another sender -/
  | other (now : ℕ) (u : Update)

/-- INTERNAL: whether an update is one that only the network task sends.
SRCLINE: runtime.rs:109-260 -/
def Update.fromNetwork : Update → Bool
  | .spanReceived _ | .cacheLevelReceived _ | .cacheChanceReceived _ | .serverInfoReceived _
  | .connected | .disconnected _ | .status _ => true
  | _ => false

/-- INTERNAL: the spans an update brings. -/
def Update.spans : Update → List WireSpan
  | .spanReceived span => [span]
  | _ => []

/-- INTERNAL: the spans of a response. -/
def ResponseBody.spans : ResponseBody → List WireSpan
  | .span s => [s]
  | _ => []

namespace Relay

variable {T : Type} [DecidableEq T]

/-- INTERNAL: a new cache on the host, and a console that has not dialled yet.
SRCLINE: cache.rs:129-205, runtime.rs:53-84 -/
def start (cache : SpanCache) (nextThreadKey : ℕ) (threadShardKey : T → ℕ)
    (cacheAddr capacity historyBudget : ℕ) : Relay T where
  host := System.start cache nextThreadKey threadShardKey cacheAddr capacity
  links := []
  network := NetworkTask.start
  console := ConsoleModel.new historyBudget
  given := []

/-- INTERNAL: the subscribers a step of the host finds full. -/
def slowIn : SystemStep T → List ℕ
  | .transport (.pollSpans _ slow) => slow
  | _ => []

/-- INTERNAL: the task of a connection, if its subscriber is full. -/
def fullTasks (slow : List ℕ) (subscription : Option ℕ) : List ℕ :=
  if subscription.any fun n => n ∈ slow then [0] else []

/-- INTERNAL: a batch the driver fans out goes to the task of every connection, unless its
subscriber is full.
SRCLINE: driver.rs:168-187 -/
def fanout (slow : List ℕ) (batch : List SpanRecord) (l : Link) : Link :=
  { l with
    server := (l.server.step (.fanout batch (fullTasks slow l.subscription))).getD l.server }

/-- INTERNAL: a step of the host; the receiver of a connection is dropped by its task. -/
def hostStep (s : Relay T) (a : SystemStep T) : Option (Relay T) :=
  if s.links.any fun l => l.subscription.any fun n => a = .transport (.dropReceiver n) then none
  else
    (s.host.step a).map fun host =>
      let batch := host.pipeline.join.fannedOut.drop s.host.pipeline.join.fannedOut.length
      { s with host := host, links := s.links.map (fanout (slowIn a) batch) }

/-- INTERNAL: the next span of the batch under way, if it is sent, as it is on the wire.
SRCLINE: server.rs:320-330 -/
def forwardedSpans (unfilledInstant : ℕ) (base : TimeBase) (l : Link) : List ResponseBody :=
  ((l.server.forwarded (.forward 0)).map fun sent =>
    ResponseBody.span (spanToWire unfilledInstant base sent.2)).toList

/-- INTERNAL: a step of the task of a connection.
SRCLINE: server.rs:253-333 -/
def linkStep (unfilledInstant : ℕ) (base : TimeBase) (s : Relay T) (n : ℕ) (a : LinkStep) :
    Option (Relay T) :=
  match s.links[n]? with
  | none => none
  | some l =>
    match a with
    | .subscribe =>
      (l.server.step (.subscribe 0)).bind fun server =>
        (s.host.step (.transport .subscribe)).map fun host =>
          { s with
            host := host
            links := s.links.set n
              { l with
                server := server
                subscription := some s.host.pipeline.registered.length } }
    | .read k =>
      (l.server.step (.read 0 k)).map fun server =>
        { s with links := s.links.set n { l with server := server } }
    | .forward =>
      (l.server.step (.forward 0)).map fun server =>
        { s with
          links := s.links.set n
            { l with
              server := server
              inFlight := l.inFlight ++ forwardedSpans unfilledInstant base l } }
    | .finish =>
      (l.server.step (.finish 0)).bind fun server =>
        let host := match l.subscription with
          | some m => s.host.step (.transport (.dropReceiver m))
          | none => some s.host
        host.map fun host =>
          { s with host := host, links := s.links.set n { l with server := server } }
    | .push body =>
      if body.spans = [] then
        some { s with links := s.links.set n { l with inFlight := l.inFlight ++ [body] } }
      else none

/-- INTERNAL: a step of the network task that reads nothing.  A stream that starts is a new
connection of the host's. -/
def networkStep (s : Relay T) (a : NetworkStep) : Option (Relay T) :=
  match a with
  | .burst .. => none
  | .started =>
    (s.network.step a).map fun network =>
      { s with network := network, links := s.links ++ [Link.open s.network.nextId] }
  | _ => (s.network.step a).map fun network => { s with network := network }

/-- INTERNAL: the network task reads the connection it made last: `ready` responses, and the end
of the stream if it comes to that.
SRCLINE: runtime.rs:164-215 -/
def burstStep (s : Relay T) (ready : ℕ) (ending : Option StreamItem)
    (many error last : SendAnswer) : Option (Relay T) :=
  match s.links.getLast? with
  | none => none
  | some l =>
    match (l.inFlight.take ready).map StreamItem.response ++ ending.toList with
    | [] => none
    | item :: items =>
      if ready ≤ l.inFlight.length ∧ ending.all StreamItem.endsStream ∧
          (takeBurst item items).2 = [] then
        (s.network.step (.burst item items many error last)).map fun network =>
          { s with
            network := network
            links := s.links.dropLast ++ [{ l with inFlight := l.inFlight.drop ready }] }
      else none

/-- INTERNAL: the reducer takes an update.
SRCLINE: runtime.rs:332-345 -/
def reduce (s : Relay T) (now : ℕ) (u : Update) : Option (Relay T) :=
  (s.console.apply now u).map fun r => { s with console := r.1, given := s.given ++ u.spans }

/-- INTERNAL: one step of the whole. -/
def step (unfilledInstant : ℕ) (base : TimeBase) (s : Relay T) : RelayStep T → Option (Relay T)
  | .host a => s.hostStep a
  | .link n a => s.linkStep unfilledInstant base n a
  | .network a => s.networkStep a
  | .burst ready ending many error last => s.burstStep ready ending many error last
  | .take now =>
    match s.network.channel with
    | [] => none
    | u :: channel => { s with network := { s.network with channel := channel } }.reduce now u
  | .other now u => if u.fromNetwork then none else s.reduce now u

end Relay

end TracingConsole.Model
