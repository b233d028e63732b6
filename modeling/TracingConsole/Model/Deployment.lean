import TracingConsole.Model.LevelBus
import TracingConsole.Model.Relay

/-!
# The host's level and chance, and a console

The rest of what a console and its host tell each other: the console asks for a level or a
chance, the host applies it and tells every stream, and the console shows what it is told.  The
machine puts the broadcast of the host beside the spans' way: each connection the console makes is
one of the host's connections, its requests reach the host in the order they were made, and what
its stream reads off the watch channels goes onto the wire with the spans.

Other clients are connections of the host as well; they ask for what they like.
-/

set_option autoImplicit false

namespace TracingConsole.Model

open TracingConsole.Library

/-- INTERNAL: a connection of the console, as the host's broadcast knows it: its stream once the
host has started it, the requests handled, and the requests on their way.
SRCLINE: server.rs:155-235, runtime.rs:228-250 -/
structure Peer (C : Type) where
  connection : C
  stream : Option ℕ
  handled : List RequestBody
  upstream : List RequestBody

/-- INTERNAL: a console has asked for its stream first.
SRCLINE: runtime.rs:124-126 -/
def Peer.open {C : Type} (c : C) : Peer C where
  connection := c
  stream := none
  handled := []
  upstream := [.startStream]

/-- INTERNAL: all of it.  The peers are the connections of `relay.links`.  `outgoing` is the queue
from the runtime to the network task; `levelLog` and `chanceLog` (every value a channel has held),
`asked` (all requests queued), `others` (what other clients asked for) and `received` (what the
reducer took from the network task) are histories, oldest first. -/
structure Deployment (T C : Type) where
  relay : Relay T
  bus : Bus C
  peers : List (Peer C)
  outgoing : List Outgoing
  asked : List Outgoing
  others : List RequestBody
  levelLog : List WireLevelFilter
  chanceLog : List F64
  received : List Update

/-- INTERNAL: the steps of the whole. -/
inductive DeploymentStep (T C : Type) where
  /-- a step that has nothing to do with the broadcast -/
  | relay (a : RelayStep T)
  /-- the network task starts its stream, over the connection `c` of the host's -/
  | started (c : C)
  /-- the host handles the next request of the console's `n`-th connection -/
  | deliver (n : ℕ)
  /-- the broadcast, its streams and the other clients -/
  | bus (a : BusStep C)
  /-- the network task takes a request off the queue -/
  | outgoing (sent : Bool)
  | take (now : ℕ) (queued : Bool)
  | other (now : ℕ) (u : Update) (queued : Bool)

/-- INTERNAL: a response that tells of the level or the chance. -/
def ResponseBody.tellsOfBus : ResponseBody → Bool
  | .cacheLevel _ | .cacheChance _ => true
  | _ => false

/-- INTERNAL: the steps of the spans' way that are steps of this machine as they are. -/
def RelayStep.leavesBus {T : Type} : RelayStep T → Bool
  | .link _ (.push body) => !body.tellsOfBus
  | .network .started | .network (.outgoing _) | .take _ | .other _ _ => false
  | _ => true

/-- INTERNAL: the history of a watch channel. -/
def logged {α : Type} (log : List α) (w w' : Watch α) : List α :=
  if w'.version = w.version then log else log ++ [w'.value]

/-- INTERNAL: the requests that an effect queues.
SRCLINE: runtime.rs:340-345 -/
def Effect.asks : Effect → List Outgoing
  | .requestSetLevel filter => [.setCacheLevel filter]
  | .requestSetChance pct => [.setCacheChance pct]
  | _ => []

/-- INTERNAL: the request that the network task makes of it; `toF64` is the double nearest to a
decimal.
SRCLINE: runtime.rs:234-241 -/
def Outgoing.request (toF64 : ℚ → F64) : Outgoing → RequestBody
  | .setCacheLevel filter => .setCacheLevel filter
  | .setCacheChance pct => .setCacheChance (toF64 pct)

/-- INTERNAL: the requests queued before the loops start.
SRCLINE: runtime.rs:71-76 -/
def initialRequests (setLevel : Option WireLevelFilter) (setChance : Option ℚ) : List Outgoing :=
  (setLevel.map Outgoing.setCacheLevel).toList ++ (setChance.map Outgoing.setCacheChance).toList

namespace Peer

variable {C : Type} [DecidableEq C]

/-- INTERNAL: the connection notes its stream when the stream is started.
SRCLINE: server.rs:201-216 -/
def joined (b : Bus C) (a : BusStep C) (p : Peer C) : Peer C :=
  match a with
  | .perform c =>
    if c = p.connection ∧ (b.connection c).todo.head? = some .subscribeChance then
      { p with stream := some b.streams.length }
    else p
  | _ => p

end Peer

namespace Deployment

variable {T C : Type} [DecidableEq T] [DecidableEq C]

/-- INTERNAL: a new host that records at `level` and `chance`, and a console that has not dialled
yet. -/
def start (relay : Relay T) (level : LevelFilter) (chance : F64)
    (setLevel : Option WireLevelFilter) (setChance : Option ℚ) : Deployment T C :=
  let bus := Bus.new level chance
  { relay := relay
    bus := bus
    peers := []
    outgoing := initialRequests setLevel setChance
    asked := initialRequests setLevel setChance
    others := []
    levelLog := [bus.levelTx.value]
    chanceLog := [bus.chanceTx.value]
    received := [] }

/-- INTERNAL: what a step of the broadcast sends to a stream.
SRCLINE: server.rs:271-303 -/
def told (b : Bus C) : BusStep C → Option (ℕ × ResponseBody)
  | .pushLevel n => some (n, .cacheLevel b.levelTx.value)
  | .pushChance n => some (n, .cacheChance b.chanceTx.value)
  | _ => none

/-- INTERNAL: what the console's connections are sent by it, and over which. -/
def heard (d : Deployment T C) (a : BusStep C) : Option (ℕ × ResponseBody) :=
  (told d.bus a).bind fun sent =>
    (d.peers.findIdx? fun p => p.stream = some sent.1).map fun n => (n, sent.2)

/-- INTERNAL: the spans' way with what the broadcast puts on the wire. -/
def onWire (unfilledInstant : ℕ) (base : TimeBase) (d : Deployment T C) (a : BusStep C) :
    Option (Relay T) :=
  match d.heard a with
  | none => some d.relay
  | some (n, body) => d.relay.step unfilledInstant base (.link n (.push body))

/-- INTERNAL: the broadcast after a step of it. -/
def withBus (d : Deployment T C) (bus : Bus C) : Deployment T C :=
  { d with
    bus := bus
    levelLog := logged d.levelLog d.bus.levelTx bus.levelTx
    chanceLog := logged d.chanceLog d.bus.chanceTx bus.chanceTx }

/-- INTERNAL: the requests of other clients. -/
def otherRequest : BusStep C → List RequestBody
  | .request _ body => [body]
  | _ => []

/-- INTERNAL: a connection of the console asks for nothing but what the console has sent. -/
def speaksFor (d : Deployment T C) : BusStep C → Bool
  | .request c _ => d.peers.any fun p => p.connection = c
  | _ => false

/-- INTERNAL: a request goes over the connection made last. -/
def send (peers : List (Peer C)) (body : RequestBody) : List (Peer C) :=
  match peers.getLast? with
  | none => peers
  | some p => peers.dropLast ++ [{ p with upstream := p.upstream ++ [body] }]

/-- INTERNAL: the requests an update has for an effect. -/
def asks (d : Deployment T C) (now : ℕ) (u : Update) : List Outgoing :=
  ((d.relay.console.apply now u).map fun r => r.2.asks).getD []

/-- INTERNAL: the requests are queued, unless the queue refuses them.
SRCLINE: runtime.rs:337-345 -/
def queue (d : Deployment T C) (reqs : List Outgoing) (queued : Bool) : Deployment T C :=
  let accepted := if queued then reqs else []
  { d with outgoing := d.outgoing ++ accepted, asked := d.asked ++ accepted }

/-- INTERNAL: one step of the whole. -/
def step (unfilledInstant : ℕ) (base : TimeBase) (toF64 : ℚ → F64) (d : Deployment T C) :
    DeploymentStep T C → Option (Deployment T C)
  | .relay a =>
    if a.leavesBus then
      (d.relay.step unfilledInstant base a).map fun relay => { d with relay := relay }
    else none
  | .started c =>
    if (d.peers.all fun p => p.connection ≠ c) ∧ (d.bus.connection c).dropped = false ∧
        (d.bus.connection c).streamGuard = false ∧ (d.bus.connection c).todo = [] then
      (d.relay.step unfilledInstant base (.network .started)).map fun relay =>
        { d with relay := relay, peers := d.peers ++ [Peer.open c] }
    else none
  | .deliver n =>
    match d.peers[n]? with
    | none => none
    | some p =>
      match p.upstream with
      | [] => none
      | body :: upstream =>
        (d.bus.step (.request p.connection body)).map fun bus =>
          { d.withBus bus with
            peers := d.peers.set n
              { p with handled := p.handled ++ [body], upstream := upstream } }
  | .bus a =>
    if d.speaksFor a then none
    else
      (d.bus.step a).bind fun bus =>
        (d.onWire unfilledInstant base a).map fun relay =>
          { d.withBus bus with
            relay := relay
            peers := d.peers.map (Peer.joined d.bus a)
            others := d.others ++ otherRequest a }
  | .outgoing sent =>
    match d.outgoing with
    | [] => none
    | req :: outgoing =>
      (d.relay.step unfilledInstant base (.network (.outgoing req))).map fun relay =>
        { d with
          relay := relay
          outgoing := outgoing
          peers := if sent then send d.peers (req.request toF64) else d.peers }
  | .take now queued =>
    match d.relay.network.channel with
    | [] => none
    | u :: _ =>
      (d.relay.step unfilledInstant base (.take now)).map fun relay =>
        { d.queue (d.asks now u) queued with relay := relay, received := d.received ++ [u] }
  | .other now u queued =>
    (d.relay.step unfilledInstant base (.other now u)).map fun relay =>
      { d.queue (d.asks now u) queued with relay := relay }

end Deployment

end TracingConsole.Model
