import TracingConsole.Library.WatchChannel
import TracingConsole.Model.Wire

/-!
# The cache level and chance, and who is told

All connections of a host share one `CacheLevelBroadcast` (server.rs:48-148): the handles of
the cache's predicates, a watch channel for each and the number of streaming sessions.  A
request is worked off by its connection one atomic access at a time: every load, store and
send is an `Action` of its own, and between two of them any other connection may move.
Requests that only touch the connection's own stream state are not part of the model.

The counter cannot wrap: every session counted holds a guard in memory.
-/

set_option autoImplicit false

namespace TracingConsole.Model

open TracingConsole.Library

/-! ## Levels -/

/-- INTERNAL: what the cache records at most; `tracing`'s own type. -/
inductive LevelFilter where
  | off | error | warn | info | debug | trace
deriving DecidableEq

/-- INTERNAL: the byte a `LevelHandle` stores.
SRCLINE: predicate.rs:132-147 -/
def filterToU8 : LevelFilter → ℕ
  | .off => 0
  | .error => 1
  | .warn => 2
  | .info => 3
  | .debug => 4
  | .trace => 5

/-- INTERNAL: the level a byte stands for.
SRCLINE: predicate.rs:149-158 -/
def u8ToFilter : ℕ → LevelFilter
  | 0 => .off
  | 1 => .error
  | 2 => .warn
  | 3 => .info
  | 4 => .debug
  | _ => .trace

/-- INTERNAL: a filter is read back from its number. -/
@[simp] theorem u8ToFilter_filterToU8 (f : LevelFilter) : u8ToFilter (filterToU8 f) = f := by
  cases f <;> rfl

/-- INTERNAL: a level as it is sent.
SRCLINE: protocol.rs:136-144 -/
inductive WireLevelFilter where
  | off | error | warn | info | debug | trace
deriving DecidableEq

namespace WireLevelFilter

/-- INTERNAL:
SRCLINE: protocol.rs:147-162 -/
def fromTracing : LevelFilter → WireLevelFilter
  | .off => .off
  | .error => .error
  | .warn => .warn
  | .info => .info
  | .debug => .debug
  | .trace => .trace

/-- INTERNAL:
SRCLINE: protocol.rs:164-174 -/
def toTracing : WireLevelFilter → LevelFilter
  | .off => .off
  | .error => .error
  | .warn => .warn
  | .info => .info
  | .debug => .debug
  | .trace => .trace

end WireLevelFilter

/-! ## Percentages -/

namespace F64

/-- INTERNAL: the exponent is all ones and the fraction is not zero. -/
def isNan (x : F64) : Bool :=
  x.bits.toNat / 2 ^ 52 % 2 ^ 11 = 2 ^ 11 - 1 ∧ x.bits.toNat % 2 ^ 52 ≠ 0

/-- INTERNAL: the order of the numbers as an order of integers; both zeros are zero. -/
def order (x : F64) : ℤ :=
  if x.bits.msb then -((x.bits.toNat % 2 ^ 63 : ℕ) : ℤ) else ((x.bits.toNat % 2 ^ 63 : ℕ) : ℤ)

/-- INTERNAL: a comparison with a NaN is false. -/
def lt (x y : F64) : Bool := !x.isNan && !y.isNan && decide (x.order < y.order)

/-- INTERNAL: `f64::clamp`. -/
def clamp (x min max : F64) : F64 :=
  if x.lt min then min else if max.lt x then max else x

/-- INTERNAL: the literals `0.0` and `100.0`. -/
def zero : F64 := ⟨0x0000000000000000#64⟩

/-- INTERNAL: a hundred percent. -/
def hundred : F64 := ⟨0x4059000000000000#64⟩

end F64

/-- INTERNAL: the percentage a `ChanceHandle` stores.
SRCLINE: predicate.rs:221-227 -/
def clampPct (pct : F64) : F64 :=
  if pct.isNan then F64.zero else pct.clamp F64.zero F64.hundred

/-- INTERNAL: the handle may clamp what was clamped before. -/
@[simp] theorem clampPct_clampPct (pct : F64) : clampPct (clampPct pct) = clampPct pct := by
  have hzero : clampPct F64.zero = F64.zero := by decide
  have hhundred : clampPct F64.hundred = F64.hundred := by decide
  by_cases hnan : pct.isNan
  · simp only [clampPct, if_pos hnan]
    exact hzero
  · by_cases hlow : pct.lt F64.zero
    · have hclamped : clampPct pct = F64.zero := by
        simp only [clampPct, F64.clamp, hnan, hlow, if_true, Bool.false_eq_true, if_false]
      rw [hclamped, hzero]
    · by_cases hhigh : F64.hundred.lt pct
      · have hclamped : clampPct pct = F64.hundred := by
          simp only [clampPct, F64.clamp, hnan, hlow, hhigh, if_true, Bool.false_eq_true, if_false]
        rw [hclamped, hhundred]
      · have hclamped : clampPct pct = pct := by
          simp only [clampPct, F64.clamp, hnan, hlow, hhigh, Bool.false_eq_true, if_false]
        rw [hclamped, hclamped]

/-! ## The broadcast and its connections -/

/-- INTERNAL: the atomic accesses a connection makes to the broadcast. -/
inductive Action where
  | enterStream
  | subscribeLevel
  | subscribeChance
  | storeLevel (filter : WireLevelFilter)
  | sendLevel (filter : WireLevelFilter)
  | storeChance (pct : F64)
  | sendChance (pct : F64)
  | exitStream
deriving DecidableEq

/-- INTERNAL: a level is stored first and sent after.
SRCLINE: server.rs:83-86 -/
def setLevel (filter : WireLevelFilter) : List Action :=
  [.storeLevel filter, .sendLevel filter]

/-- INTERNAL: the effective percentage is stored first and sent after.
SRCLINE: server.rs:88-99 -/
def setChance (pct : F64) : List Action :=
  let pct := if pct.isNan then F64.zero else pct.clamp F64.zero F64.hundred
  [.storeChance pct, .sendChance pct]

/-- INTERNAL: what the drop of the last guard does.
SRCLINE: server.rs:137-146 -/
def idleReset : List Action :=
  [.storeLevel .off, .sendLevel .off, .storeChance F64.hundred, .sendChance F64.hundred]

/-- INTERNAL: one client connection: whether it has been dropped, whether it holds a stream
guard, the receiver `level_rx` of the call under way and what is left to do of it.
SRCLINE: server.rs:155-167 -/
structure Connection where
  dropped : Bool
  streamGuard : Bool
  levelRx : ℕ
  todo : List Action

/-- INTERNAL:
SRCLINE: server.rs:169-179 -/
def Connection.new : Connection :=
  { dropped := false, streamGuard := false, levelRx := 0, todo := [] }

/-- INTERNAL: the requests that touch the broadcast.
SRCLINE: server.rs:191-235 -/
inductive RequestBody where
  | startStream
  | setCacheLevel (filter : WireLevelFilter)
  | setCacheChance (pct : F64)

/-- INTERNAL: the accesses of a request; a connection registers one guard only.
SRCLINE: server.rs:186-235 -/
def Connection.newRpc (conn : Connection) : RequestBody → List Action
  | .startStream =>
    (if conn.streamGuard then [] else [.enterStream]) ++ [.subscribeLevel, .subscribeChance]
  | .setCacheLevel filter => setLevel filter
  | .setCacheChance pct => setChance pct

/-- INTERNAL: the receivers of a span stream; one that was dropped is gone.
SRCLINE: server.rs:263-270 -/
structure SpanStream where
  levelRx : Option (Receiver WireLevelFilter)
  chanceRx : Option (Receiver F64)

/-- INTERNAL: the broadcast, the connections and the streams they started.
SRCLINE: server.rs:59-66 -/
structure Bus (C : Type) where
  levelHandle : ℕ
  levelTx : Watch WireLevelFilter
  chanceHandle : F64
  chanceTx : Watch F64
  activeStreams : ℕ
  connection : C → Connection
  streams : List SpanStream

namespace Bus

variable {C : Type} [DecidableEq C]

/-- INTERNAL: a broadcast over the handles of a cache that records at `level` and `chance`.
SRCLINE: server.rs:69-81 -/
def new (level : LevelFilter) (chance : F64) : Bus C :=
  { levelHandle := filterToU8 level
    levelTx := Watch.channel (WireLevelFilter.fromTracing level)
    chanceHandle := clampPct chance
    chanceTx := Watch.channel (clampPct chance)
    activeStreams := 0
    connection := fun _ => Connection.new
    streams := [] }

/-- INTERNAL: the level the cache records at.
SRCLINE: predicate.rs:91-93 -/
def level (b : Bus C) : LevelFilter := u8ToFilter b.levelHandle

/-- INTERNAL: one atomic access of the connection `c`, after which `rest` is left to do.
SRCLINE: server.rs:83-148, 191-212 -/
def act (b : Bus C) (c : C) (rest : List Action) (a : Action) : Bus C :=
  let conn := { b.connection c with todo := rest }
  let b := { b with connection := Function.update b.connection c conn }
  match a with
  | .enterStream =>
    { b with
      activeStreams := b.activeStreams + 1
      connection := Function.update b.connection c { conn with streamGuard := true } }
  | .subscribeLevel =>
    { b with
      levelTx := b.levelTx.subscribe
      connection := Function.update b.connection c { conn with levelRx := b.levelTx.version } }
  | .subscribeChance =>
    { b with
      chanceTx := b.chanceTx.subscribe
      streams := b.streams ++
        [{ levelRx := some { seen := conn.levelRx, sent := none }
           chanceRx := some { seen := b.chanceTx.version, sent := none } }] }
  | .storeLevel filter => { b with levelHandle := filterToU8 filter.toTracing }
  | .sendLevel filter => { b with levelTx := b.levelTx.send filter }
  | .storeChance pct => { b with chanceHandle := clampPct pct }
  | .sendChance pct => { b with chanceTx := b.chanceTx.send pct }
  | .exitStream =>
    let prev := b.activeStreams
    { b with
      activeStreams := prev - 1
      connection := Function.update b.connection c
        { conn with
          streamGuard := false
          todo := if prev = 1 then idleReset else rest } }

end Bus

/-! ## Steps -/

/-- INTERNAL: what can happen next.  A connection takes a request or is dropped only with
nothing left to do; the streams it started run and end on their own. -/
inductive BusStep (C : Type) where
  | request (c : C) (body : RequestBody)
  | perform (c : C)
  | disconnect (c : C)
  | pushLevel (n : ℕ)
  | pushChance (n : ℕ)
  | dropLevelRx (n : ℕ)
  | dropChanceRx (n : ℕ)

namespace Bus

variable {C : Type} [DecidableEq C]

/-- INTERNAL: the connection `c` has `todo` to do next. -/
def assign (b : Bus C) (c : C) (conn : Connection) (todo : List Action) : Bus C :=
  { b with connection := Function.update b.connection c { conn with todo := todo } }

/-- INTERNAL: a stream sends the level first, then the chance, then whatever changed.
SRCLINE: server.rs:271-303 -/
def pushLevel (b : Bus C) (n : ℕ) : Option (Bus C) :=
  match b.streams[n]? with
  | some { levelRx := some level, chanceRx := some chance } =>
    if level.sent = none ∨ (chance.sent ≠ none ∧ level.seen ≠ b.levelTx.version) then
      some { b with
        streams := b.streams.set n
          { levelRx := some b.levelTx.forwarded, chanceRx := some chance } }
    else none
  | _ => none

/-- INTERNAL:
SRCLINE: server.rs:271-308 -/
def pushChance (b : Bus C) (n : ℕ) : Option (Bus C) :=
  match b.streams[n]? with
  | some { levelRx := some level, chanceRx := some chance } =>
    if level.sent ≠ none ∧ (chance.sent = none ∨ chance.seen ≠ b.chanceTx.version) then
      some { b with
        streams := b.streams.set n
          { levelRx := some level, chanceRx := some b.chanceTx.forwarded } }
    else none
  | _ => none

/-- INTERNAL: a stream that ends drops its receivers one after the other. -/
def dropLevelRx (b : Bus C) (n : ℕ) : Option (Bus C) :=
  match b.streams[n]? with
  | some { levelRx := some _, chanceRx := chance } =>
    some { b with
      levelTx := b.levelTx.dropReceiver
      streams := b.streams.set n { levelRx := none, chanceRx := chance } }
  | _ => none

/-- INTERNAL: a receiver of chances goes with its stream. -/
def dropChanceRx (b : Bus C) (n : ℕ) : Option (Bus C) :=
  match b.streams[n]? with
  | some { levelRx := level, chanceRx := some _ } =>
    some { b with
      chanceTx := b.chanceTx.dropReceiver
      streams := b.streams.set n { levelRx := level, chanceRx := none } }
  | _ => none

/-- INTERNAL: one step of the host. -/
def step (b : Bus C) : BusStep C → Option (Bus C)
  | .request c body =>
    let conn := b.connection c
    if conn.dropped ∨ conn.todo ≠ [] then none
    else some (b.assign c conn (conn.newRpc body))
  | .perform c =>
    match (b.connection c).todo with
    | [] => none
    | a :: rest => some (b.act c rest a)
  | .disconnect c =>
    let conn := b.connection c
    if conn.dropped ∨ conn.todo ≠ [] then none
    else some (b.assign c { conn with dropped := true }
      (if conn.streamGuard then [.exitStream] else []))
  | .pushLevel n => b.pushLevel n
  | .pushChance n => b.pushChance n
  | .dropLevelRx n => b.dropLevelRx n
  | .dropChanceRx n => b.dropChanceRx n

end Bus

end TracingConsole.Model
