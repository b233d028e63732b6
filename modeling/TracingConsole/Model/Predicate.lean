import TracingConsole.Model.CacheThreads
import TracingConsole.Model.LevelBus
import TracingConsole.Model.SpanStreams

/-!
# What a host lets its cache record

The predicate a cache asks before it opens a span: the level at which the host records, and the
chance that a root span has.  Both are read from the handles that the broadcast of the server
sets, while the threads of the program go on calling the cache.

A `new_span` call asks in two steps.  It reads the chance, and rolls the dice if the span is a
root; then it reads the level.  Anything may happen in between.
-/

set_option autoImplicit false

namespace TracingConsole.Model

open TracingConsole.Library

/-! ## Predicates -/

/-- INTERNAL: SRCLINE: predicate.rs:14-20 -/
inductive Interest where
  | never | sometimes | always
deriving DecidableEq

/-- INTERNAL: what a predicate answers while its handles hold what they hold.
SRCLINE: predicate.rs:22-27 -/
structure EnabledPredicate where
  maxLevelHint : Option LevelFilter
  callsiteEnabled : Metadata → Interest
  enabled : Metadata → Bool
  newSpanEnabled : Attributes → Bool

namespace LevelFilter

/-- INTERNAL: the filter that lets a level through and nothing beyond. -/
def fromLevel : WireLevel → LevelFilter
  | .error => .error
  | .warn => .warn
  | .info => .info
  | .debug => .debug
  | .trace => .trace

/-- INTERNAL: the order of `tracing`'s filters: `OFF` is the least, `TRACE` the greatest. -/
def verbosity : LevelFilter → ℕ
  | .off => 0
  | .error => 1
  | .warn => 2
  | .info => 3
  | .debug => 4
  | .trace => 5

/-- INTERNAL: the comparison the predicate makes.
SRCLINE: predicate.rs:106-113, 120-124 -/
def admits (filter : LevelFilter) (level : WireLevel) : Bool :=
  if filter = .off then false else (fromLevel level).verbosity ≤ filter.verbosity

/-- INTERNAL: off admits no level. -/
@[simp] theorem off_admits (level : WireLevel) : off.admits level = false := rfl

end LevelFilter

/-- INTERNAL: SRCLINE: predicate.rs:93-130 -/
def levelPredicate (byte : ℕ) : EnabledPredicate where
  maxLevelHint := some (u8ToFilter byte)
  callsiteEnabled metadata :=
    let filter := u8ToFilter byte
    if filter = .off then .never
    else if (LevelFilter.fromLevel metadata.level).verbosity ≤ filter.verbosity then .always
    else .never
  enabled metadata := (u8ToFilter byte).admits metadata.level
  newSpanEnabled attrs := (u8ToFilter byte).admits attrs.metadata.level

/-- INTERNAL: a comparison with a NaN is false. -/
def F64.le (x y : F64) : Bool := !x.isNan && !y.isNan && decide (x.order ≤ y.order)

/-- INTERNAL: what the chance `pct` says of a span whose dice gave `roll`, of `[0, 100)`; only
roots are rolled for.
SRCLINE: predicate.rs:250-264 -/
def passesChance (pct roll : F64) (attrs : Attributes) : Bool :=
  if attrs.parent = .root then
    if pct.le F64.zero then false
    else if pct.lt F64.hundred then !pct.le roll
    else true
  else true

/-- INTERNAL: SRCLINE: predicate.rs:231-267 -/
def chancePredicate (pct roll : F64) (inner : EnabledPredicate) : EnabledPredicate where
  maxLevelHint := inner.maxLevelHint
  callsiteEnabled := inner.callsiteEnabled
  enabled := inner.enabled
  newSpanEnabled attrs := passesChance pct roll attrs && inner.newSpanEnabled attrs

/-! ## What the subscriber answers -/

/-- INTERNAL: SRCLINE: cache.rs:346-355 -/
def registerCallsite (predicate : EnabledPredicate) (metadata : Metadata) : Interest :=
  predicate.callsiteEnabled metadata

/-- INTERNAL: SRCLINE: cache.rs:357-362 -/
def subscriberEnabled (predicate : EnabledPredicate) (top : Option StackedSpan)
    (metadata : Metadata) : Bool :=
  if top.any fun s => s.tracingId = disabledId then false else predicate.enabled metadata

/-- INTERNAL: SRCLINE: cache.rs:364-366 -/
def eventEnabled (predicate : EnabledPredicate) (metadata : Metadata) : Bool :=
  predicate.enabled metadata

/-! ## A cache and the server that sets its level and chance -/

/-- INTERNAL: the threads that call the cache, the broadcast that holds the handles of its
predicate, and the threads whose span has passed the chance and not yet been asked for its
level. -/
structure FilteredHost (T C : Type) where
  world : World T
  bus : Bus C
  chancePassed : T → Bool

/-- INTERNAL: the steps: those of the calls, those of the predicate, those of the server. -/
inductive FilteredStep (T C : Type) where
  | call (a : CacheStep T)
  | chance (t : T) (roll : F64)
  | level (t : T)
  | bus (a : BusStep C)

namespace FilteredHost

variable {T C : Type} [DecidableEq T] [DecidableEq C]

/-- INTERNAL: a new cache whose predicate starts at `level` and `chance`. -/
def start (cache : SpanCache) (nextThreadKey : ℕ) (threadShardKey : T → ℕ) (level : LevelFilter)
    (chance : F64) : FilteredHost T C where
  world := World.start cache nextThreadKey threadShardKey
  bus := Bus.new level chance
  chancePassed := fun _ => false

/-- INTERNAL: the cache has its answer.
SRCLINE: cache.rs:404-407 -/
def answer (h : FilteredHost T C) (t : T) (accepts : Bool) : Option (FilteredHost T C) :=
  (h.world.step (.predicate t accepts)).map fun world =>
    { h with world := world, chancePassed := Function.update h.chancePassed t false }

/-- INTERNAL: one step; a thread is asked for the chance first.
SRCLINE: predicate.rs:249-266 -/
def step (h : FilteredHost T C) : FilteredStep T C → Option (FilteredHost T C)
  | .call (.predicate _ _) => none
  | .call a => (h.world.step a).map fun world => { h with world := world }
  | .chance t roll =>
    match h.world.call t, h.chancePassed t with
    | .resolved o, false =>
      if passesChance h.bus.chanceHandle roll o.attrs then
        some { h with chancePassed := Function.update h.chancePassed t true }
      else h.answer t false
    | _, _ => none
  | .level t =>
    match h.world.call t, h.chancePassed t with
    | .resolved o, true => h.answer t ((levelPredicate h.bus.levelHandle).newSpanEnabled o.attrs)
    | _, _ => none
  | .bus a => (h.bus.step a).map fun bus => { h with bus := bus }

end FilteredHost

end TracingConsole.Model
