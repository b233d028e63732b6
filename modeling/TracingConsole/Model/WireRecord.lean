import TracingConsole.Model.Record

/-!
# From records to the wire

What the host streams of a closed span (wire.rs): its fields one by one, its events, and its
instants as nanoseconds of the Unix epoch, counted from the clocks read when the server started.
-/

set_option autoImplicit false

namespace TracingConsole.Model

/-- INTERNAL: SRCLINE: wire.rs:9-20 -/
def fieldToWire : FieldValue → WireFieldValue
  | .u64 v => .u64 v
  | .i64 v => .i64 v
  | .f64 v => .f64 v
  | .bool v => .bool v
  | .str s => .str s
  | .smallString s => .str s
  | .sharedString s => .str s
  | .string s => .str s

/-- INTERNAL: SRCLINE: record.rs:119-123 -/
def fieldGet (fields : FieldList) (name : String) : Option FieldValue :=
  (fields.find? fun kv => kv.1 = name).map Prod.snd

/-! ## Times -/

/-- INTERNAL: the clocks at the start of the server; the wall clock is in nanoseconds from the
Unix epoch, negative before it.
SRCLINE: wire.rs:30-42 -/
structure TimeBase where
  instantAtStart : ℕ
  systimeAtStart : ℤ
deriving DecidableEq

namespace TimeBase

/-- INTERNAL: the wall clock at an instant.
SRCLINE: wire.rs:48-49 -/
def wall (base : TimeBase) (t : ℕ) : ℤ :=
  base.systimeAtStart + ((t - base.instantAtStart : ℕ) : ℤ)

/-- INTERNAL: SRCLINE: wire.rs:44-54 -/
def ns (base : TimeBase) (t : ℕ) : ℕ :=
  if base.wall t < 0 then 0 else (base.wall t).toNat % 2 ^ 64

end TimeBase

/-! ## Events and spans -/

/-- INTERNAL: SRCLINE: record.rs:26-41 -/
def emptyMetadata : Metadata :=
  { name := "unfilled", target := "tracing_cache::record", level := .trace }

/-- INTERNAL: `unfilledInstant` is the stand-in for an instant that was not set.
SRCLINE: wire.rs:79-91, record.rs:138-155 -/
def eventToWire (unfilledInstant : ℕ) (base : TimeBase) (event : EventRecord) : WireEvent :=
  let metadata := event.metadata.getD emptyMetadata
  { name := metadata.name
    level := metadata.level
    fields := event.fields.map fun kv => (kv.1, fieldToWire kv.2)
    recordedAtNs := base.ns (event.recordedAt.getD unfilledInstant) }

/-- INTERNAL: SRCLINE: wire.rs:56-77 -/
def spanToWire (unfilledInstant : ℕ) (base : TimeBase) (record : SpanRecord) : WireSpan where
  id := record.id
  parentId := record.parentId
  name := record.metadata.name
  target := record.metadata.target
  level := record.metadata.level
  fields := record.fields.map fun kv => (kv.1, fieldToWire kv.2)
  events := record.events.map (eventToWire unfilledInstant base)
  openedAtNs := base.ns record.openedAt
  closedAtNs := record.closedAt.map base.ns

end TracingConsole.Model
