import TracingConsole.Model.Wire

/-!
# Span and event records

The records the cache keeps in memory (record.rs) and the messages it sends to the driver
(driver.rs).  A pooled `ReuseRef<EventRecord>` is the event record it points at; an
`Instant` is a natural.
-/

set_option autoImplicit false

namespace TracingConsole.Model

/-- INTERNAL: a captured field value.
SRCLINE: record.rs:52-68 -/
inductive FieldValue where
  | u64 (v : ℕ)
  | i64 (v : ℤ)
  | f64 (v : F64)
  | bool (v : Bool)
  | str (s : String)
  | smallString (s : String)
  | sharedString (s : String)
  | string (s : String)
deriving DecidableEq

/-- INTERNAL: the fields of a record, in the order they were first set.
SRCLINE: record.rs:115-117 -/
abbrev FieldList := List (String × FieldValue)

/-- INTERNAL: replace the entry of that name, or append a new one.
SRCLINE: record.rs:203-214 -/
def FieldList.set : FieldList → String → FieldValue → FieldList
  | [], name, value => [(name, value)]
  | (k, old) :: rest, name, value =>
    if k = name then (k, value) :: rest else (k, old) :: FieldList.set rest name value

/-- INTERNAL: the static description of a callsite, as far as records carry it.
SRCLINE: record.rs:22-40 -/
structure Metadata where
  name : String
  target : String
  level : WireLevel
deriving DecidableEq

/-- INTERNAL: a captured event.  Both options are set once the event is published.
SRCLINE: record.rs:125-135 -/
structure EventRecord where
  metadata : Option Metadata
  fields : FieldList
  recordedAt : Option ℕ
deriving DecidableEq

/-- INTERNAL: an open or closed span.
SRCLINE: record.rs:169-183 -/
structure SpanRecord where
  id : ℕ
  parentId : Option ℕ
  metadata : Metadata
  fields : FieldList
  events : List EventRecord
  openedAt : ℕ
  closedAt : Option ℕ
deriving DecidableEq

/-- INTERNAL: what the event channel carries.
SRCLINE: driver.rs:24-28 -/
structure EventMessage where
  parentActualId : ℕ
  record : EventRecord
deriving DecidableEq

end TracingConsole.Model
