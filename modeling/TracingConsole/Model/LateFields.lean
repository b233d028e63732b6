import TracingConsole.Model.CacheThreads

/-!
# Fields recorded after a span was opened

`Span::record` reaches the subscriber as a call of its own (cache.rs:452-467): under the lock of
the lane it sets fields of the record in the slot that the id is the address of.  Any thread may
call it for any id it was given, between the steps of all the others.
-/

set_option autoImplicit false

namespace TracingConsole.Model

variable {T : Type} [DecidableEq T]

/-- INTERNAL: the steps of the threads, with `record` of the caller's `n`-th id. -/
inductive RecordingStep (T : Type) where
  | call (a : CacheStep T)
  | record (t : T) (n : ℕ) (values : List (String × FieldValue))
deriving DecidableEq

namespace World

/-- INTERNAL: SRCLINE: cache.rs:452-467 -/
def record (w : World T) (t : T) (tracingId : ℕ) (values : List (String × FieldValue)) : World T :=
  match w.cache.record tracingId values with
  | .value cache => { w with cache := cache }
  | .disabled => w
  | .panicked => w.panic t

/-- INTERNAL: one atomic step, `record` included. -/
def recordingStep (w : World T) : RecordingStep T → Option (World T)
  | .call a => w.step a
  | .record t n values =>
    match w.call t, w.spans[n]? with
    | .idle, some sp => some (w.record t sp.tracingId values)
    | _, _ => none

end World

end TracingConsole.Model
