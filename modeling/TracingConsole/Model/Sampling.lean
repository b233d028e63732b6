import TracingConsole.Model.IdAllocator
import TracingConsole.Model.Record

/-!
# Sampling a stream

The server decides of every record on its own whether a stream gets it (server.rs:339-363).
The rate is a rational, and so is the fraction a hash is of the greatest `u64`.
-/

set_option autoImplicit false

namespace TracingConsole.Model

/-- INTERNAL: the splitmix-style hash of a bucket id.
SRCLINE: server.rs:355-359 -/
def sampleHash (bucketId : ℕ) : BitVec 64 :=
  let x := BitVec.ofNat 64 bucketId * 0x9E3779B97F4A7C15#64
  let x := x ^^^ (x >>> 33)
  let x := x * 0xC2B2AE3D27D4EB4F#64
  x ^^^ (x >>> 29)

/-- INTERNAL: the hash as a fraction of `u64::MAX`.
SRCLINE: server.rs:360 -/
def sampleFrac (bucketId : ℕ) : ℚ := (sampleHash bucketId).toNat / (u64Size - 1 : ℕ)

/-- INTERNAL: whether a record is in the sample.
SRCLINE: server.rs:343-363 -/
def samplingPasses (record : SpanRecord) (rate : ℚ) : Bool :=
  if 1 ≤ rate then true
  else if rate ≤ 0 then false
  else sampleFrac (record.parentId.getD record.id) < rate

end TracingConsole.Model
