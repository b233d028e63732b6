import TracingConsole.Model.Aggregate

/-!
# The whole-buffer reference

What the rows of the aggregator are to be, without any state: a computation over the whole
set of closed spans.  A span is kept when its chain of parents ends at a parentless span
within the set (`ancestry`).  Its bucket is the names along the chain, root first, with the
value of every split key on the span closest to the leaf that has it (`bucketOf`), and a
bucket's statistics are those of its kept spans.
-/

set_option autoImplicit false

namespace TracingConsole.Model

open TracingConsole.Library TracingConsole.Model.Aggregator

/-! ## Statistics of a list -/

/-- INTERNAL: the statistics of a list of `(total, self)` pairs. -/
def statsOf (pairs : List (ℕ × ℕ)) : StackStats where
  count := pairs.length
  totalMinNs := (pairs.map Prod.fst).min?.getD 0
  totalMaxNs := (pairs.map Prod.fst).max?.getD 0
  totalSumNs := (pairs.map Prod.fst).sum
  selfMinNs := (pairs.map Prod.snd).min?.getD 0
  selfMaxNs := (pairs.map Prod.snd).max?.getD 0
  selfSumNs := (pairs.map Prod.snd).sum

/-- INTERNAL: the sum of the totals of the spans with the parent `p`. -/
def childTotal (spans : Multiset WireSpan) (p : ℕ) : ℕ :=
  ((spans.filter fun w => w.parentId = some p).map totalOf).sum

/-! ## Chains of parents -/

/-- INTERNAL: the chain of a span within `spans`, from the span up to a parentless one, if
that takes at most `fuel` spans. -/
def ancestry (spans : List WireSpan) : ℕ → WireSpan → Option (List WireSpan)
  | 0, _ => none
  | fuel + 1, w =>
    match w.parentId with
    | none => some [w]
    | some p =>
      match spans.find? fun v => v.id = p with
      | none => none
      | some v => (ancestry spans fuel v).map fun chain => w :: chain

/-- INTERNAL: the spans whose whole chain lies in `spans`, with it; a chain has no more
spans than there are. -/
def keptSpans (spans : List WireSpan) : List (WireSpan × List WireSpan) :=
  spans.filterMap fun w => (ancestry spans spans.length w).map fun chain => (w, chain)

/-! ## Buckets -/

/-- INTERNAL: the value of the field `key` of a span, the first one if there are several. -/
def fieldValue (key : String) (w : WireSpan) : Option String :=
  (w.fields.find? fun kv => kv.1 = key).map fun kv => kv.2.toStringValue

/-- INTERNAL: for every split key in order, its value on the span closest to the leaf that
has the field. -/
def splitValues (keys : Finset String) (chain : List WireSpan) : List (String × String) :=
  keys.sort.filterMap fun key =>
    (chain.findSome? (fieldValue key)).map fun value => (key, value)

/-- INTERNAL: the bucket of the span at the head of a chain. -/
def bucketOf (keys : Finset String) (chain : List WireSpan) : BucketKey where
  stack := (chain.map WireSpan.name).reverse
  splits := splitValues keys chain

/-! ## Rows -/

/-- INTERNAL: the `(total, self)` pairs of the kept spans in a bucket; a self time is what
the kept children leave. -/
def referencePairs (spans : List WireSpan) (keys : Finset String) (key : BucketKey) :
    List (ℕ × ℕ) :=
  let kept := keptSpans spans
  (kept.filter fun wc => bucketOf keys wc.2 = key).map fun wc =>
    (totalOf wc.1, totalOf wc.1 - childTotal (kept.map Prod.fst) wc.1.id)

/-- INTERNAL: every bucket of a kept span with its statistics, by stack and then splits. -/
def referenceRows (spans : List WireSpan) (keys : Finset String) :
    List (BucketKey × StackStats) :=
  let buckets := ((keptSpans spans).map fun wc => bucketOf keys wc.2).dedup
  (buckets.insertionSort fun x y => (compare x y).isLE = true).map fun key =>
    (key, statsOf (referencePairs spans keys key))

end TracingConsole.Model
