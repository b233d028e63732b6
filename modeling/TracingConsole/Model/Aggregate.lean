import TracingConsole.Library.WordTally
import TracingConsole.Model.Wire

/-!
# The aggregator

`Aggregator` of aggregate/state.rs: a bounded ring of closed spans (`order`, `byId`), the
pool of spans whose parent has not arrived (`pending`), the running sums of the
children's totals (`childSum`), and the statistics of every bucket (`buckets`), patched in
place by every insertion and eviction.

Maps keyed by identifiers are `Std.ExtTreeMap`s; the counts of the two multisets of a
bucket are `u32`s and wrap, and so does the `u64` sum of a parent's children.  The other
counters cannot exceed their width while the ring fits in memory and are naturals.

Loops run on fuel and answer `none` when it is used up.  `makeRoom` is given the number
of evictions the ring allows and `absorbResolved` a depth that no cascade exceeds, so
`none` stands for a call that never returns.
-/

set_option autoImplicit false

namespace TracingConsole.Model

open Std (ExtTreeMap)
open TracingConsole.Library

/-! ## Buckets (aggregate/types.rs) -/

/-- INTERNAL: the projected statistics of one bucket.
SRCLINE: types.rs:8-17 -/
structure StackStats where
  count : ℕ := 0
  totalMinNs : ℕ := 0
  totalMaxNs : ℕ := 0
  totalSumNs : ℕ := 0
  selfMinNs : ℕ := 0
  selfMaxNs : ℕ := 0
  selfSumNs : ℕ := 0
deriving DecidableEq

/-- INTERNAL: the identity of an aggregation row: the names from the root down, and the
split values in key order.
SRCLINE: types.rs:37-47 -/
structure BucketKey where
  stack : List String
  splits : List (String × String)
deriving DecidableEq

/-- INTERNAL: lexicographic order of pairs, as `Ord` derives it for tuples. -/
instance ordSplit : Ord (String × String) := lexOrd

/-- INTERNAL: the order of a split value is transitive. -/
instance transOrdSplit : Std.TransOrd (String × String) :=
  inferInstanceAs (Std.TransCmp (compareLex (compareOn Prod.fst) (compareOn Prod.snd)))

/-- INTERNAL: split values that compare as equal are equal. -/
instance lawfulEqOrdSplit : Std.LawfulEqOrd (String × String) where
  eq_of_compare {a b} h := by
    have h' : (compare a.1 b.1).then (compare a.2 b.2) = .eq := h
    rw [Ordering.then_eq_eq] at h'
    exact Prod.ext (Std.LawfulEqCmp.eq_of_compare h'.1) (Std.LawfulEqCmp.eq_of_compare h'.2)

/-- INTERNAL: the order of several is transitive. -/
instance transOrdSplits : Std.TransOrd (List (String × String)) := inferInstance

/-- INTERNAL: stack first, then splits.
SRCLINE: types.rs:40, state.rs:412-425 -/
instance : Ord BucketKey where
  compare := compareLex (compareOn BucketKey.stack) (compareOn BucketKey.splits)

/-- INTERNAL: the order of the keys is transitive. -/
instance : Std.TransOrd BucketKey :=
  inferInstanceAs
    (Std.TransCmp (compareLex (compareOn BucketKey.stack) (compareOn BucketKey.splits)))

/-- INTERNAL: keys that compare as equal are equal. -/
instance : Std.LawfulEqOrd BucketKey where
  eq_of_compare {a b} h := by
    have h' : (compare a.stack b.stack).then (compare a.splits b.splits) = .eq := h
    rw [Ordering.then_eq_eq] at h'
    obtain ⟨h₁, h₂⟩ := h'
    cases a
    cases b
    simp only [BucketKey.mk.injEq]
    exact ⟨Std.LawfulEqCmp.eq_of_compare h₁, Std.LawfulEqCmp.eq_of_compare h₂⟩

/-! The orders and equalities that several tables share. -/

/-- INTERNAL: the order of the split keys is transitive. -/
instance transSplitKeys : IsTrans String fun x y => x ≤ y := inferInstance

/-- INTERNAL: and antisymmetric. -/
instance antisymmSplitKeys : Std.Antisymm fun x y : String => x ≤ y := inferInstance

/-- INTERNAL: spans compare lawfully. -/
instance lawfulBEqSpans : LawfulBEq (List WireSpan) := inferInstance

/-! ## Bucket state -/

/-- INTERNAL: the running statistics of a bucket.
SRCLINE: state.rs:14-23 -/
structure BucketState where
  count : ℕ := 0
  totalSumNs : ℕ := 0
  selfSumNs : ℕ := 0
  totalNsMultiset : ExtTreeMap ℕ ℕ := ∅
  selfNsMultiset : ExtTreeMap ℕ ℕ := ∅
deriving DecidableEq

/-- INTERNAL: decrement the `u32` count of `key`, dropping it at zero.
SRCLINE: state.rs:66-75 -/
def msDec (ms : ExtTreeMap ℕ ℕ) (key : ℕ) : ExtTreeMap ℕ ℕ := tallyDec (2 ^ 32) ms key

/-- INTERNAL: the first and the last key, `(0, 0)` when there is none.
SRCLINE: state.rs:77-82 -/
def msMinMax (ms : ExtTreeMap ℕ ℕ) : ℕ × ℕ :=
  match ms.keys.head?, ms.keys.getLast? with
  | some min, some max => (min, max)
  | _, _ => (0, 0)

namespace BucketState

/-- INTERNAL: SRCLINE: state.rs:26-32 -/
def add (st : BucketState) (totalNs selfNs : ℕ) : BucketState where
  count := st.count + 1
  totalSumNs := st.totalSumNs + totalNs
  selfSumNs := st.selfSumNs + selfNs
  totalNsMultiset := tallyInc (2 ^ 32) st.totalNsMultiset totalNs
  selfNsMultiset := tallyInc (2 ^ 32) st.selfNsMultiset selfNs

/-- INTERNAL: reverse a prior `add`.
SRCLINE: state.rs:34-44 -/
def remove (st : BucketState) (totalNs selfNs : ℕ) : BucketState where
  count := st.count - 1
  totalSumNs := st.totalSumNs - totalNs
  selfSumNs := st.selfSumNs - selfNs
  totalNsMultiset := msDec st.totalNsMultiset totalNs
  selfNsMultiset := msDec st.selfNsMultiset selfNs

/-- INTERNAL: SRCLINE: state.rs:50-63 -/
def toStackStats (st : BucketState) : StackStats where
  count := st.count
  totalMinNs := (msMinMax st.totalNsMultiset).1
  totalMaxNs := (msMinMax st.totalNsMultiset).2
  totalSumNs := st.totalSumNs
  selfMinNs := (msMinMax st.selfNsMultiset).1
  selfMaxNs := (msMinMax st.selfNsMultiset).2
  selfSumNs := st.selfSumNs

end BucketState

/-! ## Entries and the aggregator -/

/-- INTERNAL: a span of the ring with what it contributes to its bucket.
SRCLINE: state.rs:84-93 -/
structure Entry where
  span : WireSpan
  bucket : BucketKey
  totalNs : ℕ
  selfNs : ℕ
deriving DecidableEq

/-- INTERNAL: SRCLINE: state.rs:95-122 -/
structure Aggregator where
  order : List ℕ
  byId : ExtTreeMap ℕ Entry
  childSum : ExtTreeMap ℕ ℕ
  pending : ExtTreeMap ℕ (List WireSpan)
  pendingLen : ℕ
  pendingCap : ℕ
  buckets : ExtTreeMap BucketKey BucketState
  splitKeys : Finset String
  historyBudget : ℕ
deriving DecidableEq

/-- INTERNAL: push the fields of `fields` whose key is wanted and not yet present.
SRCLINE: state.rs:476-480 -/
def pushSplits (keep : String → Bool) (fields splits : List (String × String)) :
    List (String × String) :=
  fields.foldl
    (fun splits kv =>
      if keep kv.1 && !splits.any (fun s => s.1 == kv.1) then splits ++ [kv] else splits)
    splits

/-- INTERNAL: the splits of a span: its own fields first, then whatever its parent
resolved, in key order.
SRCLINE: state.rs:465-489 -/
def collectSplits (span : WireSpan) (parentSplits : Option (List (String × String)))
    (splitKeys : Finset String) : List (String × String) :=
  let own := pushSplits (fun k => decide (k ∈ splitKeys))
    (span.fields.map fun kv => (kv.1, kv.2.toStringValue)) []
  let all := match parentSplits with
    | none => own
    | some parent => pushSplits (fun _ => true) parent own
  all.insertionSort (fun a b => a.1 ≤ b.1)

namespace Aggregator

/-- INTERNAL: SRCLINE: state.rs:125-137 -/
def new (historyBudget : ℕ) : Aggregator where
  order := []
  byId := ∅
  childSum := ∅
  pending := ∅
  pendingLen := 0
  pendingCap := max (historyBudget / 4) 1
  buckets := ∅
  splitKeys := ∅
  historyBudget := historyBudget

/-- INTERNAL: SRCLINE: state.rs:139-141 -/
def len (a : Aggregator) : ℕ := a.order.length

/-- INTERNAL: the entries of the ring, oldest first.
SRCLINE: state.rs:155-163 -/
def ringEntries (a : Aggregator) : List Entry := a.order.filterMap fun id => a.byId[id]?

/-- INTERNAL: the spans of the ring with their resolved stacks, oldest first.
SRCLINE: state.rs:155-163 -/
def iterWithStack (a : Aggregator) : List (WireSpan × List String) :=
  a.ringEntries.map fun e => (e.span, e.bucket.stack)

/-- INTERNAL: SRCLINE: state.rs:170-172 -/
def resolvedStack (a : Aggregator) (id : ℕ) : Option (List String) :=
  a.byId[id]?.map fun e => e.bucket.stack

/-- INTERNAL: SRCLINE: state.rs:177-179 -/
def childSumFor (a : Aggregator) (id : ℕ) : ℕ := a.childSum.getD id 0

/-- INTERNAL: SRCLINE: state.rs:184-186 -/
def spanById (a : Aggregator) (id : ℕ) : Option WireSpan := a.byId[id]?.map fun e => e.span

/-- INTERNAL: the number of parked spans. -/
def parkedCount (a : Aggregator) : ℕ := (a.pending.toList.map fun kv => kv.2.length).sum

/-! ### Resolving a span's bucket -/

/-- INTERNAL: SRCLINE: state.rs:393-397 -/
def resolveRoot (a : Aggregator) (span : WireSpan) : BucketKey where
  stack := [span.name]
  splits := collectSplits span none a.splitKeys

/-- INTERNAL: SRCLINE: state.rs:399-404 -/
def resolveWithParent (a : Aggregator) (span : WireSpan) (parentEntry : Entry) :
    BucketKey where
  stack := parentEntry.bucket.stack ++ [span.name]
  splits := collectSplits span (some parentEntry.bucket.splits) a.splitKeys

/-- INTERNAL: the bucket of a span and whether its parent is in the ring; `none` when the
span has to be parked.
SRCLINE: state.rs:232-250 -/
def resolve (a : Aggregator) (span : WireSpan) : Option (BucketKey × Bool) :=
  match span.parentId with
  | none => some (a.resolveRoot span, false)
  | some p =>
    match a.byId[p]? with
    | some parentEntry => some (a.resolveWithParent span parentEntry, true)
    | none => none

/-! ### The pending pool -/

/-- INTERNAL: `while pending_len > pending_cap`: drop the bucket of the least missing
parent, until the pool fits or is empty.
SRCLINE: state.rs:311-318 -/
def trimPending : ℕ → Aggregator → Aggregator
  | 0, a => a
  | fuel + 1, a =>
    if a.pendingCap < a.pendingLen then
      match popFirst a.pending with
      | some (_, dropped, rest) =>
        trimPending fuel { a with pending := rest, pendingLen := a.pendingLen - dropped.length }
      | none => a
    else a

/-- INTERNAL: park a span under its missing parent; every bucket can be dropped once.
SRCLINE: state.rs:308-319 -/
def parkPending (a : Aggregator) (missingParent : ℕ) (span : WireSpan) : Aggregator :=
  let pending :=
    a.pending.insert missingParent (a.pending.getD missingParent [] ++ [span])
  trimPending pending.size { a with pending := pending, pendingLen := a.pendingLen + 1 }

/-- INTERNAL: take the spans parked under `id` out of the pool.
SRCLINE: state.rs:300-302, 331-333 -/
def takeWaiters (a : Aggregator) (id : ℕ) : List WireSpan × Aggregator :=
  match a.pending[id]? with
  | some waiters =>
    (waiters, { a with
      pending := a.pending.erase id
      pendingLen := a.pendingLen - waiters.length })
  | none => ([], a)

/-! ### Eviction -/

/-- INTERNAL: rewrite the contribution of `parentId` for its new children's total.
SRCLINE: state.rs:366-391 -/
def bumpParentSelf (a : Aggregator) (parentId newChildSum : ℕ) : Aggregator :=
  match a.byId[parentId]? with
  | none => a
  | some parentEntry =>
    let newSelf := parentEntry.totalNs - newChildSum
    if newSelf = parentEntry.selfNs then a
    else
      let a := { a with byId := a.byId.insert parentId { parentEntry with selfNs := newSelf } }
      match a.buckets[parentEntry.bucket]? with
      | none => a
      | some state =>
        { a with
          buckets := a.buckets.insert parentEntry.bucket
            ((state.remove parentEntry.totalNs parentEntry.selfNs).add
              parentEntry.totalNs newSelf) }

/-- INTERNAL: take an entry's contribution out of its bucket, and the bucket with its
last one.
SRCLINE: state.rs:343-348 -/
def dropContribution (a : Aggregator) (entry : Entry) : Aggregator :=
  match a.buckets[entry.bucket]? with
  | none => a
  | some state =>
    let state := state.remove entry.totalNs entry.selfNs
    { a with
      buckets :=
        if state.count = 0 then a.buckets.erase entry.bucket
        else a.buckets.insert entry.bucket state }

/-- INTERNAL: give the total of a leaving span back to its parent's self time.
SRCLINE: state.rs:353-363 -/
def returnToParent (a : Aggregator) (entry : Entry) : Aggregator :=
  match entry.span.parentId with
  | none => a
  | some parentId =>
    if a.byId.contains parentId then
      match a.childSum[parentId]? with
      | none => a
      | some sum =>
        let newSum := sum - entry.totalNs
        let a := { a with
          childSum :=
            if newSum = 0 then a.childSum.erase parentId
            else a.childSum.insert parentId newSum }
        a.bumpParentSelf parentId newSum
    else a

/-- INTERNAL: drop the oldest span of the ring.
SRCLINE: state.rs:321-364 -/
def evictOldest (a : Aggregator) : Aggregator :=
  match a.order with
  | [] => a
  | id :: order =>
    let a := { a with order := order }
    match a.byId[id]? with
    | none => a
    | some entry =>
      let a := { a with byId := a.byId.erase id }
      let a := (a.takeWaiters id).2
      let a := { a with childSum := a.childSum.erase id }
      let a := a.dropContribution entry
      a.returnToParent entry

/-- INTERNAL: `while order.len() >= history_budget`, at most `fuel` evictions.
SRCLINE: state.rs:259-262 -/
def makeRoomWithin : ℕ → Aggregator → Option Aggregator
  | 0, a => if a.order.length < a.historyBudget then some a else none
  | fuel + 1, a =>
    if a.order.length < a.historyBudget then some a else makeRoomWithin fuel a.evictOldest

/-- INTERNAL: make room for one span.  Once the ring is empty an eviction changes
nothing, so a loop that has not stopped by then never does.
SRCLINE: state.rs:259-262 -/
def makeRoom (a : Aggregator) : Option Aggregator := makeRoomWithin a.order.length a

/-! ### Absorbing a span -/

/-- INTERNAL: `closed_at - opened_at`, saturating.
SRCLINE: state.rs:253-256 -/
def totalOf (span : WireSpan) : ℕ := span.closedAtNs.getD span.openedAtNs - span.openedAtNs

/-- INTERNAL: add the total of an arriving span to its parent, if that is in the ring.
SRCLINE: state.rs:264-279 -/
def chargeParent (a : Aggregator) (parentInRing : Bool) (span : WireSpan) : Aggregator :=
  match span.parentId with
  | none => a
  | some parentId =>
    if parentInRing && a.byId.contains parentId then
      let newSum := (a.childSum.getD parentId 0 + totalOf span) % 2 ^ 64
      { a with childSum := a.childSum.insert parentId newSum }.bumpParentSelf parentId newSum
    else a

/-- INTERNAL: add an entry to its bucket and to the ring.
SRCLINE: state.rs:281-297 -/
def insertEntry (a : Aggregator) (entry : Entry) : Aggregator :=
  { a with
    buckets := a.buckets.insert entry.bucket
      ((a.buckets.getD entry.bucket {}).add entry.totalNs entry.selfNs)
    order := a.order ++ [entry.span.id]
    byId := a.byId.insert entry.span.id entry }

/-- INTERNAL: the entry of a span that resolved to `bucket`, with the self time left by
the children already counted against it.
SRCLINE: state.rs:252-258, 289-296 -/
def entryOf (a : Aggregator) (span : WireSpan) (bucket : BucketKey) : Entry where
  span := span
  bucket := bucket
  totalNs := totalOf span
  selfNs := totalOf span - a.childSum.getD span.id 0

/-- INTERNAL: insert a span that resolved: make room, charge the parent, add the entry.
SRCLINE: state.rs:252-298 -/
def place (a : Aggregator) (span : WireSpan) (bucket : BucketKey) (parentInRing : Bool) :
    Option Aggregator :=
  let entry := a.entryOf span bucket
  a.makeRoom.map fun a => (a.chargeParent parentInRing span).insertEntry entry

/-- INTERNAL: place a span, then the spans that waited for it, to the depth `fuel`; the
ids placed are appended to `inserted`.
SRCLINE: state.rs:231-306 -/
def absorbResolved : ℕ → Aggregator → WireSpan → List ℕ → Option (Aggregator × List ℕ)
  | 0, _, _, _ => none
  | fuel + 1, a, span, inserted =>
    match a.resolve span with
    | none =>
      -- only a span with a parent id fails to resolve
      some (a.parkPending (span.parentId.getD 0) span, inserted)
    | some (bucket, parentInRing) =>
      match a.place span bucket parentInRing with
      | none => none
      | some a =>
        let (waiters, a) := a.takeWaiters span.id
        waiters.foldlM (fun (acc : Aggregator × List ℕ) w => absorbResolved fuel acc.1 w acc.2)
          (a, inserted ++ [span.id])

/-- INTERNAL: `absorb_resolved` to a depth that suffices: every level of the recursion
has taken one more span out of the pool.
SRCLINE: state.rs:231-306 -/
def absorbResolvedAll (a : Aggregator) (span : WireSpan) (inserted : List ℕ) :
    Option (Aggregator × List ℕ) :=
  absorbResolved (a.parkedCount + 1) a span inserted

/-- INTERNAL: absorb a span and the parked descendants it unblocks; open spans are
ignored.  Returns the ids that went into the ring, in order.
SRCLINE: state.rs:213-229 -/
def absorb (a : Aggregator) (span : WireSpan) : Option (Aggregator × List ℕ) :=
  if span.closedAtNs.isNone then some (a, []) else a.absorbResolvedAll span []

/-! ### Rows and split keys -/

/-- INTERNAL: every bucket with its statistics, by stack and then splits.
SRCLINE: state.rs:406-425 -/
def rows (a : Aggregator) : List (BucketKey × StackStats) :=
  (a.buckets.toList.map fun kv => (kv.1, kv.2.toStackStats)).insertionSort
    fun x y => (compare x.1 y.1).isLE = true

/-- INTERNAL: absorb the entries of `order`, taking each out of `byId`.
SRCLINE: state.rs:447-456 -/
def refeed : List ℕ → ExtTreeMap ℕ Entry → Aggregator → Option Aggregator
  | [], _, a => some a
  | id :: order, byId, a =>
    match byId[id]? with
    | none => refeed order byId a
    | some entry =>
      (a.absorbResolvedAll entry.span []).bind fun r => refeed order (byId.erase id) r.1

/-- INTERNAL: wipe the buckets and re-absorb the ring in order, with an empty pool that
is replaced by the saved one in the end.
SRCLINE: state.rs:427-462 -/
def rebuildBuckets (a : Aggregator) : Option Aggregator :=
  let cleared := { a with
    buckets := ∅, childSum := ∅, order := [], byId := ∅, pending := ∅, pendingLen := 0 }
  (refeed a.order a.byId cleared).map fun b =>
    { b with pending := a.pending, pendingLen := a.pendingLen }

/-- INTERNAL: SRCLINE: state.rs:147-153 -/
def setSplitKeys (a : Aggregator) (newKeys : Finset String) : Option Aggregator :=
  if newKeys = a.splitKeys then some a
  else rebuildBuckets { a with splitKeys := newKeys }

end Aggregator

/-! ## Runs -/

/-- INTERNAL: the two operations that change an aggregator. -/
inductive AggregatorOp where
  | absorb (span : WireSpan)
  | setSplitKeys (keys : Finset String)

/-- INTERNAL: perform one operation; `none` when it does not return. -/
def AggregatorOp.perform (a : Aggregator) : AggregatorOp → Option Aggregator
  | .absorb span => (a.absorb span).map Prod.fst
  | .setSplitKeys keys => a.setSplitKeys keys

/-- INTERNAL: the spans a sequence of operations absorbs; an open one is ignored. -/
def absorbedSpans (ops : List AggregatorOp) : List WireSpan :=
  ops.filterMap fun
    | .absorb span => if span.closedAtNs.isSome then some span else none
    | .setSplitKeys _ => none

end TracingConsole.Model
