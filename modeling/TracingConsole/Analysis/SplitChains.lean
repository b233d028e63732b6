import TracingConsole.Analysis.ArrivalOrder
import TracingConsole.Model.Graph

/-!
# Two ways to the splits of a span

The bucket of a span holds the splits of its whole chain of parents: what the parent had
inherited when the span was placed stays inherited when the chain leaves the ring (`Chained`).
`collectSplitsFor` walks the chain again, as far as it is in the ring and for 65 spans at most
(`walked`), and so finds the splits of that part of the chain.  The two agree when the part has
every split key the whole has (`splits_agree_iff`).
-/

set_option autoImplicit false

namespace TracingConsole.Analysis

open Std (ExtTreeMap)
open TracingConsole.Library TracingConsole.Model TracingConsole.Model.Aggregator

/-! ## What a bucket inherits -/

/-- INTERNAL: **the bucket of a span of the ring is that of its chain** among all spans seen,
which need not be in the ring any more.
SRCLINE: state.rs:393-404, 465-489 -/
def Chained (seen : Multiset WireSpan) (a : Aggregator) : Prop :=
  ∀ id x, located a id = some x →
    ∃ chain, Chain seen x.1 chain ∧ x.2.1 = bucketOf a.splitKeys chain

/-- INTERNAL: what is located is all there is to it. -/
theorem chained_congr (seen : Multiset WireSpan) (a a' : Aggregator)
    (hkeys : a'.splitKeys = a.splitKeys) (hlocated : ∀ id, located a' id = located a id)
    (h : Chained seen a) : Chained seen a' := by
  intro id x hx
  rw [hlocated] at hx
  rw [hkeys]
  exact h id x hx

/-- INTERNAL: more spans seen leave it so. -/
theorem Chained.mono {seen seen' : Multiset WireSpan} {a : Aggregator} (h : Chained seen a)
    (hle : seen ≤ seen') : Chained seen' a := by
  intro id x hx
  obtain ⟨chain, hchain, hbucket⟩ := h id x hx
  exact ⟨chain, hchain.mono _ _ hle, hbucket⟩

/-- INTERNAL: a span is placed with the bucket its parent's chain gives.
SRCLINE: state.rs:231-298 -/
theorem chained_place (seen : Multiset WireSpan) (a a' : Aggregator) (w : WireSpan)
    (b : BucketKey) (r : Bool) (hseen : ringSpans a ≤ seen)
    (hid : ∀ id x, located a id = some x → x.1.id = id) (hnew : located a w.id = none)
    (hres : a.resolve w = some (b, r)) (hplace : a.place w b r = some a')
    (h : Chained seen a) : Chained seen a' := by
  have hkeys : a'.splitKeys = a.splitKeys :=
    congrArg (fun c => c.2.1) (place_order a a' w b r hplace).2
  intro id x hx
  rw [hkeys]
  rcases located_place_cases a a' w b r hplace hnew id x hx with ⟨-, rfl⟩ | ⟨-, hx⟩
  · exact chain_of_resolve _ seen a w b r rfl hseen hid h hres
  · exact h id x hx

/-- INTERNAL: **in every run, a change of keys included, buckets are those of the chains**.
SRCLINE: state.rs:147-153, 213-306, 427-462 -/
theorem chained_runInvariant (budget : ℕ) :
    RunInvariant DistinctIds fun seen a work => Kept budget seen a work ∧ Chained seen a := by
  have hkept := kept_runInvariant budget
  refine ⟨?_, ?_, ?_, ?_⟩
  · intro seen c c' hids h hc
    refine ⟨hkept.step seen c c' hids h.1 hc, ?_⟩
    rcases cascadeStep_cases _ _ hc with
      ⟨w, rest, p, -, -, -, rfl⟩ | ⟨w, rest, b, r, a', hwork, hres, hplace, rfl⟩
    · obtain ⟨hconfig, -⟩ := parkPending_frame c.agg p w
      exact chained_congr seen c.agg _ (congrArg (fun c => c.2.1) hconfig)
        (fun id => located_parkPending c.agg p id w) h.2
    · obtain ⟨hagg, hchained⟩ := h
      rw [hwork] at hagg
      obtain ⟨hnew, -⟩ := hagg.placeable _ _ _ _ _ hids
      obtain ⟨hconfig, -⟩ := takeWaiters_frame a' w.id
      apply chained_congr seen a' _ (congrArg (fun c => c.2.1) hconfig)
        fun id => located_takeWaiters a' w.id id
      exact chained_place seen c.agg a' w b r ((Multiset.le_add_right _ _).trans hagg.bag)
        hagg.id_eq hnew hres hplace hchained
  · intro seen a w hids h
    exact ⟨hkept.arrive seen a w hids h.1, h.2.mono (Multiset.le_cons_self seen w)⟩
  · intro seen a keys h
    refine ⟨hkept.clear seen a keys h.1, fun id x hx => ?_⟩
    simp [located, cleared] at hx
  · intro seen seen' a b h h' hle
    have hring : ringSpans a ≤ seen := (Multiset.le_add_right _ _).trans h.1.bag
    refine ⟨hkept.restore seen seen' a b h.1 h'.1 hle, ?_⟩
    exact chained_congr seen b _ rfl (fun _ => rfl) (h'.2.mono (hle.trans hring))

/-! ## What the walk collects -/

/-- INTERNAL: the spans of a chain that the walk meets.
SRCLINE: state.rs:195-207 -/
def walked (a : Aggregator) (chain : List WireSpan) : List WireSpan :=
  (chain.takeWhile fun v => a.byId.contains v.id).take 65

/-- INTERNAL: what the walk pushes for one span.
SRCLINE: state.rs:202-206 -/
def pushFields (keys : Finset String) (out : List (String × String)) (w : WireSpan) :
    List (String × String) :=
  pushSplits (fun k => decide (k ∈ keys)) (w.fields.map fun kv => (kv.1, kv.2.toStringValue)) out

/-- INTERNAL: **the walk meets the chain, as far as it is in the ring**.
SRCLINE: state.rs:194-209 -/
theorem collectSplitsUp_chain (a : Aggregator) (seen : Multiset WireSpan) (hids : DistinctIds seen)
    (hring : ∀ (id : ℕ) (e : Entry), a.byId[id]? = some e → e.span.id = id ∧ e.span ∈ seen)
    (keys : Finset String) (fuel : ℕ) (w : WireSpan) (chain : List WireSpan) (hw : w ∈ seen)
    (h : Chain seen w chain) (out : List (String × String)) :
    a.collectSplitsUp keys fuel a.byId[w.id]? out =
      ((chain.takeWhile fun v => a.byId.contains v.id).take fuel).foldl (pushFields keys) out := by
  have hentry : ∀ v ∈ seen, ∀ e : Entry, a.byId[v.id]? = some e →
      e.span = v ∧ a.byId.contains v.id = true := by
    intro v hv e he
    obtain ⟨hid, hin⟩ := hring v.id e he
    refine ⟨hids.eq_of_id _ _ _ hin hv hid, ?_⟩
    exact ExtTreeMap.isSome_getElem?_iff_mem.mp (by rw [he]; rfl)
  have hout : ∀ v : WireSpan, a.byId[v.id]? = none → a.byId.contains v.id = false := by
    intro v hv
    rw [Bool.eq_false_iff]
    intro hin
    have hsome := ExtTreeMap.isSome_getElem?_iff_mem.mpr hin
    rw [hv] at hsome
    cases hsome
  induction fuel generalizing w chain out with
  | zero => rfl
  | succ fuel ih =>
    cases he : a.byId[w.id]? with
    | none =>
      have hstop : (chain.takeWhile fun v => a.byId.contains v.id) = [] := by
        cases h with
        | root => simp [hout w he]
        | child => simp [hout w he]
      rw [hstop]
      rfl
    | some e =>
      obtain ⟨hspan, hin⟩ := hentry w hw e he
      unfold collectSplitsUp
      rw [hspan]
      cases h with
      | root _ hroot =>
        rw [hroot]
        simp only [List.takeWhile_cons, hin, if_true, List.takeWhile_nil, List.take_succ_cons,
          List.take_nil, List.foldl_cons, List.foldl_nil]
        cases fuel <;> rfl
      | child _ v chain hp hv hchain =>
        rw [hp, List.takeWhile_cons, if_pos hin, List.take_succ_cons, List.foldl_cons]
        exact ih v chain hv hchain _

/-- INTERNAL: pushing the fields of span after span.
SRCLINE: state.rs:202-206 -/
theorem foldl_pushFields (keys : Finset String) (spans : List WireSpan)
    (out : List (String × String)) (hnodup : (out.map Prod.fst).Nodup) :
    ((spans.foldl (pushFields keys) out).map Prod.fst).Nodup ∧
    ∀ k v, (k, v) ∈ spans.foldl (pushFields keys) out ↔
      (k, v) ∈ out ∨
        (k ∉ out.map Prod.fst ∧ k ∈ keys ∧ spans.findSome? (fieldValue k) = some v) := by
  induction spans generalizing out with
  | nil => exact ⟨hnodup, fun k v => by simp⟩
  | cons w spans ih =>
    obtain ⟨hdistinct, hmem⟩ := pushSplits_spec (fun k => decide (k ∈ keys))
      (w.fields.map fun kv => (kv.1, kv.2.toStringValue)) out hnodup
    obtain ⟨hall, hread⟩ := ih (pushFields keys out w) hdistinct
    refine ⟨hall, fun k v => ?_⟩
    have hpushed : ∀ v, (k, v) ∈ pushFields keys out w ↔
        (k, v) ∈ out ∨ (k ∉ out.map Prod.fst ∧ k ∈ keys ∧ fieldValue k w = some v) := by
      intro v
      rw [pushFields, hmem k v, find?_fields, decide_eq_true_iff]
    have hkey : k ∈ (pushFields keys out w).map Prod.fst ↔
        k ∈ out.map Prod.fst ∨ (k ∈ keys ∧ (fieldValue k w).isSome) := by
      constructor
      · intro hin
        obtain ⟨⟨k', v'⟩, hpair, rfl⟩ := List.mem_map.mp hin
        rcases (hpushed v').mp hpair with hold | ⟨-, hk, hv⟩
        · exact Or.inl (List.mem_map.mpr ⟨_, hold, rfl⟩)
        · exact Or.inr ⟨hk, by rw [hv]; rfl⟩
      · intro hin
        by_cases hold : k ∈ out.map Prod.fst
        · obtain ⟨⟨k', v'⟩, hpair, rfl⟩ := List.mem_map.mp hold
          exact List.mem_map.mpr ⟨_, (hpushed v').mpr (Or.inl hpair), rfl⟩
        · obtain ⟨hk, hv⟩ := hin.resolve_left hold
          obtain ⟨v', hv'⟩ := Option.isSome_iff_exists.mp hv
          exact List.mem_map.mpr ⟨_, (hpushed v').mpr (Or.inr ⟨hold, hk, hv'⟩), rfl⟩
    rw [List.foldl_cons, hread k v, hpushed v, hkey, List.findSome?_cons]
    cases hown : fieldValue k w with
    | none => simp
    | some v' =>
      simp only [Option.isSome_some, and_true, Option.some.injEq]
      tauto

/-- INTERNAL: **the walk finds the splits of the part of the chain it meets**.
SRCLINE: state.rs:187-211 -/
theorem collectSplitsFor_chain (a : Aggregator) (seen : Multiset WireSpan)
    (hids : DistinctIds seen)
    (hring : ∀ (id : ℕ) (e : Entry), a.byId[id]? = some e → e.span.id = id ∧ e.span ∈ seen)
    (keys : Finset String) (w : WireSpan) (chain : List WireSpan) (hw : w ∈ seen)
    (h : Chain seen w chain) :
    a.collectSplitsFor w.id keys = splitValues keys (walked a chain) := by
  have hwalk := collectSplitsUp_chain a seen hids hring keys 65 w chain hw h []
  obtain ⟨hdistinct, hmem⟩ := foldl_pushFields keys (walked a chain) [] List.nodup_nil
  unfold collectSplitsFor
  rw [hwalk]
  apply (insertionSort_keyLt _ hdistinct).eq_of_mem_iff (splitValues_keyLt keys _)
  rintro ⟨k, v⟩
  rw [List.mem_insertionSort, mem_splitValues]
  refine (hmem k v).trans ?_
  simp

/-! ## When a part of a chain has the splits of the whole -/

/-- INTERNAL: a span has a field of this name. -/
def HasField (key : String) (w : WireSpan) : Prop := ∃ kv ∈ w.fields, kv.1 = key

/-- INTERNAL: no span has the field if none gives a value. -/
theorem findSome?_fieldValue (key : String) (spans : List WireSpan) :
    spans.findSome? (fieldValue key) = none ↔ ¬ ∃ v ∈ spans, HasField key v := by
  rw [List.findSome?_eq_none_iff]
  unfold HasField fieldValue
  simp only [Option.map_eq_none_iff, List.find?_eq_none, decide_eq_true_eq]
  push Not
  rfl

/-- INTERNAL: a part of a chain gives the same splits when it has every key the chain has. -/
theorem splitValues_prefix (keys : Finset String) (part chain : List WireSpan)
    (hpart : part <+: chain) :
    splitValues keys part = splitValues keys chain ↔
      ∀ key ∈ keys, (∃ v ∈ chain, HasField key v) → ∃ v ∈ part, HasField key v := by
  obtain ⟨rest, rfl⟩ := hpart
  constructor
  · intro heq key hkey hhas
    by_contra hnone
    obtain ⟨value, hvalue⟩ := Option.ne_none_iff_exists'.mp
      (mt (findSome?_fieldValue key (part ++ rest)).mp (not_not_intro hhas))
    have hin : (key, value) ∈ splitValues keys (part ++ rest) :=
      (mem_splitValues keys _ key value).mpr ⟨hkey, hvalue⟩
    rw [← heq, mem_splitValues, (findSome?_fieldValue key part).mpr hnone] at hin
    cases hin.2
  · intro hcond
    apply (splitValues_keyLt keys part).eq_of_mem_iff (splitValues_keyLt keys (part ++ rest))
    rintro ⟨key, value⟩
    rw [mem_splitValues, mem_splitValues, and_congr_right_iff]
    intro hkey
    rw [List.findSome?_append]
    cases hfound : part.findSome? (fieldValue key) with
    | some v => rfl
    | none =>
      have hnone := (findSome?_fieldValue key part).mp hfound
      have hall := (findSome?_fieldValue key (part ++ rest)).mpr (mt (hcond key hkey) hnone)
      rw [List.findSome?_append, hfound] at hall
      rw [hall]

/-! ## Exactly when table and graph agree -/

/-- CODE: state.rs:187-211, 393-404, 465-489 — **exactly when the table and the graph resolve
the splits of a span of the ring alike**: when every split key that the span or an ancestor of
it has is among the fields of the first 65 of them, up to the first that has been evicted. -/
theorem splits_agree_iff (budget : ℕ) (ops : List AggregatorOp) (a : Aggregator)
    (hids : ((absorbedSpans ops).map WireSpan.id).Nodup)
    (hrun : run AggregatorOp.perform (Aggregator.new budget) ops = some a)
    (id : ℕ) (hid : id ∈ a.order) :
    ∃ (e : Entry) (chain : List WireSpan), a.byId[id]? = some e ∧
      ancestry (absorbedSpans ops) (absorbedSpans ops).length e.span = some chain ∧
      (a.collectSplitsFor id a.splitKeys = e.bucket.splits ↔
        ∀ key ∈ a.splitKeys, (∃ v ∈ chain, HasField key v) →
          ∃ v ∈ walked a chain, HasField key v) := by
  have hdistinct := distinctIds_coe (absorbedSpans ops) hids
  obtain ⟨hkept, hchained⟩ := run_kept DistinctIds _ (chained_runInvariant budget)
    DistinctIds.mono (fun seen a h => (Multiset.le_add_right _ _).trans h.1.bag) ops 0
    (Aggregator.new budget) a (by rwa [zero_add])
    ⟨kept_new budget, fun id x hx => by simp [located, Aggregator.new] at hx⟩ hrun
  rw [zero_add] at hkept hchained
  have hring : ∀ (id : ℕ) (e : Entry), a.byId[id]? = some e →
      e.span.id = id ∧ e.span ∈ (absorbedSpans ops : Multiset WireSpan) := by
    intro id e he
    refine ⟨hkept.id_eq id _ (by rw [located, he]; rfl), ?_⟩
    exact Multiset.mem_of_le ((Multiset.le_add_right _ _).trans hkept.bag)
      ((mem_ringSpans a e.span).mpr ⟨id, e, he, rfl⟩)
  rw [hkept.locked.mem_iff] at hid
  obtain ⟨e, he⟩ := Option.isSome_iff_exists.mp (ExtTreeMap.isSome_getElem?_iff_mem.mpr hid)
  obtain ⟨hname, hin⟩ := hring id e he
  obtain ⟨chain, hchain, hbucket⟩ := hchained id (e.span, e.bucket, e.totalNs) (by
    rw [located, he]
    rfl)
  have hancestry : ancestry (absorbedSpans ops) (absorbedSpans ops).length e.span = some chain :=
    (ancestry_iff _ hdistinct _ _ _).mpr ⟨hchain, hchain.length_le _ hdistinct _ hin⟩
  refine ⟨e, chain, he, hancestry, ?_⟩
  have hwalk := collectSplitsFor_chain a _ hdistinct hring a.splitKeys e.span chain hin hchain
  have hsplits : e.bucket.splits = splitValues a.splitKeys chain :=
    congrArg BucketKey.splits hbucket
  rw [← hname, hwalk, hsplits]
  exact splitValues_prefix a.splitKeys _ chain
    ((List.take_prefix 65 _).trans (List.takeWhile_prefix _))

/-- INTERNAL: a root with the field `api`. -/
def taggedRoot : WireSpan := { plainSpan 1 none 7 with fields := [("api", .str "x")] }

/-- CODE: state.rs:187-211 — a child in the ring with its parent. -/
theorem splits_agree_iff_small :
    ∃ a, run AggregatorOp.perform (Aggregator.new 2)
        [.setSplitKeys {"api"}, .absorb taggedRoot, .absorb (plainSpan 2 (some 1) 3)] = some a ∧
      ∃ (e : Entry) (chain : List WireSpan), a.byId[2]? = some e ∧
        ancestry [taggedRoot, plainSpan 2 (some 1) 3] 2 e.span = some chain ∧
        (a.collectSplitsFor 2 a.splitKeys = e.bucket.splits ↔
          ∀ key ∈ a.splitKeys, (∃ v ∈ chain, HasField key v) →
            ∃ v ∈ walked a chain, HasField key v) := by
  have hread : (run AggregatorOp.perform (Aggregator.new 2)
      [.setSplitKeys {"api"}, .absorb taggedRoot, .absorb (plainSpan 2 (some 1) 3)]).map
        (fun a => a.order) = some [1, 2] := by
    decide
  obtain ⟨a, hrun, horder⟩ := Option.map_eq_some_iff.mp hread
  exact ⟨a, hrun, splits_agree_iff 2 _ a (by decide) hrun 2 (by rw [horder]; decide)⟩

/-- CODE: state.rs:187-211 — a ring of one: the parent has been evicted, the bucket keeps the
value inherited from it and the walk finds none. -/
theorem graph_forgets_evicted :
    ∃ a e, run AggregatorOp.perform (Aggregator.new 1)
        [.setSplitKeys {"api"}, .absorb taggedRoot, .absorb (plainSpan 2 (some 1) 3)] = some a ∧
      a.order = [2] ∧ a.byId[2]? = some e ∧
      ¬ a.collectSplitsFor 2 a.splitKeys = e.bucket.splits := by
  have hafter : ((run AggregatorOp.perform (Aggregator.new 1)
      [.setSplitKeys {"api"}, .absorb taggedRoot, .absorb (plainSpan 2 (some 1) 3)]).bind
        fun a => a.byId[2]?.map fun e =>
          (a.order, a.collectSplitsFor 2 a.splitKeys, e.bucket.splits)) =
      some ([2], [], [("api", "x")]) := by
    decide
  obtain ⟨a, ha, hafter⟩ := Option.bind_eq_some_iff.mp hafter
  obtain ⟨e, he, hread⟩ := Option.map_eq_some_iff.mp hafter
  simp only [Prod.mk.injEq] at hread
  refine ⟨a, e, ha, hread.1, he, ?_⟩
  rw [hread.2.1, hread.2.2]
  exact List.cons_ne_nil _ _ ∘ Eq.symm

end TracingConsole.Analysis
