import TracingConsole.Analysis.RingAccounting

/-!
# Invariants over whole runs of the aggregator

A state of a run is an aggregator with the spans still to be processed (`work`, empty
between two operations) and the bag of all spans absorbed so far (`seen`).
`RunInvariant good P` lists what makes `P` an invariant: a cascade step keeps it, and so do
the arrival of a span, the start of a split rebuild from an empty ring, and its end, which
puts the pool of before back.  `run_kept` is the induction over operations, cascades and
the refeeding loop, done once.

`Kept` is the first such invariant, on which the others rest: the queue and the map are in
lock-step, nothing is in two places, and the parent of a span of the ring has been seen and
is not waiting to be placed again.
-/

set_option autoImplicit false

namespace TracingConsole.Analysis

open Std (ExtTreeMap)
open TracingConsole.Library TracingConsole.Model TracingConsole.Model.Aggregator

/-! ## The rule -/

/-- INTERNAL: the aggregator a rebuild starts from.
SRCLINE: state.rs:434-446 -/
def cleared (a : Aggregator) (keys : Finset String) : Aggregator :=
  { a with
    splitKeys := keys, buckets := ∅, childSum := ∅, order := [], byId := ∅, pending := ∅,
    pendingLen := 0 }

/-- INTERNAL: `P` is kept by everything a run does, as long as the bag of spans seen is
`good`.
SRCLINE: state.rs:147-153, 213-306, 427-462 -/
structure RunInvariant (good : Multiset WireSpan → Prop)
    (P : Multiset WireSpan → Aggregator → List WireSpan → Prop) : Prop where
  step : ∀ seen c c', good seen → P seen c.agg c.work → CascadeStep c c' →
    P seen c'.agg c'.work
  arrive : ∀ seen a w, good (w ::ₘ seen) → P seen a [] → P (w ::ₘ seen) a [w]
  clear : ∀ seen a keys, P seen a [] → P 0 (cleared a keys) []
  restore : ∀ seen seen' a b, P seen a [] → P seen' b [] → seen' ≤ ringSpans a →
    P seen { b with pending := a.pending, pendingLen := a.pendingLen } []

/-- INTERNAL: two invariants are one, and the second may rest on the first. -/
theorem RunInvariant.and (good : Multiset WireSpan → Prop)
    (P Q : Multiset WireSpan → Aggregator → List WireSpan → Prop) (hP : RunInvariant good P)
    (hstep : ∀ seen c c', good seen → P seen c.agg c.work → P seen c'.agg c'.work →
      Q seen c.agg c.work → CascadeStep c c' → Q seen c'.agg c'.work)
    (harrive : ∀ seen a w, good (w ::ₘ seen) → Q seen a [] → Q (w ::ₘ seen) a [w])
    (hclear : ∀ seen a keys, Q seen a [] → Q 0 (cleared a keys) [])
    (hrestore : ∀ seen seen' a b, Q seen a [] → Q seen' b [] → seen' ≤ ringSpans a →
      Q seen { b with pending := a.pending, pendingLen := a.pendingLen } []) :
    RunInvariant good fun seen a work => P seen a work ∧ Q seen a work := by
  refine ⟨?_, ?_, ?_, ?_⟩
  · intro seen c c' hgood h hc
    have hp := hP.step seen c c' hgood h.1 hc
    exact ⟨hp, hstep seen c c' hgood h.1 hp h.2 hc⟩
  · intro seen a w hgood h
    exact ⟨hP.arrive seen a w hgood h.1, harrive seen a w hgood h.2⟩
  · intro seen a keys h
    exact ⟨hP.clear seen a keys h.1, hclear seen a keys h.2⟩
  · intro seen seen' a b h h' hle
    exact ⟨hP.restore seen seen' a b h.1 h'.1 hle, hrestore seen seen' a b h.2 h'.2 hle⟩

/-- INTERNAL: two invariants at once. -/
theorem RunInvariant.both (good : Multiset WireSpan → Prop)
    (P Q : Multiset WireSpan → Aggregator → List WireSpan → Prop) (hP : RunInvariant good P)
    (hQ : RunInvariant good Q) : RunInvariant good fun seen a work => P seen a work ∧ Q seen a work :=
  hP.and good P Q (fun seen c c' hgood _ _ => hQ.step seen c c' hgood) hQ.arrive hQ.clear hQ.restore

/-- INTERNAL: an invariant holds under a stronger condition too. -/
theorem RunInvariant.strengthen (good good' : Multiset WireSpan → Prop)
    (P : Multiset WireSpan → Aggregator → List WireSpan → Prop) (h : RunInvariant good P)
    (hgood : ∀ s, good' s → good s) : RunInvariant good' P :=
  ⟨fun seen c c' hs => h.step seen c c' (hgood _ hs),
    fun seen a w hs => h.arrive seen a w (hgood _ hs), h.clear, h.restore⟩

section Rule

variable (good : Multiset WireSpan → Prop)
  (P : Multiset WireSpan → Aggregator → List WireSpan → Prop)

/-- INTERNAL: SRCLINE: state.rs:231-306 -/
theorem absorbResolved_kept (h : RunInvariant good P) (fuel : ℕ) (seen : Multiset WireSpan)
    (a a' : Aggregator) (w : WireSpan) (ins ins' : List ℕ) (hgood : good (w ::ₘ seen))
    (hp : P seen a []) (hrun : absorbResolved fuel a w ins = some (a', ins')) :
    P (w ::ₘ seen) a' [] := by
  have hcascade := absorbResolved_cascade fuel a a' w ins ins' hrun []
  have hstart := h.arrive seen a w hgood hp
  exact cascades_invariant (fun c => P (w ::ₘ seen) c.agg c.work)
    (fun c c' hc hstep => h.step _ c c' hgood hc hstep) _ _ hstart hcascade

/-- INTERNAL: the refeeding loop, started with the spans `seen` behind it.
SRCLINE: state.rs:447-456 -/
theorem refeed_kept (h : RunInvariant good P) (hmono : ∀ s t, s ≤ t → good t → good s)
    (order : List ℕ) (byId : ExtTreeMap ℕ Entry) (b b' : Aggregator)
    (seen all : Multiset WireSpan) (hall : good all)
    (hle : seen + (values byId).map Entry.span ≤ all) (hp : P seen b [])
    (hrun : refeed order byId b = some b') : ∃ seen', seen' ≤ all ∧ P seen' b' [] := by
  induction order generalizing byId b seen with
  | nil =>
    cases hrun
    exact ⟨seen, (Multiset.le_add_right _ _).trans hle, hp⟩
  | cons id order ih =>
    unfold refeed at hrun
    split at hrun
    · exact ih byId b seen hle hp hrun
    · next e he =>
      obtain ⟨r, hr, hrun⟩ := Option.bind_eq_some_iff.mp hrun
      have hsplit : seen + (values byId).map Entry.span =
          (e.span ::ₘ seen) + (values (byId.erase id)).map Entry.span := by
        rw [values_eq_cons_erase byId id e he, Multiset.map_cons, Multiset.add_cons,
          Multiset.cons_add]
      rw [hsplit] at hle
      have hgood : good (e.span ::ₘ seen) :=
        hmono _ _ ((Multiset.le_add_right _ _).trans hle) hall
      have hnext := absorbResolved_kept good P h _ seen b r.1 e.span [] r.2 hgood hp hr
      exact ih (byId.erase id) r.1 (e.span ::ₘ seen) hle hnext hrun

/-- INTERNAL: the spans an operation absorbs. -/
def AggregatorOp.seen (op : AggregatorOp) : Multiset WireSpan :=
  (absorbedSpans [op] : Multiset WireSpan)

/-- INTERNAL: the spans of a run, from its first operation. -/
theorem absorbedSpans_cons (op : AggregatorOp) (ops : List AggregatorOp) :
    absorbedSpans (op :: ops) = absorbedSpans [op] ++ absorbedSpans ops := by
  unfold absorbedSpans
  rw [← List.filterMap_append, List.singleton_append]

/-- INTERNAL: a run sees the spans of its first operation, and then the others. -/
theorem seen_cons (seen : Multiset WireSpan) (op : AggregatorOp) (ops : List AggregatorOp) :
    seen + (absorbedSpans (op :: ops) : Multiset WireSpan) =
      (AggregatorOp.seen op + seen) + absorbedSpans ops := by
  rw [absorbedSpans_cons, ← Multiset.coe_add, AggregatorOp.seen]
  abel

/-- INTERNAL: **one operation keeps an invariant**.
SRCLINE: state.rs:147-153, 213-229 -/
theorem perform_kept (h : RunInvariant good P) (hmono : ∀ s t, s ≤ t → good t → good s)
    (hring : ∀ seen a, P seen a [] → ringSpans a ≤ seen) (seen : Multiset WireSpan)
    (a a' : Aggregator) (op : AggregatorOp) (hgood : good (AggregatorOp.seen op + seen))
    (hp : P seen a []) (hrun : op.perform a = some a') :
    P (AggregatorOp.seen op + seen) a' [] := by
  cases op with
  | absorb w =>
    obtain ⟨r, hr, rfl⟩ := Option.map_eq_some_iff.mp hrun
    unfold absorb at hr
    split at hr
    · next hopen =>
      -- an open span is ignored
      have hseen : AggregatorOp.seen (.absorb w) = 0 := by
        simp [AggregatorOp.seen, absorbedSpans, Option.isNone_iff_eq_none.mp hopen]
      cases hr
      rw [hseen, zero_add]
      exact hp
    · next hclosed =>
      have hseen : AggregatorOp.seen (.absorb w) = {w} := by
        have hsome : w.closedAtNs.isSome = true := by
          simpa [Option.isSome_iff_ne_none] using hclosed
        simp [AggregatorOp.seen, absorbedSpans, hsome]
      rw [hseen, Multiset.singleton_add] at hgood ⊢
      exact absorbResolved_kept good P h _ seen a r.1 w [] r.2 hgood hp hr
  | setSplitKeys keys =>
    have hseen : AggregatorOp.seen (.setSplitKeys keys) = 0 := by
      simp [AggregatorOp.seen, absorbedSpans]
    rw [hseen, zero_add] at hgood ⊢
    have hrun : a.setSplitKeys keys = some a' := hrun
    unfold setSplitKeys at hrun
    split at hrun
    · cases hrun
      exact hp
    · obtain ⟨b, hb, rfl⟩ := Option.map_eq_some_iff.mp hrun
      have hle := hring seen a hp
      have hstart := h.clear seen a keys hp
      obtain ⟨seen', hle', hb'⟩ := refeed_kept good P h hmono a.order a.byId
        (cleared a keys) b 0 (ringSpans a) (hmono _ _ hle hgood) (zero_add _).le hstart hb
      exact h.restore seen seen' a b hp hb' hle'

/-- INTERNAL: **a run keeps an invariant**.
SRCLINE: state.rs:147-153, 213-229 -/
theorem run_kept (h : RunInvariant good P) (hmono : ∀ s t, s ≤ t → good t → good s)
    (hring : ∀ seen a, P seen a [] → ringSpans a ≤ seen) (ops : List AggregatorOp)
    (seen : Multiset WireSpan) (a a' : Aggregator)
    (hgood : good (seen + absorbedSpans ops)) (hp : P seen a [])
    (hrun : run AggregatorOp.perform a ops = some a') :
    P (seen + absorbedSpans ops) a' [] := by
  induction ops generalizing seen a with
  | nil =>
    cases hrun
    simpa [absorbedSpans] using hp
  | cons op ops ih =>
    rw [run_cons, Option.bind_eq_some_iff] at hrun
    obtain ⟨a₁, h₁, hrun⟩ := hrun
    rw [seen_cons] at hgood ⊢
    have hgood₁ := hmono _ _ (Multiset.le_add_right _ _) hgood
    have hp₁ := perform_kept good P h hmono hring seen a a₁ op hgood₁ hp h₁
    exact ih (AggregatorOp.seen op + seen) a₁ hgood hp₁ hrun

end Rule

/-! ## Nothing is in two places -/

/-- INTERNAL: the ids of a bag of spans are distinct.
SRCLINE: state.rs:95-101 -/
def DistinctIds (spans : Multiset WireSpan) : Prop := (spans.map WireSpan.id).Nodup

/-- INTERNAL: fewer spans have distinct ids too. -/
theorem DistinctIds.mono (s t : Multiset WireSpan) (hle : s ≤ t) (h : DistinctIds t) :
    DistinctIds s :=
  Multiset.nodup_of_le (Multiset.map_le_map hle) h

/-- INTERNAL: two spans of a bag with distinct ids and the same id are the same. -/
theorem distinctIds_coe (spans : List WireSpan) (h : (spans.map WireSpan.id).Nodup) :
    DistinctIds (spans : Multiset WireSpan) := by
  unfold DistinctIds
  rw [Multiset.map_coe, Multiset.coe_nodup]
  exact h

/-- INTERNAL: distinct ids of a whole run, which has seen nothing before. -/
theorem distinctIds_start (spans : List WireSpan) (h : (spans.map WireSpan.id).Nodup) :
    DistinctIds (0 + (spans : Multiset WireSpan)) := by
  rw [zero_add]
  exact distinctIds_coe spans h

/-- INTERNAL: of distinct ids, one id is one span. -/
theorem DistinctIds.eq_of_id (s : Multiset WireSpan) (h : DistinctIds s) (v w : WireSpan)
    (hv : v ∈ s) (hw : w ∈ s) (hid : v.id = w.id) : v = w :=
  Multiset.inj_on_of_nodup_map h v hv w hw hid

/-- INTERNAL: **the base invariant of a run**.  The queue and the map are in lock-step and
within the budget; a span is in the ring, parked or still to be processed, and in one of
these once; and the parent of a span of the ring has been seen and will not be placed again.
SRCLINE: state.rs:95-122 -/
structure Kept (budget : ℕ) (seen : Multiset WireSpan) (a : Aggregator)
    (work : List WireSpan) : Prop where
  locked : Locked a
  id_eq : ∀ id x, located a id = some x → x.1.id = id
  budget_eq : a.historyBudget = budget
  room : a.order.length ≤ budget
  bag : ringSpans a + (parked a + work) ≤ seen
  past : ∀ w ∈ ringSpans a, ∀ p, w.parentId = some p →
    p ∈ seen.map WireSpan.id ∧ ∀ v ∈ parked a + (work : Multiset WireSpan), v.id ≠ p

section Kept

variable (budget : ℕ) (seen : Multiset WireSpan) (a : Aggregator) (work : List WireSpan)

/-- INTERNAL: more may have been seen. -/
theorem Kept.mono (h : Kept budget seen a work) (seen' : Multiset WireSpan) (hle : seen ≤ seen') :
    Kept budget seen' a work :=
  ⟨h.locked, h.id_eq, h.budget_eq, h.room, h.bag.trans hle, fun w hw p hp =>
    ⟨Multiset.mem_of_le (Multiset.map_le_map hle) (h.past w hw p hp).1, (h.past w hw p hp).2⟩⟩

/-- INTERNAL: a span that waits or is to be processed has none of the ids of the ring. -/
theorem Kept.fresh (h : Kept budget seen a work) (hids : DistinctIds seen) (v : WireSpan)
    (hv : v ∈ parked a + (work : Multiset WireSpan)) (w : WireSpan) (hw : w ∈ ringSpans a) :
    w.id ≠ v.id := by
  have hbag := DistinctIds.mono _ _ h.bag hids
  unfold DistinctIds at hbag
  rw [Multiset.map_add, Multiset.nodup_add] at hbag
  intro heq
  exact Multiset.disjoint_left.mp hbag.2.2 (Multiset.mem_map_of_mem _ hw)
    (heq ▸ Multiset.mem_map_of_mem _ hv)

/-- INTERNAL: **what is known when a span is about to be placed**: nothing is stored under
its id, and no span of the ring is a child of it.
SRCLINE: state.rs:231-258 -/
theorem Kept.placeable (w : WireSpan) (rest : List WireSpan)
    (h : Kept budget seen a (w :: rest)) (hids : DistinctIds seen) :
    located a w.id = none ∧ ∀ v ∈ ringSpans a, v.parentId ≠ some w.id := by
  have hw : w ∈ parked a + ((w :: rest : List WireSpan) : Multiset WireSpan) := by simp
  refine ⟨?_, ?_⟩
  · rw [Option.eq_none_iff_forall_ne_some]
    intro x hx
    have hid := h.id_eq w.id x hx
    obtain ⟨e, he, rfl⟩ := Option.map_eq_some_iff.mp hx
    have hring : e.span ∈ ringSpans a := (mem_ringSpans a e.span).mpr ⟨w.id, e, he, rfl⟩
    exact h.fresh _ _ _ _ hids w hw e.span hring hid
  · intro v hv hp
    exact (h.past v hv w.id hp).2 w hw rfl

/-- INTERNAL: a resolved span is not its own parent, and its parent has been seen and is
not among the spans still to come. -/
theorem Kept.parent_past (w : WireSpan) (rest : List WireSpan)
    (h : Kept budget seen a (w :: rest)) (hids : DistinctIds seen) (b : BucketKey) (r : Bool)
    (hres : a.resolve w = some (b, r)) (p : ℕ) (hp : w.parentId = some p) :
    p ≠ w.id ∧ p ∈ seen.map WireSpan.id ∧
      ∀ v ∈ parked a + (rest : Multiset WireSpan), v.id ≠ p := by
  rcases resolve_eq_some a w b r hres with ⟨hnone, -⟩ | ⟨p', e, hp', he, -⟩
  · rw [hp] at hnone
    cases hnone
  · rw [hp] at hp'
    cases hp'
    have hid : e.span.id = p := h.id_eq p _ (by rw [located, he]; rfl)
    have hring : e.span ∈ ringSpans a := (mem_ringSpans a e.span).mpr ⟨p, e, he, rfl⟩
    have hfresh := fun v hv => h.fresh _ _ _ _ hids v hv e.span hring
    have hmem : e.span ∈ seen := Multiset.mem_of_le h.bag (Multiset.mem_add.mpr (Or.inl hring))
    rw [← hid]
    refine ⟨hfresh w (by simp), Multiset.mem_map_of_mem _ hmem, ?_⟩
    intro v hv heq
    have hv' : v ∈ parked a + ((w :: rest : List WireSpan) : Multiset WireSpan) := by
      rw [← Multiset.cons_coe, Multiset.add_cons]
      exact Multiset.mem_cons_of_mem hv
    exact hfresh v hv' heq.symm

/-- INTERNAL: parking moves the span to the pool, or drops it.
SRCLINE: state.rs:231-250, 308-319 -/
theorem kept_parkPending (w : WireSpan) (p : ℕ) (rest : List WireSpan)
    (h : Kept budget seen a (w :: rest)) : Kept budget seen (a.parkPending p w) rest := by
  have hparked : parked (a.parkPending p w) + (rest : Multiset WireSpan) ≤
      parked a + ((w :: rest : List WireSpan) : Multiset WireSpan) := by
    rw [← Multiset.cons_coe, Multiset.add_cons, ← Multiset.cons_add]
    exact add_le_add_left (parkPending_spec a p w).1 _
  have hlocated : ∀ id, located (a.parkPending p w) id = located a id := fun id =>
    located_parkPending a p id w
  obtain ⟨hconfig, horder, -, -, -⟩ := parkPending_frame a p w
  refine ⟨locked_congr a _ horder hlocated h.locked, ?_, ?_, ?_, ?_, ?_⟩
  · intro id x hx
    rw [hlocated] at hx
    exact h.id_eq id x hx
  · exact (congrArg (fun c => c.2.2) hconfig).trans h.budget_eq
  · rw [horder]
    exact h.room
  · rw [ringSpans_parkPending]
    exact (add_le_add_right hparked _).trans h.bag
  · rw [ringSpans_parkPending]
    intro v hv q hq
    obtain ⟨hseen, hlater⟩ := h.past v hv q hq
    exact ⟨hseen, fun u hu => hlater u (Multiset.mem_of_le hparked hu)⟩

/-- INTERNAL: placing moves the span to the ring, and the spans that waited for it to the work
list.
SRCLINE: state.rs:252-306 -/
theorem kept_place (a' : Aggregator) (w : WireSpan) (b : BucketKey) (r : Bool)
    (rest : List WireSpan) (hids : DistinctIds seen) (h : Kept budget seen a (w :: rest))
    (hres : a.resolve w = some (b, r)) (hplace : a.place w b r = some a') :
    Kept budget seen (a'.takeWaiters w.id).2 ((a'.takeWaiters w.id).1 ++ rest) := by
  obtain ⟨hnone, hchildless⟩ := h.placeable _ _ _ _ _ hids
  obtain ⟨a₁, hroom, hspans, hpark, hloc⟩ := ringSpans_place a a' w b r hplace hnone
  obtain ⟨hsub, hparkle, hlocsub, hlt⟩ := makeRoom_shrinks a a₁ hroom
  obtain ⟨horder, hconfig⟩ := place_order a a' w b r hplace
  obtain ⟨horder₁, hconfig₁⟩ := makeRoom_order a a₁ hroom
  have hbudget : a'.historyBudget = budget :=
    (congrArg (fun c => c.2.2) hconfig).trans h.budget_eq
  have hbudget₁ : a₁.historyBudget = budget :=
    (congrArg (fun c => c.2.2) hconfig₁).trans h.budget_eq
  obtain ⟨hcfg, hto, -, -, -⟩ := takeWaiters_frame a' w.id
  have hring : ringSpans (a'.takeWaiters w.id).2 = w ::ₘ ringSpans a₁ := by
    rw [ringSpans_takeWaiters, hspans]
  have hwait := parked_takeWaiters a' w.id
  have hpool : parked (a'.takeWaiters w.id).2 +
      (((a'.takeWaiters w.id).1 ++ rest : List WireSpan) : Multiset WireSpan) =
        parked a₁ + (rest : Multiset WireSpan) := by
    rw [← Multiset.coe_add, ← add_assoc, add_comm (parked (a'.takeWaiters w.id).2),
      ← hwait, hpark]
  have hpoolle : parked a₁ + (rest : Multiset WireSpan) ≤ parked a + rest :=
    add_le_add_left hparkle _
  refine ⟨?_, ?_, ?_, ?_, ?_, ?_⟩
  · apply locked_congr a' _ hto fun id => located_takeWaiters a' w.id id
    rw [locked_place a a' w b r hplace h.locked]
    intro hmem
    have := (h.locked.mem_iff w.id).mp (List.mem_of_mem_drop hmem)
    rw [mem_byId_iff, hnone] at this
    cases this
  · intro id x hx
    rw [located_takeWaiters, hloc id] at hx
    split at hx
    · next hid =>
      cases hx
      exact hid.symm
    · exact h.id_eq id x (hlocsub id x hx)
  · exact (congrArg (fun c => c.2.2) hcfg).trans hbudget
  · rw [hto, horder, ← horder₁, List.length_append, List.length_singleton]
    omega
  · rw [hring, hpool, Multiset.cons_add, ← Multiset.add_cons]
    refine le_trans ?_ h.bag
    rw [← Multiset.cons_coe, Multiset.add_cons w (parked a)]
    exact add_le_add hsub (Multiset.cons_le_cons w hpoolle)
  · rw [hring, hpool]
    intro v hv q hq
    rcases Multiset.mem_cons.mp hv with rfl | hold
    · obtain ⟨-, hseen, hlater⟩ := h.parent_past _ _ _ _ _ hids b r hres q hq
      exact ⟨hseen, fun u hu => hlater u (Multiset.mem_of_le hpoolle hu)⟩
    · obtain ⟨hseen, hlater⟩ := h.past v (Multiset.mem_of_le hsub hold) q hq
      refine ⟨hseen, fun u hu => hlater u ?_⟩
      rw [← Multiset.cons_coe, Multiset.add_cons]
      exact Multiset.mem_cons_of_mem (Multiset.mem_of_le hpoolle hu)

/-- INTERNAL: a cascade step keeps the base invariant.
SRCLINE: state.rs:231-306 -/
theorem kept_step (c c' : Cascade) (hids : DistinctIds seen)
    (h : Kept budget seen c.agg c.work) (hc : CascadeStep c c') :
    Kept budget seen c'.agg c'.work := by
  rcases cascadeStep_cases _ _ hc with
    ⟨w, rest, p, hwork, -, -, rfl⟩ | ⟨w, rest, b, r, a', hwork, hres, hplace, rfl⟩
  · rw [hwork] at h
    exact kept_parkPending budget seen c.agg w p rest h
  · rw [hwork] at h
    exact kept_place budget seen c.agg a' w b r rest hids h hres hplace

end Kept

/-- INTERNAL: **the base invariant is one**.
SRCLINE: state.rs:147-153, 213-306, 427-462 -/
theorem kept_runInvariant (budget : ℕ) : RunInvariant DistinctIds (Kept budget) := by
  refine ⟨?_, ?_, ?_, ?_⟩
  · intro seen c c' hids h hc
    exact kept_step budget seen c c' hids h hc
  · intro seen a w hids h
    have hbag := h.bag
    simp only [Multiset.coe_nil, add_zero] at hbag
    have hnew : w.id ∉ seen.map WireSpan.id := by
      have hnodup : ((w ::ₘ seen).map WireSpan.id).Nodup := hids
      rw [Multiset.map_cons, Multiset.nodup_cons] at hnodup
      exact hnodup.1
    refine ⟨h.locked, h.id_eq, h.budget_eq, h.room, ?_, ?_⟩
    · have hone : ringSpans a + (parked a + ([w] : List WireSpan)) =
          w ::ₘ (ringSpans a + parked a) := by
        rw [Multiset.coe_singleton, ← add_assoc, add_comm, Multiset.singleton_add]
      rw [hone]
      exact Multiset.cons_le_cons w hbag
    · intro v hv p hp
      obtain ⟨hseen, hlater⟩ := h.past v hv p hp
      refine ⟨?_, ?_⟩
      · rw [Multiset.map_cons]
        exact Multiset.mem_cons_of_mem hseen
      · intro u hu
        rw [Multiset.coe_singleton, Multiset.mem_add, Multiset.mem_singleton] at hu
        rcases hu with hu | rfl
        · exact hlater u (by simpa using hu)
        · rintro rfl
          exact hnew hseen
  · intro seen a keys h
    have hring : ringSpans (cleared a keys) = 0 := by
      unfold ringSpans ring cleared
      simp
    have hparked : parked (cleared a keys) = 0 := parkedIn_empty
    refine ⟨⟨List.nodup_nil, fun id => by simp [cleared]⟩, ?_, h.budget_eq, Nat.zero_le _, ?_, ?_⟩
    · intro id x hx
      simp [located, cleared] at hx
    · simp [hring, hparked]
    · simp [hring]
  · intro seen seen' a b h h' hle
    have hsub : ringSpans b ≤ ringSpans a := ((Multiset.le_add_right _ _).trans h'.bag).trans hle
    refine ⟨⟨h'.locked.nodup, h'.locked.mem_iff⟩, h'.id_eq, h'.budget_eq, h'.room, ?_, ?_⟩
    · exact (add_le_add_left hsub _).trans h.bag
    · intro v hv p hp
      exact h.past v (Multiset.mem_of_le hsub hv) p hp

/-- INTERNAL: the aggregator starts with nothing kept. -/
theorem kept_new (budget : ℕ) : Kept budget 0 (Aggregator.new budget) [] := by
  have hring : ringSpans (Aggregator.new budget) = 0 := by
    unfold ringSpans ring Aggregator.new
    simp
  have hparked : parked (Aggregator.new budget) = 0 := parkedIn_empty
  refine ⟨locked_new budget, ?_, rfl, Nat.zero_le _, ?_, ?_⟩
  · intro id x hx
    simp [located, Aggregator.new] at hx
  · simp [hring, hparked]
  · simp [hring]

/-! ## The settings -/

/-- INTERNAL: an absorption leaves the settings alone.
SRCLINE: state.rs:231-306 -/
theorem absorbResolvedAll_config (a : Aggregator) (w : WireSpan) (r : Aggregator × List ℕ)
    (h : a.absorbResolvedAll w [] = some r) : config r.1 = config a := by
  have hcascade := absorbResolved_cascade _ a r.1 w [] r.2 h []
  refine cascades_invariant (fun c => config c.agg = config a) (fun c c' hc hstep => ?_) _ _ rfl
    hcascade
  rcases cascadeStep_cases c c' hstep with
    ⟨v, rest, p, -, -, -, hc'⟩ | ⟨v, rest, b, s, a', -, -, hplace, hc'⟩
  · rw [hc', (parkPending_frame c.agg p v).1]
    exact hc
  · rw [hc', (takeWaiters_frame a' v.id).1, (place_order c.agg a' v b s hplace).2]
    exact hc

/-- INTERNAL: SRCLINE: state.rs:447-456 -/
theorem refeed_config (order : List ℕ) (byId : ExtTreeMap ℕ Entry) (b b' : Aggregator)
    (h : refeed order byId b = some b') : config b' = config b := by
  induction order generalizing byId b with
  | nil =>
    cases h
    rfl
  | cons id order ih =>
    unfold refeed at h
    split at h
    · exact ih byId b h
    · next e _ =>
      obtain ⟨r, hr, hrest⟩ := Option.bind_eq_some_iff.mp h
      rw [ih _ r.1 hrest, absorbResolvedAll_config b e.span r hr]

/-- INTERNAL: SRCLINE: state.rs:147-153 -/
theorem setSplitKeys_keys (a a' : Aggregator) (keys : Finset String)
    (h : a.setSplitKeys keys = some a') : a'.splitKeys = keys := by
  unfold setSplitKeys at h
  split at h
  · next hsame =>
    cases h
    exact hsame.symm
  · obtain ⟨b, hb, heq⟩ := Option.map_eq_some_iff.mp h
    have hconfig := refeed_config _ _ (cleared a keys) b hb
    rw [← heq]
    exact congrArg (fun c => c.2.1) hconfig

/-! ## Every run goes through -/

/-- INTERNAL: SRCLINE: state.rs:447-456 -/
theorem refeed_total (order : List ℕ) (byId : ExtTreeMap ℕ Entry) (b : Aggregator)
    (hbudget : 0 < b.historyBudget) :
    ∃ b', refeed order byId b = some b' ∧ config b' = config b := by
  induction order generalizing byId b with
  | nil => exact ⟨b, rfl, rfl⟩
  | cons id order ih =>
    unfold refeed
    split
    · exact ih byId b hbudget
    · next e _ =>
      obtain ⟨b₁, ins, h₁, -, hcfg₁⟩ :=
        absorbResolved_total (b.parkedCount + 1) b e.span [] hbudget (by rw [card_parked]; omega)
      have hbudget₁ : b₁.historyBudget = b.historyBudget := congrArg (fun c => c.2.2) hcfg₁
      obtain ⟨b', h', hcfg'⟩ := ih (byId.erase id) b₁ (by omega)
      refine ⟨b', ?_, hcfg'.trans hcfg₁⟩
      unfold absorbResolvedAll
      rw [h₁]
      exact h'

/-- INTERNAL: with a positive budget every operation returns.
SRCLINE: state.rs:147-153, 213-229 -/
theorem perform_total (a : Aggregator) (op : AggregatorOp) (hbudget : 0 < a.historyBudget) :
    ∃ a', op.perform a = some a' ∧ a'.historyBudget = a.historyBudget := by
  cases op with
  | absorb w =>
    obtain ⟨a', ins, h, hcfg⟩ := absorb_total a w hbudget
    refine ⟨a', ?_, congrArg (fun c => c.2.2) hcfg⟩
    simp [AggregatorOp.perform, h]
  | setSplitKeys keys =>
    change ∃ a', a.setSplitKeys keys = some a' ∧ a'.historyBudget = a.historyBudget
    unfold setSplitKeys
    split
    · exact ⟨a, rfl, rfl⟩
    · obtain ⟨b, hb, hcfg⟩ := refeed_total a.order a.byId (cleared a keys) hbudget
      refine ⟨{ b with pending := a.pending, pendingLen := a.pendingLen }, ?_,
        congrArg (fun c => c.2.2) hcfg⟩
      unfold rebuildBuckets
      exact congrArg (Option.map _) hb

/-- INTERNAL: **with a positive budget every run returns**.
SRCLINE: state.rs:147-153, 213-229 -/
theorem run_total (ops : List AggregatorOp) (a : Aggregator) (hbudget : 0 < a.historyBudget) :
    ∃ a', run AggregatorOp.perform a ops = some a' := by
  induction ops generalizing a with
  | nil => exact ⟨a, rfl⟩
  | cons op ops ih =>
    obtain ⟨a₁, h₁, hbudget₁⟩ := perform_total a op hbudget
    obtain ⟨a', h'⟩ := ih a₁ (by omega)
    refine ⟨a', ?_⟩
    rw [run_cons, h₁]
    exact h'

end TracingConsole.Analysis
