import TracingConsole.Analysis.AggregateStatistics
import TracingConsole.Analysis.SplitValues

/-!
# The order of arrival does not matter

`arrival_order_irrelevant`: when a set of closed spans is absorbed in any order along which
the pool does not overflow, on a ring that holds them all, the rows are those of the
whole-buffer reference, which does not know an order.

The invariant is `Gathered`: nothing has been lost, the bucket of every span of the ring is
that of its chain of parents within the ring, and whatever is parked waits for a span that
is not there.  When all spans have arrived the parked ones are therefore those without a
complete chain (`mem_ringSpans_iff_chain`).
-/

set_option autoImplicit false

namespace TracingConsole.Analysis

open Std (ExtTreeMap)
open TracingConsole.Library TracingConsole.Model TracingConsole.Model.Aggregator

/-! ## Chains -/

/-- INTERNAL: `chain` leads from a span up to a parentless one, through spans of `spans`. -/
inductive Chain (spans : Multiset WireSpan) : WireSpan → List WireSpan → Prop
  | root (w : WireSpan) (hroot : w.parentId = none) : Chain spans w [w]
  | child (w v : WireSpan) (chain : List WireSpan) (hp : w.parentId = some v.id)
      (hv : v ∈ spans) (h : Chain spans v chain) : Chain spans w (w :: chain)

/-- INTERNAL: among more spans a chain is still one. -/
theorem Chain.mono (s t : Multiset WireSpan) (hle : s ≤ t) (w : WireSpan)
    (chain : List WireSpan) (h : Chain s w chain) : Chain t w chain := by
  induction h with
  | root w hroot => exact .root w hroot
  | child w v chain hp hv _ ih => exact .child w v chain hp (Multiset.mem_of_le hle hv) ih

/-- INTERNAL: a span has one chain. -/
theorem Chain.unique (s : Multiset WireSpan) (hids : DistinctIds s) (w : WireSpan)
    (c c' : List WireSpan) (h : Chain s w c) (h' : Chain s w c') : c = c' := by
  induction h generalizing c' with
  | root w hroot =>
    cases h' with
    | root => rfl
    | child _ v _ hp => simp [hroot] at hp
  | child w v chain hp hv _ ih =>
    cases h' with
    | root _ hroot => simp [hroot] at hp
    | child _ v' chain' hp' hv' h' =>
      have hid : v.id = v'.id := by
        rw [hp] at hp'
        exact Option.some.inj hp'
      have heq := hids.eq_of_id s v v' hv hv' hid
      subst heq
      rw [ih chain' h']

/-- INTERNAL: a span above another one on a chain has a shorter chain. -/
theorem Chain.above (s : Multiset WireSpan) (w : WireSpan) (c : List WireSpan)
    (h : Chain s w c) (x : WireSpan) (hx : x ∈ c) :
    x = w ∨ (x ∈ s ∧ ∃ c', Chain s x c' ∧ c'.length < c.length) := by
  induction h with
  | root w _ => exact Or.inl (by simpa using hx)
  | child w v chain _ hv h ih =>
    rcases List.mem_cons.mp hx with rfl | hx
    · exact Or.inl rfl
    · refine Or.inr ?_
      rcases ih hx with rfl | ⟨hmem, c', hc', hlen⟩
      · exact ⟨hv, chain, h, by simp⟩
      · refine ⟨hmem, c', hc', ?_⟩
        rw [List.length_cons]
        omega

/-- INTERNAL: a chain meets no span twice. -/
theorem Chain.nodup (s : Multiset WireSpan) (hids : DistinctIds s) (w : WireSpan)
    (c : List WireSpan) (h : Chain s w c) : c.Nodup := by
  induction h with
  | root w _ => exact List.nodup_singleton w
  | child w v chain hp hv h ih =>
    refine List.nodup_cons.mpr ⟨?_, ih⟩
    intro hmem
    have hlong : Chain s w (w :: chain) := .child w v chain hp hv h
    have hshort : ∃ c', Chain s w c' ∧ c'.length ≤ chain.length := by
      rcases h.above s v chain w hmem with rfl | ⟨-, c', hc', hlen⟩
      · exact ⟨chain, h, le_rfl⟩
      · exact ⟨c', hc', hlen.le⟩
    obtain ⟨c', hc', hlen⟩ := hshort
    have heq := hc'.unique s hids w c' (w :: chain) hlong
    rw [heq, List.length_cons] at hlen
    omega

/-- INTERNAL: a chain takes no more spans than there are. -/
theorem Chain.length_le (S : List WireSpan) (hids : DistinctIds S) (w : WireSpan)
    (hw : w ∈ S) (c : List WireSpan) (h : Chain S w c) : c.length ≤ S.length := by
  have hsub : c ⊆ S := by
    intro x hx
    rcases h.above _ w c x hx with rfl | ⟨hmem, -⟩
    · exact hw
    · exact hmem
  exact ((h.nodup _ hids w c).subperm hsub).length_le

/-- INTERNAL: the executable chain is the chain. -/
theorem ancestry_iff (S : List WireSpan) (hids : DistinctIds S) (fuel : ℕ) (w : WireSpan)
    (c : List WireSpan) :
    ancestry S fuel w = some c ↔ Chain S w c ∧ c.length ≤ fuel := by
  induction fuel generalizing w c with
  | zero =>
    constructor
    · intro h
      cases h
    · rintro ⟨h, hlen⟩
      cases h <;> simp at hlen
  | succ fuel ih =>
    unfold ancestry
    cases hp : w.parentId with
    | none =>
      constructor
      · intro h
        cases h
        exact ⟨.root w hp, by simp⟩
      · rintro ⟨h, -⟩
        cases h with
        | root => rfl
        | child _ v _ hp' => simp [hp] at hp'
    | some p =>
      dsimp only
      constructor
      · intro h
        split at h
        · cases h
        · next v hv =>
          obtain ⟨chain, hchain, rfl⟩ := Option.map_eq_some_iff.mp h
          obtain ⟨hc, hlen⟩ := (ih v chain).mp hchain
          have hid : v.id = p := by simpa using List.find?_some hv
          refine ⟨.child w v chain (by rw [hp, hid]) (List.mem_of_find?_eq_some hv) hc, ?_⟩
          rw [List.length_cons]
          omega
      · rintro ⟨h, hlen⟩
        cases h with
        | root _ hroot => simp [hp] at hroot
        | child _ v chain hp' hv h =>
          rw [List.length_cons] at hlen
          have hid : v.id = p := by
            rw [hp] at hp'
            exact (Option.some.inj hp').symm
          have hfind : (S.find? fun v => v.id = p) = some v := by
            cases hget : S.find? fun v => v.id = p with
            | none =>
              have hno := List.find?_eq_none.mp hget v hv
              simp [hid] at hno
            | some v' =>
              have hid' : v'.id = p := by simpa using List.find?_some hget
              have hmem' : v' ∈ (S : Multiset WireSpan) := List.mem_of_find?_eq_some hget
              rw [hids.eq_of_id _ v' v hmem' hv (hid'.trans hid.symm)]
          have hchain : ancestry S fuel v = some chain := (ih v chain).mpr ⟨h, by omega⟩
          rw [hfind]
          simp only [hchain, Option.map_some]

/-- INTERNAL: the spans the reference keeps are those with a chain. -/
theorem mem_keptSpans (S : List WireSpan) (hids : DistinctIds S) (w : WireSpan)
    (c : List WireSpan) : (w, c) ∈ keptSpans S ↔ w ∈ S ∧ Chain S w c := by
  unfold keptSpans
  rw [List.mem_filterMap]
  constructor
  · rintro ⟨v, hv, heq⟩
    obtain ⟨chain, hchain, heq⟩ := Option.map_eq_some_iff.mp heq
    cases heq
    exact ⟨hv, ((ancestry_iff S hids _ _ _).mp hchain).1⟩
  · rintro ⟨hw, hc⟩
    refine ⟨w, hw, ?_⟩
    rw [(ancestry_iff S hids _ w c).mpr ⟨hc, hc.length_le S hids w hw c⟩]
    rfl

/-! ## The invariant -/

/-- INTERNAL: **nothing is lost and nothing is misplaced**: every span seen is in the ring,
parked or to be processed; the bucket of a span of the ring is that of its chain within the
ring; a parked span waits for one that is not in the ring, one to be processed for none.
SRCLINE: state.rs:231-319 -/
structure Gathered (keys : Finset String) (seen : Multiset WireSpan) (a : Aggregator)
    (work : List WireSpan) : Prop where
  all : ringSpans a + (parked a + work) = seen
  keys_eq : a.splitKeys = keys
  rooted : ∀ id x, located a id = some x →
    ∃ chain, Chain (ringSpans a) x.1 chain ∧ x.2.1 = bucketOf keys chain
  waits : ∀ (p : ℕ) (ws : List WireSpan), a.pending[p]? = some ws →
    located a p = none ∧ ∀ w ∈ ws, w.parentId = some p
  ready : ∀ w ∈ work, ∀ p, w.parentId = some p → located a p ≠ none

/-- INTERNAL: **a span resolves to the bucket of its chain**, as its parent's bucket is that of
the parent's chain.
SRCLINE: state.rs:393-404, 465-489 -/
theorem chain_of_resolve (keys : Finset String) (spans : Multiset WireSpan) (a : Aggregator)
    (w : WireSpan) (b : BucketKey) (r : Bool) (hkeys : a.splitKeys = keys)
    (hspans : ringSpans a ≤ spans) (hid : ∀ id x, located a id = some x → x.1.id = id)
    (hrooted : ∀ id x, located a id = some x →
      ∃ chain, Chain spans x.1 chain ∧ x.2.1 = bucketOf keys chain)
    (hres : a.resolve w = some (b, r)) : ∃ chain, Chain spans w chain ∧ b = bucketOf keys chain := by
  rcases resolve_eq_some a w b r hres with ⟨hroot, rfl, -⟩ | ⟨p, e, hp, he, rfl, -⟩
  · refine ⟨[w], .root w hroot, ?_⟩
    rw [resolveRoot, hkeys, collectSplits_root]
    rfl
  · have hparent : located a p = some (e.span, e.bucket, e.totalNs) := by
      rw [located, he]
      rfl
    obtain ⟨chain, hchain, hbucket⟩ := hrooted p _ hparent
    have hmem : e.span ∈ spans :=
      Multiset.mem_of_le hspans ((mem_ringSpans a e.span).mpr ⟨p, e, he, rfl⟩)
    have hname : e.span.id = p := hid p _ hparent
    refine ⟨w :: chain, .child w e.span chain (by rw [hp, hname]) hmem hchain, ?_⟩
    dsimp only at hbucket ⊢
    rw [resolveWithParent, hbucket, hkeys, bucketOf, collectSplits_child, bucketOf]
    simp

/-- INTERNAL: on a ring with room, a ready span is placed with the bucket of its chain and
the spans that waited for it are ready.
SRCLINE: state.rs:231-306 -/
theorem gathered_step (budget : ℕ) (keys : Finset String) (seen : Multiset WireSpan)
    (c c' : Cascade) (hids : DistinctIds seen) (hsize : seen.card ≤ budget)
    (hkept : Kept budget seen c.agg c.work) (h : Gathered keys seen c.agg c.work)
    (hc : CascadeStep c c') : Gathered keys seen c'.agg c'.work := by
  obtain ⟨a, work, ins⟩ := c
  rcases cascadeStep_cases _ _ hc with
    ⟨w, rest, p, hwork, hp, hnone, -⟩ | ⟨w, rest, b, r, a', hwork, hres, hplace, rfl⟩
  · -- a ready span is never parked
    dsimp only at hwork hnone h
    subst hwork
    exact absurd ((located_eq_none a p).mpr hnone) (h.ready w (by simp) p hp)
  · dsimp only at hwork hres hplace h hkept ⊢
    subst hwork
    obtain ⟨hnew, -⟩ := hkept.placeable _ _ _ _ _ hids
    have hroom : a.order.length < a.historyBudget := by
      have hcard := congrArg Multiset.card h.all
      rw [Multiset.card_add, Multiset.card_add, Multiset.coe_card, List.length_cons,
        ringSpans, Multiset.card_map, card_ring a hkept.locked] at hcard
      have := hkept.budget_eq
      omega
    obtain ⟨a₁, hmake, hspans, hpark, hloc⟩ := ringSpans_place a a' w b r hplace hnew
    rw [makeRoom_of_room a hroom] at hmake
    cases hmake
    obtain ⟨hcfg, -⟩ := takeWaiters_frame a' w.id
    have hconfig := hcfg.trans (place_order a a' w b r hplace).2
    have hlocated : ∀ id, located (a'.takeWaiters w.id).2 id =
        if id = w.id then some (w, b, totalOf w) else located a id := by
      intro id
      rw [← hloc id, located_takeWaiters]
    have hring : ringSpans (a'.takeWaiters w.id).2 = w ::ₘ ringSpans a := by
      rw [← hspans, ringSpans_takeWaiters]
    have hpending : a'.pending = a.pending := by
      obtain ⟨a₁, hmake, rfl⟩ := place_eq_some a a' w b r hplace
      rw [makeRoom_of_room a hroom] at hmake
      cases hmake
      exact congrArg Prod.fst (placed_frame a r w (a.entryOf w b)).2.1
    have hwait := parked_takeWaiters a' w.id
    refine ⟨?_, ?_, ?_, ?_, ?_⟩
    · rw [hring, ← h.all, ← hpark, hwait, ← Multiset.coe_add, ← Multiset.cons_coe,
        Multiset.cons_add, Multiset.add_cons, Multiset.add_cons]
      congr 2
      abel
    · exact (congrArg (fun c => c.2.1) hconfig).trans h.keys_eq
    · intro id x hx
      have hgrown : ringSpans a ≤ ringSpans (a'.takeWaiters w.id).2 := by
        rw [hring]
        exact Multiset.le_cons_self _ _
      have hrooted : ∀ id x, located a id = some x → ∃ chain,
          Chain (ringSpans (a'.takeWaiters w.id).2) x.1 chain ∧ x.2.1 = bucketOf keys chain := by
        intro id x hx
        obtain ⟨chain, hchain, hbucket⟩ := h.rooted id x hx
        exact ⟨chain, hchain.mono _ _ hgrown, hbucket⟩
      rw [hlocated id] at hx
      split at hx
      · cases hx
        exact chain_of_resolve keys _ a w b r h.keys_eq hgrown hkept.id_eq hrooted hres
      · exact hrooted id x hx
    · intro p ws hget
      have herase : (a'.takeWaiters w.id).2.pending = a.pending.erase w.id := by
        rw [← hpending]
        exact (takeWaiters_pool a' w.id).2
      rw [herase, getElem?_erase_eq] at hget
      split at hget
      · cases hget
      · next hne =>
        rw [hlocated p, if_neg hne]
        exact h.waits p ws hget
    · intro v hv p hp
      rw [hlocated p]
      split
      · exact Option.some_ne_none _
      · next hne =>
        rcases List.mem_append.mp hv with hwaiter | hrest
        · unfold takeWaiters at hwaiter
          split at hwaiter
          · next ws hget =>
            rw [hpending] at hget
            have hparent := (h.waits w.id ws hget).2 v hwaiter
            rw [hp] at hparent
            exact absurd (Option.some.inj hparent) hne
          · simp at hwaiter
        · exact h.ready v (List.mem_cons_of_mem w hrest) p hp

/-- INTERNAL: a span is parked only while there is room for it in the pool.
SRCLINE: state.rs:308-319 -/
def Roomy (a : Aggregator) : AggregatorOp → Prop
  | .absorb w => w.closedAtNs.isSome → a.resolve w = none → a.pendingLen + 1 ≤ a.pendingCap
  | .setSplitKeys _ => True

/-- INTERNAL: decidable. -/
instance (a : Aggregator) (op : AggregatorOp) : Decidable (Roomy a op) := by
  cases op with
  | absorb w => exact inferInstanceAs (Decidable (_ → _ → _))
  | setSplitKeys keys => exact inferInstanceAs (Decidable True)

/-- INTERNAL: a span that arrives is one more to process.
SRCLINE: state.rs:221-230 -/
theorem gathered_arrive (keys : Finset String) (seen : Multiset WireSpan) (a : Aggregator)
    (w : WireSpan) (h : Gathered keys seen a [])
    (hready : ∀ p, w.parentId = some p → located a p ≠ none) :
    Gathered keys (w ::ₘ seen) a [w] := by
  refine ⟨?_, h.keys_eq, h.rooted, h.waits, fun v hv => ?_⟩
  · rw [← h.all, Multiset.coe_singleton, Multiset.coe_nil, add_zero, ← add_assoc, add_comm,
      Multiset.singleton_add]
  · rw [List.mem_singleton.mp hv]
    exact hready

/-- INTERNAL: a span that is parked in a pool with room waits for its parent.
SRCLINE: state.rs:243-249, 308-319 -/
theorem gathered_parkPending (keys : Finset String) (seen : Multiset WireSpan) (a : Aggregator)
    (w : WireSpan) (p : ℕ) (h : Gathered keys seen a []) (hp : w.parentId = some p)
    (hnone : a.byId[p]? = none) (hfits : a.pendingLen + 1 ≤ a.pendingCap) :
    Gathered keys (w ::ₘ seen) (a.parkPending p w) [] := by
  rw [parkPending_of_fits a p w hfits]
  refine ⟨?_, h.keys_eq, h.rooted, ?_, by simp⟩
  · have hpush := parkedIn_push a.pending p w
    change ringSpans a + (parkedIn _ + _) = _
    rw [hpush, ← h.all, Multiset.cons_add, Multiset.add_cons]
    rfl
  · intro k ws hget
    dsimp only at hget
    change located a k = none ∧ _
    rw [getElem?_insert_eq] at hget
    split at hget
    · next hk =>
      subst hk
      refine ⟨(located_eq_none a k).mpr hnone, ?_⟩
      have hws := Option.some.inj hget
      intro v hv
      rw [← hws, List.mem_append, List.mem_singleton] at hv
      rcases hv with hv | rfl
      · rw [ExtTreeMap.getD_eq_getD_getElem?] at hv
        cases hold : a.pending[k]? with
        | none =>
          rw [hold] at hv
          simp at hv
        | some old =>
          rw [hold, Option.getD_some] at hv
          exact (h.waits k old hold).2 v hv
      · exact hp
    · exact h.waits k ws hget

/-- INTERNAL: **one arrival keeps the invariant**.
SRCLINE: state.rs:221-319 -/
theorem gathered_absorb (budget : ℕ) (keys : Finset String) (seen : Multiset WireSpan)
    (a a' : Aggregator) (w : WireSpan) (hids : DistinctIds (w ::ₘ seen))
    (hsize : (w ::ₘ seen).card ≤ budget) (hclosed : w.closedAtNs.isSome)
    (hkept : Kept budget seen a []) (h : Gathered keys seen a [])
    (hroomy : Roomy a (.absorb w)) (hrun : AggregatorOp.perform a (.absorb w) = some a') :
    Gathered keys (w ::ₘ seen) a' [] := by
  obtain ⟨⟨a', ins⟩, hr, rfl⟩ := Option.map_eq_some_iff.mp hrun
  have hopen : ¬ w.closedAtNs.isNone = true := by
    rw [Option.isNone_iff_eq_none]
    exact Option.isSome_iff_ne_none.mp hclosed
  unfold absorb at hr
  rw [if_neg hopen] at hr
  unfold absorbResolvedAll at hr
  cases hres : a.resolve w with
  | none =>
    -- the span is parked, and that is all
    obtain ⟨p, hp, hnone⟩ := (resolve_eq_none_iff a w).mp hres
    simp only [absorbResolved, hres, hp, Option.getD_some] at hr
    cases hr
    exact gathered_parkPending keys seen a w p h hp hnone (hroomy hclosed hres)
  | some br =>
    -- the span is ready, and so is everything its placement releases
    have hready : ∀ p, w.parentId = some p → located a p ≠ none := by
      intro p hp hnone
      have hnever := (resolve_eq_none_iff a w).mpr ⟨p, hp, (located_eq_none a p).mp hnone⟩
      rw [hres] at hnever
      cases hnever
    have hcascade := absorbResolved_cascade _ a a' w [] ins hr []
    have hkept' := (kept_runInvariant budget).arrive seen a w hids hkept
    exact (cascades_invariant
      (fun c => Kept budget (w ::ₘ seen) c.agg c.work ∧ Gathered keys (w ::ₘ seen) c.agg c.work)
      (fun c c' hc hstep => ⟨kept_step budget _ c c' hids hc.1 hstep,
        gathered_step budget keys _ c c' hids hsize hc.1 hc.2 hstep⟩)
      _ _ ⟨hkept', gathered_arrive keys seen a w h hready⟩ hcascade).2

/-! ## When everything has arrived -/

/-- INTERNAL: **the spans of the ring are those with a chain** among all spans seen.
SRCLINE: state.rs:231-319 -/
theorem mem_ringSpans_iff_chain (keys : Finset String) (seen : Multiset WireSpan)
    (a : Aggregator) (h : Gathered keys seen a []) (hid : ∀ id x, located a id = some x →
      x.1.id = id) (w : WireSpan) : w ∈ ringSpans a ↔ w ∈ seen ∧ ∃ c, Chain seen w c := by
  have hsub : ringSpans a ≤ seen := by
    rw [← h.all]
    exact Multiset.le_add_right _ _
  have hplaced : ∀ v ∈ seen, v ∈ ringSpans a ∨ ∃ p, v.parentId = some p ∧ located a p = none := by
    intro v hv
    rw [← h.all, Multiset.coe_nil, add_zero, Multiset.mem_add] at hv
    rcases hv with hv | hv
    · exact Or.inl hv
    · obtain ⟨p, ws, hget, hmem⟩ := (mem_parkedIn _ v).mp hv
      obtain ⟨hnone, hparent⟩ := h.waits p ws hget
      exact Or.inr ⟨p, hparent v hmem, hnone⟩
  constructor
  · intro hw
    obtain ⟨id, e, he, rfl⟩ := (mem_ringSpans a w).mp hw
    obtain ⟨c, hc, -⟩ := h.rooted id (e.span, e.bucket, e.totalNs) (by rw [located, he]; rfl)
    exact ⟨Multiset.mem_of_le hsub hw, c, hc.mono _ _ hsub⟩
  · rintro ⟨hw, c, hc⟩
    induction hc with
    | root w hroot =>
      rcases hplaced w hw with hin | ⟨p, hp, -⟩
      · exact hin
      · rw [hroot] at hp
        cases hp
    | child w v chain hp hv _ ih =>
      -- the parent is in the ring, so the span cannot be waiting for it
      obtain ⟨id, e, he, heq⟩ := (mem_ringSpans a v).mp (ih hv)
      have hlocated : located a id = some (e.span, e.bucket, e.totalNs) := by
        rw [located, he]
        rfl
      have hname : v.id = id := by
        rw [← heq]
        exact hid id _ hlocated
      rcases hplaced w hw with hin | ⟨p, hp', hnone⟩
      · exact hin
      · rw [hp] at hp'
        cases hp'
        rw [hname, hlocated] at hnone
        cases hnone

/-- INTERNAL: the entry the reference has for a kept span. -/
def referenceEntry (S : List WireSpan) (keys : Finset String)
    (wc : WireSpan × List WireSpan) : Entry where
  span := wc.1
  bucket := bucketOf keys wc.2
  totalNs := totalOf wc.1
  selfNs := totalOf wc.1 - childTotal ((keptSpans S).map Prod.fst) wc.1.id

/-- INTERNAL: **the ring is the reference's**, entry by entry.
SRCLINE: state.rs:231-319 -/
theorem ring_eq_reference (S : List WireSpan) (keys : Finset String) (a : Aggregator)
    (hids : DistinctIds S) (h : Gathered keys S a []) (hid : ∀ id x, located a id = some x →
      x.1.id = id) (htallied : Tallied True a) (hbalanced : Balanced a 0) :
    ring a = ((keptSpans S).map (referenceEntry S keys) : List Entry) := by
  have hsub : ringSpans a ≤ (S : Multiset WireSpan) := by
    rw [← h.all]
    exact Multiset.le_add_right _ _
  have hS : S.Nodup := by
    have hnodup : ((S : Multiset WireSpan).map WireSpan.id).Nodup := hids
    rw [Multiset.map_coe, Multiset.coe_nodup] at hnodup
    exact hnodup.of_map
  have hmem : ∀ w, w ∈ ringSpans a ↔ ∃ c, (w, c) ∈ keptSpans S := by
    intro w
    rw [mem_ringSpans_iff_chain keys S a h hid w]
    constructor
    · rintro ⟨hw, c, hc⟩
      exact ⟨c, (mem_keptSpans S hids w c).mpr ⟨hw, hc⟩⟩
    · rintro ⟨c, hc⟩
      obtain ⟨hw, hc⟩ := (mem_keptSpans S hids w c).mp hc
      exact ⟨hw, c, hc⟩
  -- the same spans
  have hkept : ((keptSpans S).map Prod.fst).Nodup := by
    unfold List.Nodup keptSpans
    rw [List.pairwise_map, List.pairwise_filterMap]
    refine hS.imp ?_
    intro v w hne x hx y hy
    obtain ⟨c, -, rfl⟩ := Option.map_eq_some_iff.mp hx
    obtain ⟨c', -, rfl⟩ := Option.map_eq_some_iff.mp hy
    exact hne
  have hspans : ringSpans a = ((keptSpans S).map Prod.fst : List WireSpan) := by
    refine (Multiset.Nodup.ext ?_ ?_).mpr ?_
    · exact Multiset.nodup_of_le hsub (Multiset.coe_nodup.mpr hS)
    · exact Multiset.coe_nodup.mpr hkept
    · intro w
      rw [hmem w, Multiset.mem_coe, List.mem_map]
      constructor
      · rintro ⟨c, hc⟩
        exact ⟨(w, c), hc, rfl⟩
      · rintro ⟨⟨w', c⟩, hc, rfl⟩
        exact ⟨c, hc⟩
  -- an entry is determined by its span
  let entryFor : WireSpan → Entry := fun w =>
    referenceEntry S keys (w, (ancestry S S.length w).getD [])
  have hentry : ∀ e ∈ ring a, e = entryFor e.span := by
    intro e he
    obtain ⟨id, hget⟩ := (mem_values _ e).mp he
    have hlocated : located a id = some (e.span, e.bucket, e.totalNs) := by
      rw [located, hget]
      rfl
    obtain ⟨c, hc, hbucket⟩ := h.rooted id _ hlocated
    have hname : e.span.id = id := hid id _ hlocated
    have hin : e.span ∈ S :=
      Multiset.mem_of_le hsub ((mem_ringSpans a e.span).mpr ⟨id, e, hget, rfl⟩)
    have hc' := hc.mono _ _ hsub
    have hanc : ancestry S S.length e.span = some c :=
      (ancestry_iff S hids _ _ c).mpr ⟨hc', hc'.length_le S hids e.span hin c⟩
    have htotal := htallied.total_eq id e hget
    have hself := hbalanced.self_eq id e hget
    have hsum := hbalanced.sum_eq id e hget
    rw [add_zero, hspans] at hsum
    rw [hsum, htotal] at hself
    obtain ⟨span, bucket, totalNs, selfNs⟩ := e
    dsimp only at hbucket htotal hself hname hanc ⊢
    simp only [entryFor, referenceEntry, hanc, Option.getD_some, Entry.mk.injEq]
    refine ⟨trivial, hbucket, htotal, ?_⟩
    rw [hself, hname]
  calc ring a = (ring a).map (fun e => entryFor e.span) := by
        conv_lhs => rw [← Multiset.map_id (ring a)]
        exact Multiset.map_congr rfl hentry
    _ = (ringSpans a).map entryFor := by rw [ringSpans, Multiset.map_map]; rfl
    _ = (((keptSpans S).map fun wc => entryFor wc.1 : List Entry) : Multiset Entry) := by
        rw [hspans, Multiset.map_coe, List.map_map]
        rfl
    _ = ((keptSpans S).map (referenceEntry S keys) : List Entry) := by
        congr 1
        apply List.map_congr_left
        rintro ⟨w, c⟩ hwc
        obtain ⟨hw, hc⟩ := (mem_keptSpans S hids w c).mp hwc
        have hanc : ancestry S S.length w = some c :=
          (ancestry_iff S hids _ w c).mpr ⟨hc, hc.length_le S hids w hw c⟩
        simp only [entryFor, hanc, Option.getD_some]

/-- INTERNAL: **the rows of a ring are determined by its bag of entries**.
SRCLINE: state.rs:406-425 -/
theorem rows_eq_of_ring (a : Aggregator) (l : List Entry) (h : BucketsOf True a.buckets l) :
    a.rows = (((l.map Entry.bucket).dedup.insertionSort fun x y =>
        (compare x y).isLE = true).map fun key =>
      (key, statsOf ((l.filter fun e => e.bucket = key).map fun e => (e.totalNs, e.selfNs)))) := by
  set stats : BucketKey → StackStats := fun key =>
    statsOf ((l.filter fun e => e.bucket = key).map fun e => (e.totalNs, e.selfNs)) with hstats
  have hpairs : ∀ key, contribution l key =
      ((l.filter fun e => e.bucket = key).map fun e => (e.totalNs, e.selfNs) : List _) := by
    intro key
    rw [contribution, Multiset.filter_coe, Multiset.map_coe]
  have hkeys : a.buckets.keys.Perm (l.map Entry.bucket).dedup := by
    rw [List.perm_ext_iff_of_nodup (keys_nodup a.buckets) (List.nodup_dedup _)]
    intro key
    rw [ExtTreeMap.mem_keys, List.mem_dedup, List.mem_map, h.mem_iff]
    exact Iff.rfl
  have hrows : (a.buckets.toList.map fun kv => (kv.1, kv.2.toStackStats)) =
      a.buckets.keys.map fun key => (key, stats key) := by
    rw [← ExtTreeMap.map_fst_toList_eq_keys, List.map_map]
    apply List.map_congr_left
    intro kv hkv
    have hget := ExtTreeMap.mem_toList_iff_getElem?_eq_some.mp hkv
    have hholds := (holds_of_get True _ _ h kv.1 kv.2 hget).2
    rw [hpairs] at hholds
    simp only [Function.comp, hstats, toStackStats_of_holds True kv.2 _ trivial hholds]
  have hsort : (a.buckets.keys.insertionSort fun x y => (compare x y).isLE = true) =
      (l.map Entry.bucket).dedup.insertionSort fun x y => (compare x y).isLE = true := by
    have htotal : Std.Total fun x y : BucketKey => (compare x y).isLE = true := by
      refine ⟨fun x y => ?_⟩
      have hswap : compare x y = (compare y x).swap := Std.OrientedCmp.eq_swap
      cases hcmp : compare y x <;> rw [hcmp] at hswap <;> simp [hswap]
    have htrans : IsTrans BucketKey fun x y => (compare x y).isLE = true :=
      ⟨fun _ _ _ hxy hyz => Std.TransCmp.isLE_trans hxy hyz⟩
    have hanti : Std.Antisymm fun x y : BucketKey => (compare x y).isLE = true :=
      ⟨fun _ _ hxy hyx => Std.LawfulEqCmp.eq_of_compare (Std.OrientedCmp.isLE_antisymm hxy hyx)⟩
    apply List.Perm.eq_of_pairwise' (List.pairwise_insertionSort _ _)
      (List.pairwise_insertionSort _ _)
    exact ((List.perm_insertionSort _ _).trans hkeys).trans (List.perm_insertionSort _ _).symm
  unfold rows
  rw [hrows, ← hsort]
  symm
  apply List.map_insertionSort
  intro x _ y _
  rfl

/-! ## Every order gives the reference -/

/-- INTERNAL: choose the split keys, then absorb spans one after the other. -/
def arrivals (keys : Finset String) (order : List WireSpan) : List AggregatorOp :=
  .setSplitKeys keys :: order.map .absorb

/-- INTERNAL: choosing the split keys of an empty aggregator.
SRCLINE: state.rs:147-153 -/
theorem setSplitKeys_new (budget : ℕ) (keys : Finset String) :
    (Aggregator.new budget).setSplitKeys keys =
      some { Aggregator.new budget with splitKeys := keys } := by
  unfold setSplitKeys
  split
  · next h => rw [h]
  · rfl

/-- INTERNAL: closed spans are all absorbed. -/
theorem absorbedSpans_absorbs (order : List WireSpan) (h : ∀ w ∈ order, w.closedAtNs.isSome) :
    absorbedSpans (order.map .absorb) = order := by
  induction order with
  | nil => rfl
  | cons w order ih =>
    have hw : w.closedAtNs.isSome := h w (by simp)
    have hrest := ih fun v hv => h v (by simp [hv])
    unfold absorbedSpans at hrest ⊢
    rw [List.map_cons, List.filterMap_cons]
    simp only [hw, if_true, hrest]

/-- INTERNAL: all arrivals keep the invariant.
SRCLINE: state.rs:221-319 -/
theorem gathered_run (budget : ℕ) (keys : Finset String) (order : List WireSpan)
    (seen : Multiset WireSpan) (a a' : Aggregator) (hids : DistinctIds (seen + order))
    (hsize : (seen + (order : Multiset WireSpan)).card ≤ budget)
    (hclosed : ∀ w ∈ order, w.closedAtNs.isSome) (hkept : Kept budget seen a [])
    (h : Gathered keys seen a [])
    (hroomy : RunsUnder AggregatorOp.perform Roomy a (order.map .absorb))
    (hrun : run AggregatorOp.perform a (order.map .absorb) = some a') :
    Gathered keys (seen + order) a' [] := by
  induction order generalizing seen a with
  | nil =>
    cases hrun
    simpa using h
  | cons w order ih =>
    rw [List.map_cons, run_cons, Option.bind_eq_some_iff] at hrun
    obtain ⟨a₁, h₁, hrun⟩ := hrun
    have hsplit : seen + ((w :: order : List WireSpan) : Multiset WireSpan) =
        (w ::ₘ seen) + order := by
      rw [← Multiset.cons_coe, Multiset.add_cons, Multiset.cons_add]
    rw [hsplit] at hids hsize ⊢
    have hw : w.closedAtNs.isSome := hclosed w (by simp)
    have hids₁ : DistinctIds (w ::ₘ seen) :=
      DistinctIds.mono _ _ (Multiset.le_add_right _ _) hids
    have hsize₁ : (w ::ₘ seen).card ≤ budget :=
      (Multiset.card_le_card (Multiset.le_add_right _ _)).trans hsize
    have hseen : AggregatorOp.seen (.absorb w) + seen = w ::ₘ seen := by
      simp [AggregatorOp.seen, absorbedSpans, hw]
    have hkept₁ := perform_kept DistinctIds (Kept budget) (kept_runInvariant budget)
      DistinctIds.mono (fun seen a h => (Multiset.le_add_right _ _).trans h.bag) seen a a₁
      (.absorb w) (by rw [hseen]; exact hids₁) hkept h₁
    rw [hseen] at hkept₁
    have hgathered₁ :=
      gathered_absorb budget keys seen a a₁ w hids₁ hsize₁ hw hkept h hroomy.1 h₁
    exact ih (w ::ₘ seen) a₁ hids hsize (fun v hv => hclosed v (by simp [hv])) hkept₁
      hgathered₁ (hroomy.2 a₁ h₁) hrun

/-- CODE: state.rs:221-319, 393-425, 465-489 — **the order of arrival does not matter**: in
every order along which the pool does not overflow, on a ring that holds them all, at most
`2 ^ 32` closed spans give the rows of the whole-buffer reference. -/
theorem arrival_order_irrelevant (S order : List WireSpan) (keys : Finset String) (budget : ℕ)
    (hclosed : ∀ w ∈ S, w.closedAtNs.isSome) (hids : (S.map WireSpan.id).Nodup)
    (hword : ∀ p, childTotal S p < 2 ^ 64) (hbudget : S.length ≤ budget)
    (hfits : S.length ≤ 2 ^ 32) (horder : order.Perm S)
    (hroomy : RunsUnder AggregatorOp.perform Roomy (Aggregator.new budget)
      (arrivals keys order)) :
    ∃ a, run AggregatorOp.perform (Aggregator.new budget) (arrivals keys order) = some a ∧
      a.rows = referenceRows S keys := by
  set a₀ : Aggregator := { Aggregator.new budget with splitKeys := keys } with ha₀
  have hstart : AggregatorOp.perform (Aggregator.new budget) (.setSplitKeys keys) = some a₀ :=
    setSplitKeys_new budget keys
  have hrest : ∀ a, run AggregatorOp.perform (Aggregator.new budget) (arrivals keys order) =
      some a ↔ run AggregatorOp.perform a₀ (order.map .absorb) = some a := by
    intro a
    rw [arrivals, run_cons, hstart]
    rfl
  -- every arrival returns
  obtain ⟨a, hrun⟩ : ∃ a, run AggregatorOp.perform a₀ (order.map .absorb) = some a := by
    cases horder' : order with
    | nil => exact ⟨a₀, rfl⟩
    | cons w rest =>
      rw [← horder']
      apply run_total
      have hlen := horder.length_eq
      rw [horder', List.length_cons] at hlen
      change 0 < budget
      omega
  refine ⟨a, (hrest a).mpr hrun, ?_⟩
  have hcoe : (order : Multiset WireSpan) = S := Multiset.coe_eq_coe.mpr horder
  have hdistinct := distinctIds_coe S hids
  have hclosed' : ∀ w ∈ order, w.closedAtNs.isSome := fun w hw => hclosed w (horder.mem_iff.mp hw)
  have hseen : (absorbedSpans (order.map .absorb) : Multiset WireSpan) = S := by
    rw [absorbedSpans_absorbs order hclosed', hcoe]
  -- the invariants of the ring at the start and along the run
  have hkept₀ : Kept budget 0 a₀ [] := by
    have h := kept_new budget
    exact ⟨⟨h.locked.nodup, h.locked.mem_iff⟩, h.id_eq, h.budget_eq, h.room, h.bag, h.past⟩
  have htallied₀ : Tallied True a₀ :=
    tallied_congr True (Aggregator.new budget) a₀ rfl rfl (tallied_new True budget)
  have hbalanced₀ : Balanced a₀ 0 :=
    balanced_congr (Aggregator.new budget) a₀ 0 rfl rfl (balanced_new budget)
  have hgathered₀ : Gathered keys 0 a₀ [] := by
    have hring : ringSpans a₀ = 0 := by
      unfold ringSpans ring
      simp [ha₀, Aggregator.new]
    have hparked : parked a₀ = 0 := parkedIn_empty
    refine ⟨by simp [hring, hparked], rfl, ?_, ?_, by simp⟩
    · intro id x hx
      simp [located, ha₀, Aggregator.new] at hx
    · intro p ws hget
      simp [ha₀, Aggregator.new] at hget
  have hgathered : Gathered keys (S : Multiset WireSpan) a [] := by
    have h := gathered_run budget keys order 0 a₀ a (by rw [zero_add, hcoe]; exact hdistinct)
      (by rw [zero_add, hcoe, Multiset.coe_card]; exact hbudget) hclosed' hkept₀ hgathered₀
      (hroomy.2 a₀ hstart) hrun
    rw [zero_add, hcoe] at h
    exact h
  have hinvariant := balanced_runInvariant budget True
    (fun s => WordSums s ∧ s.card ≤ 2 ^ 32) (fun _ h => h.1) (by
      intro _ seen a work hgood hkept
      rw [← card_ring a hkept.locked, ← Multiset.card_map Entry.span]
      exact (Multiset.card_le_card ((Multiset.le_add_right _ _).trans hkept.bag)).trans hgood.2)
  obtain ⟨⟨hkept, htallied⟩, hbalanced⟩ := run_kept _ _ hinvariant
    (fun s t hle h => ⟨WordSums.mono s t hle h.1, (Multiset.card_le_card hle).trans h.2⟩)
    (fun seen a h => (Multiset.le_add_right _ _).trans h.1.1.bag) (order.map .absorb) 0 a₀ a
    (by rw [zero_add, hseen]; exact ⟨⟨hdistinct, hword⟩, hfits⟩)
    ⟨⟨hkept₀, htallied₀⟩, hbalanced₀⟩ hrun
  -- the rows are those of the ring, and the ring is the reference's
  have hring := ring_eq_reference S keys a hdistinct hgathered hkept.id_eq htallied hbalanced
  have hbuckets := htallied.buckets
  rw [hring] at hbuckets
  rw [rows_eq_of_ring a _ hbuckets]
  unfold referenceRows referencePairs
  simp only [List.map_map, List.filter_map]
  rfl

/-- CODE: state.rs:221-319 — a root, its child and its grandchild, the root arriving second. -/
theorem arrival_order_irrelevant_small :
    ∃ a, run AggregatorOp.perform (Aggregator.new 3) (arrivals {"api"}
        [plainSpan 2 (some 1) 4, plainSpan 1 none 7, plainSpan 3 (some 2) 1]) = some a ∧
      a.rows = referenceRows
        [plainSpan 1 none 7, plainSpan 2 (some 1) 4, plainSpan 3 (some 2) 1] {"api"} := by
  apply arrival_order_irrelevant
  · decide
  · decide
  · intro p
    apply (childTotal_le_sum _ p).trans_lt
    decide
  · decide
  · decide
  · decide
  · decide

/-! ## Beyond `2 ^ 32` spans the rows are not the reference's -/

/-- INTERNAL: a child of the root 0 arrives in a ring of `B` equal roots: the self time of
the root is rewritten in a bucket that then forgets those of the others.
SRCLINE: state.rs:264-297, 366-391 -/
theorem flooded_child (B : ℕ) (hB : B % 2 ^ 32 = 1) (htwo : 2 ≤ B) (a : Aggregator)
    (h : Flooded (B + 1) B a) :
    ∃ a' st, AggregatorOp.perform a (.absorb (plainSpan B (some 0) 3)) = some a' ∧
      a'.buckets[plainKey]? = some st ∧ st.toStackStats.selfMaxNs = 4 := by
  set root : Entry := ⟨plainSpan 0 none 7, plainKey, 7, 7⟩ with hroot
  set child : WireSpan := plainSpan B (some 0) 3 with hchild
  have hfirst : a.byId[0]? = some root := by
    rw [h.entry_eq 0, if_pos (by omega)]
  have hresolve : a.resolve child = some (a.resolveWithParent child root, true) :=
    resolve_child a child 0 root rfl hfirst
  have hroom : a.makeRoom = some a := by
    apply makeRoom_of_room
    rw [h.order_eq, List.length_range, h.budget_eq]
    omega
  obtain ⟨st, hst⟩ := Option.isSome_iff_exists.mp
    (ExtTreeMap.isSome_getElem?_iff_mem.mpr (h.stored (by omega)))
  have hholds := h.holds
  rw [ExtTreeMap.getD_eq_getD_getElem?, hst, Option.getD_some] at hholds
  set entry := a.entryOf child (a.resolveWithParent child root) with hentry
  set charged := a.chargeParent true child with hcharged
  -- the bucket of the roots after the charge
  have hbucket : charged.buckets[plainKey]? = some ((st.remove 7 7).add 7 4) := by
    have hin : a.byId.contains 0 = true := ExtTreeMap.isSome_getElem?_iff_mem.mp (by simp [hfirst])
    have hsum : (a.childSum.getD 0 0 + totalOf child) % 2 ^ 64 = 3 := by
      rw [h.childSum_eq]
      rfl
    have hcharge : charged =
        { a with childSum := a.childSum.insert 0 3 }.bumpParentSelf 0 3 := by
      rw [hcharged]
      change (if (true && a.byId.contains 0) = true then _ else a) = _
      rw [hin, Bool.true_and, if_pos rfl, hsum]
    rw [hcharge]
    unfold bumpParentSelf
    simp only [hfirst]
    rw [if_neg (by decide)]
    simp only [hroot, hst]
    rw [getElem?_insert_eq, if_pos rfl]
  have hother : plainKey ≠ entry.bucket := by
    intro heq
    have hstack := congrArg BucketKey.stack heq
    simp [plainKey, hentry, entryOf, resolveWithParent, hroot] at hstack
  have hpending : (charged.insertEntry entry).pending = ∅ :=
    (congrArg Prod.fst (placed_frame a true child entry).2.1).trans h.pending_eq
  refine ⟨charged.insertEntry entry, (st.remove 7 7).add 7 4, ?_, ?_, ?_⟩
  · have htake : (charged.insertEntry entry).takeWaiters child.id =
        ([], charged.insertEntry entry) := by
      unfold takeWaiters
      rw [hpending]
      simp
    have hclosed : child.closedAtNs.isNone = false := rfl
    simp only [AggregatorOp.perform, absorb, hclosed, Bool.false_eq_true, if_false,
      absorbResolvedAll, absorbResolved, hresolve, place, hroom, Option.map_some]
    rw [← hentry, ← hcharged, htake]
    rfl
  · unfold insertEntry
    rw [getElem?_insert_eq, if_neg hother]
    exact hbucket
  · have hselves := hholds.selves trivial
    rw [Multiset.map_replicate] at hselves
    have htally := tallies_inc _ _ _ 4 (wrapped_msDec _ B 7 hB hselves)
    have hread := msMinMax_of_tallies _ [4] htally
    change (msMinMax (tallyInc (2 ^ 32) (msDec st.selfNsMultiset 7) 4)).2 = 4
    rw [hread]
    rfl

/-- INTERNAL: `n` equal roots and a child of the first. -/
def floodedFamily (n : ℕ) : List WireSpan :=
  (List.range n).map (fun id => plainSpan id none 7) ++ [plainSpan n (some 0) 3]

/-- INTERNAL: in the reference the other roots keep their self time. -/
theorem reference_selfMax (n : ℕ) (htwo : 2 ≤ n) :
    7 ≤ (statsOf (referencePairs (floodedFamily n) ∅ plainKey)).selfMaxNs := by
  have hkept : (plainSpan 1 none 7, [plainSpan 1 none 7]) ∈ keptSpans (floodedFamily n) := by
    unfold keptSpans
    rw [List.mem_filterMap]
    refine ⟨plainSpan 1 none 7, ?_, ?_⟩
    · unfold floodedFamily
      rw [List.mem_append, List.mem_map]
      exact Or.inl ⟨1, by rw [List.mem_range]; omega, rfl⟩
    · have hlen : (floodedFamily n).length = n + 1 := by simp [floodedFamily]
      rw [hlen]
      rfl
  have hchildless : childTotal ((keptSpans (floodedFamily n)).map Prod.fst) 1 = 0 := by
    apply childTotal_eq_zero
    intro w hw
    rw [Multiset.mem_coe, List.mem_map] at hw
    obtain ⟨wc, hwc, rfl⟩ := hw
    unfold keptSpans at hwc
    rw [List.mem_filterMap] at hwc
    obtain ⟨v, hv, heq⟩ := hwc
    obtain ⟨c, -, rfl⟩ := Option.map_eq_some_iff.mp heq
    unfold floodedFamily at hv
    rw [List.mem_append, List.mem_map, List.mem_singleton] at hv
    rcases hv with ⟨id, -, rfl⟩ | rfl
    · exact (Option.some_ne_none 1).symm
    · intro h
      cases h
  have hpair : (7, 7) ∈ referencePairs (floodedFamily n) ∅ plainKey := by
    unfold referencePairs
    dsimp only
    rw [List.mem_map]
    have hbucket : bucketOf ∅ [plainSpan 1 none 7] = plainKey := by
      simp [bucketOf, splitValues, plainKey, plainSpan]
    refine ⟨_, List.mem_filter.mpr ⟨hkept, by simpa using hbucket⟩, ?_⟩
    change (7, 7 - childTotal ((keptSpans (floodedFamily n)).map Prod.fst) 1) = (7, 7)
    rw [hchildless]
  change 7 ≤ ((referencePairs (floodedFamily n) ∅ plainKey).map Prod.snd).max?.getD 0
  cases hmax : ((referencePairs (floodedFamily n) ∅ plainKey).map Prod.snd).max? with
  | none =>
    rw [List.max?_eq_none_iff, List.map_eq_nil_iff] at hmax
    rw [hmax] at hpair
    cases hpair
  | some high =>
    have hle := (List.max?_eq_some_iff.mp hmax).2 7 (List.mem_map.mpr ⟨_, hpair, rfl⟩)
    exact hle

/-- INTERNAL: the flooded family is the flood and one child. -/
theorem flooded_ops (n : ℕ) : (floodedFamily n).map AggregatorOp.absorb =
    floodOps n ++ [.absorb (plainSpan n (some 0) 3)] := by
  unfold floodedFamily floodOps
  rw [List.map_append, List.map_map]
  rfl

/-- INTERNAL: all its spans are closed. -/
theorem flooded_closed (n : ℕ) : ∀ w ∈ floodedFamily n, w.closedAtNs.isSome := by
  intro w hw
  unfold floodedFamily at hw
  rw [List.mem_append, List.mem_map, List.mem_singleton] at hw
  rcases hw with ⟨id, -, rfl⟩ | rfl
  · rfl
  · rfl

/-- INTERNAL: and have distinct ids. -/
theorem flooded_nodup (n : ℕ) : ((floodedFamily n).map WireSpan.id).Nodup := by
  have hids : (floodedFamily n).map WireSpan.id = List.range (n + 1) := by
    unfold floodedFamily
    rw [List.map_append, List.map_map, List.range_succ]
    congr 1
    exact List.map_id _
  rw [hids]
  exact List.nodup_range

/-- INTERNAL: the only child lasted three nanoseconds. -/
theorem flooded_childTotal (n p : ℕ) : childTotal (floodedFamily n) p < 2 ^ 64 := by
  unfold floodedFamily
  rw [← Multiset.coe_add, childTotal_add, childTotal_eq_zero, Multiset.coe_singleton,
    childTotal_singleton, Nat.zero_add]
  · split
    · change 3 < 2 ^ 64
      decide
    · decide
  · intro w hw
    rw [Multiset.mem_coe, List.mem_map] at hw
    obtain ⟨id, -, rfl⟩ := hw
    exact (Option.some_ne_none p).symm

/-- INTERNAL: roots park nothing, and the child's parent is there. -/
theorem flooded_roomy (n : ℕ) (htwo : 2 ≤ n) :
    RunsUnder AggregatorOp.perform Roomy (Aggregator.new (n + 1))
      (arrivals ∅ (floodedFamily n)) := by
  obtain ⟨a, hrun, hflooded⟩ := flooded_run (n + 1) n (by omega)
  refine ⟨trivial, fun s hs => ?_⟩
  have hnew : AggregatorOp.perform (Aggregator.new (n + 1)) (.setSplitKeys ∅) =
    some (Aggregator.new (n + 1)) := rfl
  rw [hnew, Option.some.injEq] at hs
  rw [← hs, flooded_ops]
  apply RunsUnder.append
  · apply runsUnder_of_forall
    intro b op hop
    unfold floodOps at hop
    rw [List.mem_map] at hop
    obtain ⟨id, -, rfl⟩ := hop
    intro _ hres
    cases hres
  · intro b hb
    rw [hrun] at hb
    cases hb
    refine ⟨?_, fun _ _ => trivial⟩
    intro _ hres
    have hfirst : a.byId[0]? = some ⟨plainSpan 0 none 7, plainKey, 7, 7⟩ := by
      rw [hflooded.entry_eq 0, if_pos (by omega)]
    rw [resolve_child a _ 0 _ rfl hfirst] at hres
    cases hres

/-- INTERNAL: with one root more than a word counts, the rows miss the roots' self time.
SRCLINE: state.rs:21-22, 66-75 -/
theorem flooded_rows (n : ℕ) (hn : n % 2 ^ 32 = 1) (htwo : 2 ≤ n) :
    ∃ a, run AggregatorOp.perform (Aggregator.new (n + 1)) (arrivals ∅ (floodedFamily n)) =
        some a ∧ a.rows ≠ referenceRows (floodedFamily n) ∅ := by
  obtain ⟨a, hrun, hflooded⟩ := flooded_run (n + 1) n (by omega)
  obtain ⟨a', st, hlast, hget, hmax⟩ := flooded_child n hn htwo a hflooded
  refine ⟨a', ?_, fun heq => ?_⟩
  · have hnew : AggregatorOp.perform (Aggregator.new (n + 1)) (.setSplitKeys ∅) =
      some (Aggregator.new (n + 1)) := rfl
    rw [arrivals, run_cons, hnew, flooded_ops, Option.bind_some, run_append, hrun]
    change (AggregatorOp.perform a (.absorb (plainSpan n (some 0) 3))).bind _ = some a'
    rw [hlast]
    rfl
  · have hrow : (plainKey, st.toStackStats) ∈ a'.rows := by
      unfold rows
      rw [List.mem_insertionSort, List.mem_map]
      exact ⟨(plainKey, st), ExtTreeMap.mem_toList_iff_getElem?_eq_some.mpr hget, rfl⟩
    rw [heq] at hrow
    unfold referenceRows at hrow
    dsimp only at hrow
    rw [List.mem_map] at hrow
    obtain ⟨key, -, hkey⟩ := hrow
    simp only [Prod.mk.injEq] at hkey
    obtain ⟨rfl, hstats⟩ := hkey
    have hseven := reference_selfMax n htwo
    rw [hstats, hmax] at hseven
    omega

/-- CODE: state.rs:21-22, 66-75 — `2 ^ 32 + 1` equal roots and one child, all in the ring and
none parked, and the rows are not those of the reference: the largest self time of the
roots is forgotten. -/
theorem arrival_order_overflow :
    (∀ w ∈ floodedFamily (2 ^ 32 + 1), w.closedAtNs.isSome) ∧
    ((floodedFamily (2 ^ 32 + 1)).map WireSpan.id).Nodup ∧
    (∀ p, childTotal (floodedFamily (2 ^ 32 + 1)) p < 2 ^ 64) ∧
    (floodedFamily (2 ^ 32 + 1)).length ≤ 2 ^ 32 + 2 ∧
    RunsUnder AggregatorOp.perform Roomy (Aggregator.new (2 ^ 32 + 2))
      (arrivals ∅ (floodedFamily (2 ^ 32 + 1))) ∧
    ∃ a, run AggregatorOp.perform (Aggregator.new (2 ^ 32 + 2))
        (arrivals ∅ (floodedFamily (2 ^ 32 + 1))) = some a ∧
      a.rows ≠ referenceRows (floodedFamily (2 ^ 32 + 1)) ∅ := by
  have hlength (n : ℕ) : (floodedFamily n).length ≤ n + 1 := by simp [floodedFamily]
  exact ⟨flooded_closed _, flooded_nodup _, flooded_childTotal _, hlength _,
    flooded_roomy _ (by decide), flooded_rows _ (by decide) (by decide)⟩

end TracingConsole.Analysis
