import TracingConsole.Analysis.SplitRebuild

/-!
# A ring that nothing leaves

While no span is evicted the queue only grows at its end.  What was in the ring stays as it
was, and a span of the ring that has a parent has it in the ring, since it could only be placed
next to it.
-/

set_option autoImplicit false

namespace TracingConsole.Analysis

open Std (ExtTreeMap)
open TracingConsole.Library TracingConsole.Model TracingConsole.Model.Aggregator

/-- INTERNAL: the ring of `a` with the ids `ins` behind it, and no parent missing. -/
structure Grown (a : Aggregator) (ins : List ℕ) (a' : Aggregator) : Prop where
  order_eq : a'.order = a.order ++ ins
  old : ∀ id ∈ a.order, located a' id = located a id
  present : ParentsPresent a'

/-- INTERNAL: every parent named in the ring is in it. -/
theorem parentsPresent_iff (a : Aggregator) (hlocked : Locked a) :
    ParentsPresent a ↔ ∀ id x, located a id = some x → ∀ p, x.1.parentId = some p →
      p ∈ a.order := by
  constructor
  · intro h id x hx p hp
    obtain ⟨e, he, hsame⟩ := Option.map_eq_some_iff.mp hx
    subst hsame
    have hin : id ∈ a.order := by
      rw [hlocked.mem_iff, mem_byId_iff, hx]
      rfl
    exact h e ((mem_ringEntries a e).mpr ⟨id, hin, he⟩) p hp
  · intro h e he p hp
    obtain ⟨id, -, hget⟩ := (mem_ringEntries a e).mp he
    exact h id (e.span, e.bucket, e.totalNs) (by rw [located, hget]; rfl) p hp

/-- INTERNAL: the order and the entries are all there is to it. -/
theorem parentsPresent_congr (a a' : Aggregator) (horder : a'.order = a.order)
    (hbyId : a'.byId = a.byId) (h : ParentsPresent a) : ParentsPresent a' := by
  unfold ParentsPresent ringEntries at h ⊢
  rw [horder, hbyId]
  exact h

/-- INTERNAL: a span is placed next to its parent, and without an eviction the others keep
theirs.
SRCLINE: state.rs:231-298 -/
theorem parentsPresent_place (a a' : Aggregator) (w : WireSpan) (b : BucketKey) (r : Bool)
    (hlocked : Locked a) (hroom : a.order.length < a.historyBudget)
    (hres : a.resolve w = some (b, r)) (hplace : a.place w b r = some a')
    (hnew : located a w.id = none) (h : ParentsPresent a) : ParentsPresent a' := by
  obtain ⟨a₁, hmake, -, -, hloc⟩ := ringSpans_place a a' w b r hplace hnew
  obtain rfl : a₁ = a := Option.some.inj (hmake.symm.trans (makeRoom_of_room a hroom))
  obtain ⟨horder, -⟩ := place_order a₁ a' w b r hplace
  have hmem : ∀ id, id ∈ a₁.order → id ∈ a'.order := by
    intro id hid
    have hnone : a₁.order.length + 1 - a₁.historyBudget = 0 := by omega
    rw [horder, hnone, List.drop_zero]
    exact List.mem_append_left _ hid
  intro e he p hp
  obtain ⟨id, -, hget⟩ := (mem_ringEntries a' e).mp he
  have hx : located a' id = some (e.span, e.bucket, e.totalNs) := by
    rw [located, hget]
    rfl
  rw [hloc] at hx
  split at hx
  · -- the new span was placed next to its parent
    obtain ⟨hspan, -⟩ := Prod.mk.inj (Option.some.inj hx)
    subst hspan
    rcases resolve_eq_some a₁ _ b r hres with ⟨hroot, -⟩ | ⟨p', e', hp', he', -⟩
    · rw [hroot] at hp
      cases hp
    · rw [hp'] at hp
      cases hp
      apply hmem
      rw [hlocked.mem_iff]
      exact ExtTreeMap.isSome_getElem?_iff_mem.mp (by rw [he']; rfl)
  · exact hmem p ((parentsPresent_iff a₁ hlocked).mp h id _ hx p hp)

/-- INTERNAL: **while all the spans seen fit the ring, no parent goes missing**; so none is
missing after a rebuild.
SRCLINE: state.rs:213-306, 427-462 -/
theorem present_runInvariant (budget : ℕ) :
    RunInvariant DistinctIds fun seen a work => Kept budget seen a work ∧
      (seen.card ≤ budget → ParentsPresent a) := by
  have hkept := kept_runInvariant budget
  refine ⟨?_, ?_, ?_, ?_⟩
  · intro seen c c' hids h hc
    refine ⟨hkept.step seen c c' hids h.1 hc, fun hfits => ?_⟩
    rcases cascadeStep_cases _ _ hc with
      ⟨w, rest, p, -, -, -, rfl⟩ | ⟨w, rest, b, r, a', hwork, hres, hplace, rfl⟩
    · obtain ⟨-, horder, hbyId, -, -⟩ := parkPending_frame c.agg p w
      exact parentsPresent_congr c.agg _ horder hbyId (h.2 hfits)
    · obtain ⟨hagg, hpresent⟩ := h
      rw [hwork] at hagg
      obtain ⟨hnew, -⟩ := hagg.placeable _ _ _ _ _ hids
      -- the span about to be placed is not in the ring yet, so there is room for it
      have hroom : c.agg.order.length < c.agg.historyBudget := by
        have hcard := Multiset.card_le_card hagg.bag
        rw [Multiset.card_add, Multiset.card_add, Multiset.coe_card, List.length_cons, ringSpans,
          Multiset.card_map, card_ring c.agg hagg.locked] at hcard
        rw [hagg.budget_eq]
        omega
      obtain ⟨-, htaken, hbyId, -, -⟩ := takeWaiters_frame a' w.id
      apply parentsPresent_congr a' _ htaken hbyId
      exact parentsPresent_place c.agg a' w b r hagg.locked hroom hres hplace hnew (hpresent hfits)
  · intro seen a w hids h
    refine ⟨hkept.arrive seen a w hids h.1, fun hfits => h.2 ?_⟩
    rw [Multiset.card_cons] at hfits
    omega
  · intro seen a keys h
    refine ⟨hkept.clear seen a keys h.1, fun _ e he => ?_⟩
    cases he
  · intro seen seen' a b h h' hle
    refine ⟨hkept.restore seen seen' a b h.1 h'.1 hle, fun hfits => ?_⟩
    have hring : ringSpans a ≤ seen := (Multiset.le_add_right _ _).trans h.1.bag
    exact h'.2 ((Multiset.card_le_card (hle.trans hring)).trans hfits)

/-- INTERNAL: **a change of keys leaves a ring in which no parent is missing**, or changes
nothing.
SRCLINE: state.rs:147-153, 427-462 -/
theorem setSplitKeys_present (a b : Aggregator) (budget : ℕ) (seen : Multiset WireSpan)
    (hids : DistinctIds seen) (hkept : Kept budget seen a []) (keys : Finset String)
    (h : a.setSplitKeys keys = some b) : b = a ∨ ParentsPresent b := by
  unfold setSplitKeys at h
  split at h
  · exact Or.inl (Option.some.inj h).symm
  · obtain ⟨b', hrefeed, rfl⟩ := Option.map_eq_some_iff.mp h
    have hring : ringSpans a ≤ seen := (Multiset.le_add_right _ _).trans hkept.bag
    have hstart : Kept budget 0 (cleared a keys) [] ∧
        ((0 : Multiset WireSpan).card ≤ budget → ParentsPresent (cleared a keys)) := by
      refine ⟨(kept_runInvariant budget).clear seen a keys hkept, fun _ e he => ?_⟩
      cases he
    obtain ⟨seen', hle, -, hpresent⟩ := refeed_kept DistinctIds _ (present_runInvariant budget)
      DistinctIds.mono a.order a.byId (cleared a keys) b' 0 (ringSpans a)
      (DistinctIds.mono _ _ hring hids) (zero_add _).le hstart hrefeed
    refine Or.inr (hpresent ((Multiset.card_le_card hle).trans ?_))
    rw [ringSpans, Multiset.card_map, card_ring a hkept.locked]
    exact hkept.room

/-- INTERNAL: the queue grows by at most one id at a cascade step, and if by one then nothing
was evicted. -/
theorem step_length (c c' : Cascade) (h : CascadeStep c c') (n : ℕ)
    (hlen : c.agg.order.length ≤ n + c.inserted.length) :
    c'.agg.order.length ≤ n + c'.inserted.length ∧
      (c'.agg.order.length = n + c'.inserted.length →
        c.agg.order.length = n + c.inserted.length) := by
  rcases cascadeStep_cases _ _ h with
    ⟨w, rest, p, -, -, -, rfl⟩ | ⟨w, rest, b, r, a', -, -, hplace, rfl⟩
  · obtain ⟨-, horder, -, -, -⟩ := parkPending_frame c.agg p w
    dsimp only
    rw [horder]
    exact ⟨hlen, id⟩
  · obtain ⟨horder, -⟩ := place_order c.agg a' w b r hplace
    have htaken : (a'.takeWaiters w.id).2.order = a'.order := (takeWaiters_frame a' w.id).2.1
    dsimp only
    rw [htaken, horder, List.length_append, List.length_append, List.length_drop,
      List.length_singleton]
    constructor <;> omega

/-- INTERNAL: a placement that makes the queue longer had room.
SRCLINE: state.rs:259-262 -/
theorem room_of_longer (a a' : Aggregator) (w : WireSpan) (b : BucketKey) (r : Bool)
    (hplace : a.place w b r = some a') (hlonger : a.order.length < a'.order.length) :
    a.order.length < a.historyBudget := by
  obtain ⟨horder, -⟩ := place_order a a' w b r hplace
  obtain ⟨a₁, hmake, -⟩ := place_eq_some a a' w b r hplace
  have hlt := (makeRoom_shrinks a a₁ hmake).2.2.2
  obtain ⟨horder₁, hconfig₁⟩ := makeRoom_order a a₁ hmake
  have hbudget : a₁.historyBudget = a.historyBudget := congrArg (fun c => c.2.2) hconfig₁
  rw [horder, List.length_append, List.length_drop, List.length_singleton] at hlonger
  rw [horder₁, hbudget, List.length_drop] at hlt
  omega

/-- INTERNAL: a cascade step that evicts nothing.
SRCLINE: state.rs:231-306 -/
theorem grown_step (budget : ℕ) (seen : Multiset WireSpan) (a : Aggregator) (c c' : Cascade)
    (hids : DistinctIds seen) (hkept : Kept budget seen c.agg c.work)
    (h : Grown a c.inserted c.agg) (hc : CascadeStep c c')
    (hlen : c'.agg.order.length = a.order.length + c'.inserted.length) :
    Grown a c'.inserted c'.agg := by
  rcases cascadeStep_cases _ _ hc with
    ⟨w, rest, p, -, -, -, rfl⟩ | ⟨w, rest, b, r, a', hwork, hres, hplace, rfl⟩
  · obtain ⟨-, horder, hbyId, -, -⟩ := parkPending_frame c.agg p w
    refine ⟨horder.trans h.order_eq, fun id hid => ?_, ?_⟩
    · rw [← h.old id hid, located_parkPending]
    · exact parentsPresent_congr c.agg _ horder hbyId h.present
  · rw [hwork] at hkept
    obtain ⟨hnew, -⟩ := hkept.placeable _ _ _ _ _ hids
    obtain ⟨horder, -⟩ := place_order c.agg a' w b r hplace
    obtain ⟨a₁, hmake, -, -, hloc⟩ := ringSpans_place c.agg a' w b r hplace hnew
    obtain ⟨-, htaken, hbyId, -, -⟩ := takeWaiters_frame a' w.id
    -- there was room, so nothing was evicted
    dsimp only at hlen ⊢
    have hroom : c.agg.order.length < c.agg.historyBudget := by
      apply room_of_longer c.agg a' w b r hplace
      have hcount := congrArg List.length h.order_eq
      rw [List.length_append] at hcount
      rw [htaken, List.length_append, List.length_singleton] at hlen
      omega
    have hkeep : a₁ = c.agg := Option.some.inj (hmake.symm.trans (makeRoom_of_room c.agg hroom))
    subst hkeep
    have horder' : (a'.takeWaiters w.id).2.order = c.agg.order ++ [w.id] := by
      rw [htaken, horder]
      have hnone : c.agg.order.length + 1 - c.agg.historyBudget = 0 := by omega
      rw [hnone, List.drop_zero]
    have hlocated : ∀ id, located (a'.takeWaiters w.id).2 id =
        if id = w.id then some (w, b, totalOf w) else located c.agg id := by
      intro id
      rw [← hloc id, located_takeWaiters]
    have hfresh : w.id ∉ c.agg.order := by
      rw [hkept.locked.mem_iff, mem_byId_iff, hnew]
      simp
    refine ⟨?_, fun id hid => ?_, ?_⟩
    · rw [horder', h.order_eq, List.append_assoc]
    · have hin : id ∈ c.agg.order := by
        rw [h.order_eq]
        exact List.mem_append_left _ hid
      have hne : id ≠ w.id := fun heq => hfresh (heq ▸ hin)
      rw [hlocated, if_neg hne, h.old id hid]
    · apply parentsPresent_congr a' _ htaken hbyId
      exact parentsPresent_place c.agg a' w b r hkept.locked hroom hres hplace hnew h.present

/-- INTERNAL: **an arrival after which the ring has lost nothing**.
SRCLINE: state.rs:213-306 -/
theorem absorb_grown (budget : ℕ) (seen : Multiset WireSpan) (a : Aggregator) (w : WireSpan)
    (r : Aggregator × List ℕ) (hids : DistinctIds (AggregatorOp.seen (.absorb w) + seen))
    (hkept : Kept budget seen a []) (hpresent : ParentsPresent a) (h : a.absorb w = some r)
    (hgrows : r.1.order = a.order ++ r.2) : Grown a r.2 r.1 := by
  have hstart : Grown a [] a := ⟨(List.append_nil _).symm, fun _ _ => rfl, hpresent⟩
  unfold absorb at h
  split at h
  · cases h
    exact hstart
  · next hclosed =>
    have hsome : w.closedAtNs.isSome = true := by
      simpa [Option.isSome_iff_ne_none] using hclosed
    have hseen : AggregatorOp.seen (.absorb w) + seen = w ::ₘ seen := by
      simp [AggregatorOp.seen, absorbedSpans, hsome]
    rw [hseen] at hids
    have hcascade := absorbResolved_cascade _ a r.1 w [] r.2 h []
    have hkept' := (kept_runInvariant budget).arrive seen a w hids hkept
    have hfinal := cascades_invariant
      (fun c => Kept budget (w ::ₘ seen) c.agg c.work ∧
        c.agg.order.length ≤ a.order.length + c.inserted.length ∧
        (c.agg.order.length = a.order.length + c.inserted.length → Grown a c.inserted c.agg))
      (fun c c' hold hstep => by
        obtain ⟨hkept, hle, hgrown⟩ := hold
        obtain ⟨hle', hback⟩ := step_length c c' hstep a.order.length hle
        refine ⟨kept_step budget _ c c' hids hkept hstep, hle', fun hlen => ?_⟩
        exact grown_step budget _ a c c' hids hkept (hgrown (hback hlen)) hstep hlen)
      _ _ ⟨hkept', le_of_eq (Nat.add_zero _).symm, fun _ => hstart⟩ hcascade
    exact hfinal.2.2 (by rw [hgrows, List.length_append])

end TracingConsole.Analysis
