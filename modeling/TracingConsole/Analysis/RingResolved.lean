import TracingConsole.Analysis.PendingPool
import TracingConsole.Analysis.SplitRebuild

/-!
# What an entry is resolved to

The bucket of an entry is the one its parent's bucket and the current split keys give, as long
as the parent is in the ring, and its self time is its total less the totals of its children,
summed in a word.  Since a parent leaves the ring before its children, no total is ever given
back: the running sum of an entry is that of its children also where it wraps.
-/

set_option autoImplicit false

namespace TracingConsole.Analysis

open Std (ExtTreeMap)
open TracingConsole.Library TracingConsole.Model TracingConsole.Model.Aggregator

/-! ## Links under eviction -/

/-- INTERNAL: a part of a ring hangs together as the ring does. -/
theorem linked_sub (a a' : Aggregator) (horder : a'.order.Sublist a.order)
    (hlocated : ∀ id x, located a' id = some x → located a id = some x) (h : Linked a) :
    Linked a' :=
  { root_stack := fun id x hx hroot => h.root_stack id x (hlocated id x hx) hroot
    child_stack := fun id x p y hx hp hy =>
      h.child_stack id x p y (hlocated id x hx) hp (hlocated p y hy)
    parents_first := (h.parents_first.sublist horder).imp fun hij x hx =>
      hij x (hlocated _ x hx)
    no_loop := fun id x hx => h.no_loop id x (hlocated id x hx) }

/-- INTERNAL: what is located after an eviction was located before. -/
theorem located_of_evictOldest (a : Aggregator) (id : ℕ) (x : WireSpan × BucketKey × ℕ)
    (hx : located a.evictOldest id = some x) : located a id = some x := by
  cases horder : a.order with
  | nil =>
    have hsame : a.evictOldest = a := by simp [evictOldest, horder]
    rwa [hsame] at hx
  | cons k rest =>
    rw [located_evictOldest a k rest id horder] at hx
    split at hx
    · cases hx
    · exact hx

/-- INTERNAL: SRCLINE: state.rs:321-364 -/
theorem linked_evictOldest (a : Aggregator) (h : Linked a) : Linked a.evictOldest := by
  apply linked_sub a a.evictOldest _ (located_of_evictOldest a) h
  rw [evictOldest_order]
  exact List.tail_sublist a.order

/-! ## Buckets -/

/-- INTERNAL: **the bucket of an entry is what the current keys make of its span and of its
parent's bucket**, if the parent is in the ring.
SRCLINE: state.rs:393-404 -/
structure Resolved (a : Aggregator) : Prop where
  root : ∀ id x, located a id = some x → x.1.parentId = none → x.2.1 = a.resolveRoot x.1
  child : ∀ id x p y, located a id = some x → x.1.parentId = some p → located a p = some y →
    x.2.1 = ⟨y.2.1.stack ++ [x.1.name], collectSplits x.1 (some y.2.1.splits) a.splitKeys⟩

/-- INTERNAL: what is located is all there is to it. -/
theorem resolved_congr (a a' : Aggregator) (hkeys : a'.splitKeys = a.splitKeys)
    (hlocated : ∀ id, located a' id = located a id) (h : Resolved a) : Resolved a' := by
  refine ⟨fun id x hx hroot => ?_, fun id x p y hx hp hy => ?_⟩
  · rw [hlocated] at hx
    rw [resolveRoot, hkeys]
    exact h.root id x hx hroot
  · rw [hlocated] at hx hy
    rw [hkeys]
    exact h.child id x p y hx hp hy

/-- INTERNAL: a placement resolves the new span and leaves the others.
SRCLINE: state.rs:231-298 -/
theorem resolved_place (a a' : Aggregator) (w : WireSpan) (b : BucketKey) (r : Bool)
    (h : Resolved a) (hres : a.resolve w = some (b, r)) (hplace : a.place w b r = some a')
    (hnew : located a w.id = none) (hchildless : ∀ v ∈ ringSpans a, v.parentId ≠ some w.id)
    (hself : w.parentId ≠ some w.id) : Resolved a' := by
  obtain ⟨-, hconfig⟩ := place_order a a' w b r hplace
  have hkeys : a'.splitKeys = a.splitKeys := congrArg (fun c => c.2.1) hconfig
  have hcases := located_place_cases a a' w b r hplace hnew
  refine ⟨fun id x hx hroot => ?_, fun id x p y hx hp hy => ?_⟩
  · rw [resolveRoot, hkeys]
    rcases hcases id x hx with ⟨-, rfl⟩ | ⟨-, hx⟩
    · rcases resolve_eq_some a w b r hres with ⟨-, hb, -⟩ | ⟨p, e, hp, -⟩
      · exact hb
      · rw [hroot] at hp
        cases hp
    · exact h.root id x hx hroot
  · rw [hkeys]
    rcases hcases id x hx with ⟨-, rfl⟩ | ⟨-, hx⟩
    · rcases hcases p y hy with ⟨rfl, -⟩ | ⟨-, hy⟩
      · exact absurd hp hself
      · rcases resolve_eq_some a w b r hres with ⟨hroot, -⟩ | ⟨p', e, hp', he, hb, -⟩
        · rw [hroot] at hp
          cases hp
        · rw [hp] at hp'
          cases hp'
          rw [located, he] at hy
          cases hy
          exact hb
    · rcases hcases p y hy with ⟨rfl, -⟩ | ⟨-, hy⟩
      · obtain ⟨e, he, rfl⟩ := Option.map_eq_some_iff.mp hx
        exact absurd hp (hchildless e.span ((mem_ringSpans a e.span).mpr ⟨id, e, he, rfl⟩))
      · exact h.child id x p y hx hp hy

/-! ## Self times -/

/-- INTERNAL: **the running sum of an entry is that of its children in the ring**, in a word,
and its self time is what that leaves.
SRCLINE: state.rs:103-108 -/
structure Wrapped (a : Aggregator) : Prop where
  self_eq : ∀ (id : ℕ) e, a.byId[id]? = some e → e.selfNs = e.totalNs - a.childSumFor id
  sum_eq : ∀ (id : ℕ) e, a.byId[id]? = some e →
    a.childSumFor id = childTotal (ringSpans a) id % 2 ^ 64
  no_sum : ∀ id : ℕ, a.byId[id]? = none → a.childSum[id]? = none

/-- INTERNAL: the entries and the child sums are all there is to it. -/
theorem wrapped_congr (a a' : Aggregator) (hbyId : a'.byId = a.byId)
    (hsum : a'.childSum = a.childSum) (h : Wrapped a) : Wrapped a' := by
  have hspans : ringSpans a' = ringSpans a :=
    congrArg (fun t => (values t).map Entry.span) hbyId
  refine ⟨?_, ?_, ?_⟩
  · simp only [hbyId, childSumFor, hsum]
    exact h.self_eq
  · simp only [hbyId, childSumFor, hsum, hspans]
    exact h.sum_eq
  · simp only [hbyId, hsum]
    exact h.no_sum

/-- INTERNAL: a leaving span has no parent in the ring to give its total back to.
SRCLINE: state.rs:353-363 -/
theorem evictOldest_frame (a : Aggregator) (id : ℕ) (rest : List ℕ) (e : Entry)
    (horder : a.order = id :: rest) (he : a.byId[id]? = some e) (hlocked : Locked a)
    (hlinked : Linked a) :
    a.evictOldest.byId = a.byId.erase id ∧ a.evictOldest.childSum = a.childSum.erase id := by
  obtain ⟨c, hstages, hbyId, hsums, -⟩ := evictOldest_stages a id rest e horder he
  have hx : located a id = some (e.span, e.bucket, e.totalNs) := by
    rw [located, he]
    rfl
  have hdrop : (c.dropContribution e).byId = a.byId.erase id :=
    (dropContribution_frame c e).2.2.2.1.trans hbyId
  have hkeep : (c.dropContribution e).returnToParent e = c.dropContribution e := by
    unfold returnToParent
    split
    · rfl
    · next p hp =>
      rw [if_neg]
      intro hin
      have hmem : p ∈ a.byId.erase id := by
        rw [← hdrop]
        exact hin
      have hin' : p ∈ a.order := (hlocked.mem_iff p).mpr (ExtTreeMap.mem_of_mem_erase hmem)
      have hbefore := hlinked.parent_before [] rest id horder _ hx p hp hin'
      cases hbefore
  rw [hstages, hkeep]
  exact ⟨hdrop, (dropContribution_frame c e).2.2.2.2.trans hsums⟩

/-- INTERNAL: SRCLINE: state.rs:321-364 -/
theorem wrapped_evictOldest (a : Aggregator) (hlocked : Locked a) (hlinked : Linked a)
    (h : Wrapped a) : Wrapped a.evictOldest := by
  by_cases hnone : ∀ id rest, a.order = id :: rest → a.byId[id]? = none
  · rw [evictOldest_of_none a hnone]
    exact wrapped_congr a _ rfl rfl h
  · push Not at hnone
    obtain ⟨id, rest, horder, hsome⟩ := hnone
    obtain ⟨e, he⟩ := Option.ne_none_iff_exists'.mp hsome
    obtain ⟨hbyId, hsums⟩ := evictOldest_frame a id rest e horder he hlocked hlinked
    have hx : located a id = some (e.span, e.bucket, e.totalNs) := by
      rw [located, he]
      rfl
    have hring : ringSpans a = e.span ::ₘ ringSpans a.evictOldest := by
      unfold ringSpans ring
      rw [hbyId, values_eq_cons_erase a.byId id e he, Multiset.map_cons]
    have hstay : ∀ (k : ℕ) e', a.evictOldest.byId[k]? = some e' →
        a.byId[k]? = some e' ∧ k ≠ id ∧ a.evictOldest.childSumFor k = a.childSumFor k := by
      intro k e' he'
      rw [hbyId, getElem?_erase_eq] at he'
      by_cases hk : k = id
      · rw [if_pos hk] at he'
        cases he'
      · rw [if_neg hk] at he'
        refine ⟨he', hk, ?_⟩
        rw [childSumFor, childSumFor, hsums, ExtTreeMap.getD_eq_getD_getElem?,
          ExtTreeMap.getD_eq_getD_getElem?, getElem?_erase_eq, if_neg hk]
    refine ⟨fun k e' he' => ?_, fun k e' he' => ?_, fun k hk => ?_⟩
    · obtain ⟨hold, -, hsum⟩ := hstay k e' he'
      rw [hsum]
      exact h.self_eq k e' hold
    · obtain ⟨hold, hne, hsum⟩ := hstay k e' he'
      -- the leaving span is no child of one that stays
      have hother : e.span.parentId ≠ some k := by
        intro hp
        have hin : k ∈ a.order := by
          rw [hlocked.mem_iff]
          exact ExtTreeMap.isSome_getElem?_iff_mem.mp (by rw [hold]; rfl)
        have hbefore := hlinked.parent_before [] rest id horder _ hx k hp hin
        cases hbefore
      have hsame := h.sum_eq k e' hold
      rw [hring, childTotal_cons, if_neg hother, Nat.zero_add] at hsame
      rw [hsum, hsame]
    · rw [hbyId, getElem?_erase_eq] at hk
      rw [hsums, getElem?_erase_eq]
      by_cases hkid : k = id
      · rw [if_pos hkid]
      · rw [if_neg hkid] at hk ⊢
        exact h.no_sum k hk

/-- INTERNAL: what charging the parent makes of the running sums and of the entries.
SRCLINE: state.rs:264-279 -/
theorem chargeParent_reads (a : Aggregator) (w : WireSpan) (r : Bool)
    (hr : ∀ p, w.parentId = some p → r = true) (id : ℕ) :
    (∀ e', (a.chargeParent r w).byId[id]? = some e' → ∃ e, a.byId[id]? = some e ∧
      e'.totalNs = e.totalNs ∧
      (a.chargeParent r w).childSumFor id =
        (if w.parentId = some id then (a.childSumFor id + totalOf w) % 2 ^ 64
          else a.childSumFor id) ∧
      e'.selfNs = if w.parentId = some id then
        e.totalNs - (a.childSumFor id + totalOf w) % 2 ^ 64 else e.selfNs) ∧
    ((a.chargeParent r w).byId[id]? = none → (a.chargeParent r w).childSum[id]? =
      a.childSum[id]?) := by
  unfold chargeParent
  split
  · next hp =>
    rw [hp]
    refine ⟨fun e' he' => ⟨e', he', rfl, ?_, ?_⟩, fun _ => rfl⟩
    · rw [if_neg (Option.some_ne_none id).symm]
    · rw [if_neg (Option.some_ne_none id).symm]
  · next p hp =>
    simp only [hr p hp, Bool.true_and]
    split
    · next hin =>
      set newSum := (a.childSum.getD p 0 + totalOf w) % 2 ^ 64 with hnew
      set b : Aggregator := { a with childSum := a.childSum.insert p newSum } with hb
      have hsums : (b.bumpParentSelf p newSum).childSum = a.childSum.insert p newSum :=
        (bumpParentSelf_frame b p newSum).2.2.2
      refine ⟨fun e' he' => ?_, fun hnone => ?_⟩
      · obtain ⟨e, he, heq⟩ := entry_bumpParentSelf b p newSum id e' he'
        refine ⟨e, he, ?_, ?_, ?_⟩
        · rw [heq]
          split <;> rfl
        · rw [childSumFor, hsums, ExtTreeMap.getD_eq_getD_getElem?, getElem?_insert_eq, hp]
          by_cases hid : id = p
          · rw [if_pos hid, if_pos (congrArg some hid.symm), Option.getD_some, hid]
            rfl
          · rw [if_neg hid, if_neg (fun h => hid (Option.some.inj h).symm),
              ← ExtTreeMap.getD_eq_getD_getElem?]
            rfl
        · rw [heq, hp]
          by_cases hid : id = p
          · rw [if_pos hid, if_pos (congrArg some hid.symm), hid]
            rfl
          · rw [if_neg hid, if_neg (fun h => hid (Option.some.inj h).symm)]
      · have hne : id ≠ p := by
          intro hid
          subst hid
          rw [bumpParentSelf_byId, Option.map_eq_none_iff] at hnone
          have hsome := ExtTreeMap.isSome_getElem?_iff_mem.mpr hin
          change a.byId[id]? = none at hnone
          rw [hnone] at hsome
          cases hsome
        rw [hsums, getElem?_insert_eq, if_neg hne]
    · next hout =>
      refine ⟨fun e' he' => ?_, fun _ => rfl⟩
      have hne : w.parentId ≠ some id := by
        intro hid
        rw [hp] at hid
        cases hid
        exact hout (ExtTreeMap.isSome_getElem?_iff_mem.mp (by rw [he']; rfl))
      exact ⟨e', he', rfl, by rw [if_neg hne], by rw [if_neg hne]⟩

/-- INTERNAL: SRCLINE: state.rs:252-298 -/
theorem wrapped_place (a a' : Aggregator) (w : WireSpan) (b : BucketKey) (r : Bool)
    (hlocked : Locked a) (hlinked : Linked a) (h : Wrapped a)
    (hres : a.resolve w = some (b, r)) (hplace : a.place w b r = some a')
    (hnew : located a w.id = none) (hchildless : ∀ v ∈ ringSpans a, v.parentId ≠ some w.id)
    (hself : w.parentId ≠ some w.id) : Wrapped a' := by
  obtain ⟨a₁, hroom, hspans, -, -⟩ := ringSpans_place a a' w b r hplace hnew
  obtain ⟨a₁', hroom', rfl⟩ := place_eq_some a a' w b r hplace
  obtain rfl : a₁ = a₁' := Option.some.inj (hroom.symm.trans hroom')
  obtain ⟨⟨-, -, h₁⟩, -⟩ := makeRoomWithin_invariant
    (fun x => Locked x ∧ Linked x ∧ Wrapped x)
    (fun x hx => ⟨locked_evictOldest x hx.1, linked_evictOldest x hx.2.1,
      wrapped_evictOldest x hx.1 hx.2.1 hx.2.2⟩) _ a a₁ ⟨hlocked, hlinked, h⟩ hroom
  obtain ⟨hless, -, -, -⟩ := makeRoom_shrinks a a₁ hroom
  have hr : ∀ p, w.parentId = some p → r = true := by
    intro p hp
    rcases resolve_eq_some a w b r hres with ⟨hroot, -⟩ | ⟨-, -, -, -, -, hr⟩
    · rw [hroot] at hp
      cases hp
    · exact hr
  have hnone := charged_none a a₁ w r w.id hroom hnew
  have hnone₁ : ∀ id : ℕ, (a₁.chargeParent r w).byId[id]? = none → a₁.byId[id]? = none := by
    intro id hid
    rw [← located_eq_none, located_chargeParent] at hid
    exact (located_eq_none a₁ id).mp hid
  -- nothing has been summed for the new span
  have hsum : ((a₁.chargeParent r w).insertEntry (a.entryOf w b)).childSumFor w.id = 0 := by
    have hread := (chargeParent_reads a₁ w r hr w.id).2 hnone
    rw [h₁.no_sum w.id (hnone₁ w.id hnone)] at hread
    rw [childSumFor, (insertEntry_frame _ _).2.2.2, ExtTreeMap.getD_eq_getD_getElem?, hread]
    rfl
  have hcases : ∀ (id : ℕ) e', ((a₁.chargeParent r w).insertEntry (a.entryOf w b)).byId[id]? =
      some e' → (id = w.id ∧ e' = a.entryOf w b) ∨ (a₁.chargeParent r w).byId[id]? = some e' :=
    fun id e' he' => entry_insertEntry _ _ e' id he'
  refine ⟨fun id e' he' => ?_, fun id e' he' => ?_, fun id hid => ?_⟩
  · rcases hcases id e' he' with ⟨rfl, rfl⟩ | hold
    · have hearly : a.childSum.getD w.id 0 = 0 := by
        rw [ExtTreeMap.getD_eq_getD_getElem?,
          h.no_sum w.id ((located_eq_none a w.id).mp hnew)]
        rfl
      rw [hsum]
      change totalOf w - a.childSum.getD w.id 0 = totalOf w - 0
      rw [hearly]
    · obtain ⟨e, he, htotal, hcharged, hselfNs⟩ := (chargeParent_reads a₁ w r hr id).1 e' hold
      have hkept := h₁.self_eq id e he
      change e'.selfNs = e'.totalNs - (a₁.chargeParent r w).childSumFor id
      rw [hselfNs, hcharged, htotal]
      split
      · rfl
      · exact hkept
  · rw [hspans, childTotal_cons]
    rcases hcases id e' he' with ⟨rfl, rfl⟩ | hold
    · have hzero := childTotal_eq_zero (ringSpans a₁) w.id fun v hv =>
        hchildless v (Multiset.mem_of_le hless hv)
      rw [hsum, hzero, if_neg hself, Nat.zero_mod]
    · obtain ⟨e, he, -, hcharged, -⟩ := (chargeParent_reads a₁ w r hr id).1 e' hold
      have hkept := h₁.sum_eq id e he
      change (a₁.chargeParent r w).childSumFor id = _
      rw [hcharged]
      split
      · omega
      · rw [Nat.zero_add, hkept]
  · unfold insertEntry at hid ⊢
    dsimp only at hid ⊢
    rw [getElem?_insert_eq] at hid
    split at hid
    · cases hid
    · rw [(chargeParent_reads a₁ w r hr id).2 hid]
      exact h₁.no_sum id (hnone₁ id hid)

/-! ## Over runs -/

/-- INTERNAL: **what is derived from the spans of the ring and the keys alone**, with the pool
beside it.
SRCLINE: state.rs:95-122 -/
structure Settled (budget : ℕ) (a : Aggregator) : Prop where
  budget_eq : a.historyBudget = budget
  resolved : Resolved a
  wrapped : Wrapped a
  pooled : Pooled a

/-- INTERNAL: a cascade step keeps what is derived.
SRCLINE: state.rs:231-306 -/
theorem settled_step (budget : ℕ) (seen : Multiset WireSpan) (c c' : Cascade)
    (hids : DistinctIds seen) (hkept : Kept budget seen c.agg c.work) (hlinked : Linked c.agg)
    (h : Settled budget c.agg) (hc : CascadeStep c c') : Settled budget c'.agg := by
  have hbudget := (kept_step budget seen c c' hids hkept hc).budget_eq
  have hpooled := pooled_step c c' h.pooled hc
  rcases cascadeStep_cases _ _ hc with
    ⟨w, rest, p, -, -, -, rfl⟩ | ⟨w, rest, b, r, a', hwork, hres, hplace, rfl⟩
  · obtain ⟨hconfig, -, hbyId, hsums, -⟩ := parkPending_frame c.agg p w
    refine ⟨hbudget, ?_, wrapped_congr c.agg _ hbyId hsums h.wrapped, hpooled⟩
    exact resolved_congr c.agg _ (congrArg (fun c => c.2.1) hconfig)
      (fun id => located_parkPending c.agg p id w) h.resolved
  · rw [hwork] at hkept
    obtain ⟨hnew, hchildless⟩ := hkept.placeable _ _ _ _ _ hids
    have hself : w.parentId ≠ some w.id := fun hself =>
      (hkept.parent_past _ _ _ _ _ hids b r hres w.id hself).1 rfl
    obtain ⟨hconfig, -, hbyId, hsums, -⟩ := takeWaiters_frame a' w.id
    refine ⟨hbudget, ?_, ?_, hpooled⟩
    · have hkeys : (a'.takeWaiters w.id).2.splitKeys = a'.splitKeys :=
        congrArg (fun c => c.2.1) hconfig
      apply resolved_congr a' _ hkeys fun id => located_takeWaiters a' w.id id
      exact resolved_place c.agg a' w b r h.resolved hres hplace hnew hchildless hself
    · apply wrapped_congr a' _ hbyId hsums
      exact wrapped_place c.agg a' w b r hkept.locked hlinked h.wrapped hres hplace hnew
        hchildless hself

/-- INTERNAL: an empty ring is settled. -/
theorem settled_empty (budget : ℕ) (a : Aggregator) (hbudget : a.historyBudget = budget)
    (hbyId : a.byId = ∅) (hsums : a.childSum = ∅) (hpooled : Pooled a) : Settled budget a := by
  refine ⟨hbudget, ⟨fun id x hx => ?_, fun id x p y hx => ?_⟩,
    ⟨fun id e he => ?_, fun id e he => ?_, fun id _ => ?_⟩, hpooled⟩
  · simp [located, hbyId] at hx
  · simp [located, hbyId] at hx
  · simp [hbyId] at he
  · simp [hbyId] at he
  · simp [hsums]

/-- INTERNAL: **in every run the entries are what their spans and the keys make them**.
SRCLINE: state.rs:147-153, 213-306, 427-462 -/
theorem settled_runInvariant (budget : ℕ) :
    RunInvariant DistinctIds fun seen a work =>
      ((Kept budget seen a work ∧ Tallied False a) ∧ Linked a) ∧ Settled budget a := by
  apply (linked_runInvariant budget).and
  · intro seen c c' hids hold _ h hc
    exact settled_step budget seen c c' hids hold.1.1 hold.2 h hc
  · intro seen a w _ h
    exact h
  · intro seen a keys h
    exact settled_empty budget _ h.budget_eq rfl rfl (pooled_cleared a keys h.pooled)
  · intro seen seen' a b h h' _
    refine ⟨h'.budget_eq, ?_, wrapped_congr b _ rfl rfl h'.wrapped, ?_⟩
    · exact resolved_congr b _ rfl (fun _ => rfl) h'.resolved
    · exact pooled_restored a b h.pooled h'.pooled (h'.budget_eq.trans h.budget_eq.symm)

/-- INTERNAL: so is a new aggregator. -/
theorem settled_new (budget : ℕ) : Settled budget (Aggregator.new budget) :=
  settled_empty budget _ rfl rfl rfl (pooled_new budget)

end TracingConsole.Analysis
