import TracingConsole.Analysis.RingGrowth
import TracingConsole.Analysis.RingWellFormed

/-!
# When the stacks of the ring are a forest

Every span is placed next to its parent, so its stack without the last name is a stack of the
ring; an eviction can take that one away and leave the longer stack behind.  A placement keeps
the forest exactly when its evictions are harmless (`stackForest_place_iff`), and a rebuild
always makes one, since it brings back no span without its parent.
-/

set_option autoImplicit false

namespace TracingConsole.Analysis

open Std (ExtTreeMap)
open TracingConsole.Library TracingConsole.Model TracingConsole.Model.Aggregator

/-- INTERNAL: **every stack of the ring has its parent in the ring**.
SRCLINE: state.rs:393-404 -/
structure StackForest (a : Aggregator) : Prop where
  nonempty : ∀ id x, located a id = some x → x.2.1.stack ≠ []
  parent : ∀ id x, located a id = some x → 1 < x.2.1.stack.length →
    ∃ k y, located a k = some y ∧ y.2.1.stack = x.2.1.stack.dropLast

/-- INTERNAL: the stacks that are left after making room for a span with the stack `stack`, and
that one.
SRCLINE: state.rs:259-262 -/
def stayingStacks (a : Aggregator) (stack : List String) : List (List String) :=
  stack :: (leftAfterRoom a).filterMap a.resolvedStack

/-- INTERNAL: the stacks of the spans evicted to make room.
SRCLINE: state.rs:259-262 -/
def evictedStacks (a : Aggregator) : List (List String) :=
  (a.order.take (a.order.length + 1 - a.historyBudget)).filterMap a.resolvedStack

/-- INTERNAL: **the evictions are harmless**: the stack of an evicted span is that of another
span, or the parent of none.
SRCLINE: state.rs:321-364 -/
def EvictionsHarmless (a : Aggregator) (stack : List String) : Prop :=
  ∀ s ∈ evictedStacks a, s ∈ stayingStacks a stack ∨ s ∉ (stayingStacks a stack).map List.dropLast

/-- INTERNAL: decidable. -/
instance (a : Aggregator) (stack : List String) : Decidable (EvictionsHarmless a stack) :=
  inferInstanceAs (Decidable (∀ s ∈ evictedStacks a, _))

/-- INTERNAL: the stack of an id is the located one. -/
theorem resolvedStack_eq (a : Aggregator) (id : ℕ) :
    a.resolvedStack id = (located a id).map fun x => x.2.1.stack := by
  unfold resolvedStack located
  rw [Option.map_map]
  rfl

/-- INTERNAL: the stacks that stay are those of the spans that do. -/
theorem mem_stayingStacks (a : Aggregator) (stack s : List String) :
    s ∈ stayingStacks a stack ↔ s = stack ∨
      ∃ id x, id ∈ leftAfterRoom a ∧ located a id = some x ∧ x.2.1.stack = s := by
  unfold stayingStacks
  rw [List.mem_cons, List.mem_filterMap]
  refine or_congr Iff.rfl ⟨?_, ?_⟩
  · rintro ⟨id, hid, hs⟩
    rw [resolvedStack_eq] at hs
    obtain ⟨x, hx, rfl⟩ := Option.map_eq_some_iff.mp hs
    exact ⟨id, x, hid, hx, rfl⟩
  · rintro ⟨id, x, hid, hx, rfl⟩
    exact ⟨id, hid, by rw [resolvedStack_eq, hx]; rfl⟩

/-- INTERNAL: the evicted stacks are those of the spans that go. -/
theorem mem_evictedStacks (a : Aggregator) (hlocked : Locked a) (s : List String) :
    s ∈ evictedStacks a ↔
      ∃ id x, id ∉ leftAfterRoom a ∧ located a id = some x ∧ x.2.1.stack = s := by
  have hsplit := List.take_append_drop (a.order.length + 1 - a.historyBudget) a.order
  have hnodup := hlocked.nodup
  rw [← hsplit, List.nodup_append] at hnodup
  unfold evictedStacks
  rw [List.mem_filterMap]
  constructor
  · rintro ⟨id, hid, hs⟩
    rw [resolvedStack_eq] at hs
    obtain ⟨x, hx, rfl⟩ := Option.map_eq_some_iff.mp hs
    exact ⟨id, x, fun hleft => hnodup.2.2 id hid id hleft rfl, hx, rfl⟩
  · rintro ⟨id, x, hid, hx, rfl⟩
    have hin : id ∈ a.order := by
      rw [hlocked.mem_iff, mem_byId_iff, hx]
      rfl
    rw [← hsplit, List.mem_append] at hin
    exact ⟨id, hin.resolve_right hid, by rw [resolvedStack_eq, hx]; rfl⟩

/-! ## One placement -/

/-- INTERNAL: the stack of a resolved span, without its name, is that of its parent.
SRCLINE: state.rs:393-404 -/
theorem resolve_stack (a : Aggregator) (w : WireSpan) (b : BucketKey) (r : Bool)
    (hres : a.resolve w = some (b, r)) : b.stack ≠ [] ∧ (1 < b.stack.length →
      ∃ k y, located a k = some y ∧ y.2.1.stack = b.stack.dropLast) := by
  rcases resolve_eq_some a w b r hres with ⟨-, rfl, -⟩ | ⟨p, e, -, he, rfl, -⟩
  · refine ⟨List.cons_ne_nil _ _, fun hdeep => ?_⟩
    exact absurd hdeep (Nat.lt_irrefl 1)
  · refine ⟨by simp [resolveWithParent], fun _ => ⟨p, (e.span, e.bucket, e.totalNs), ?_, ?_⟩⟩
    · rw [located, he]
      rfl
    · exact List.dropLast_concat.symm

/-- INTERNAL: after a placement the stacks of the ring are those that stay. -/
theorem mem_stayingStacks_place (a a' : Aggregator) (w : WireSpan) (b : BucketKey)
    (hnew : located a w.id = none)
    (hloc : ∀ id, located a' id = if id = w.id then some (w, b, totalOf w)
      else if id ∈ leftAfterRoom a then located a id else none) (s : List String) :
    s ∈ stayingStacks a b.stack ↔ ∃ id x, located a' id = some x ∧ x.2.1.stack = s := by
  rw [mem_stayingStacks]
  constructor
  · rintro (rfl | ⟨id, x, hleft, hx, rfl⟩)
    · exact ⟨w.id, (w, b, totalOf w), by rw [hloc, if_pos rfl], rfl⟩
    · have hne : id ≠ w.id := by
        rintro rfl
        rw [hnew] at hx
        cases hx
      exact ⟨id, x, by rw [hloc, if_neg hne, if_pos hleft, hx], rfl⟩
  · rintro ⟨id, x, hx, rfl⟩
    rw [hloc] at hx
    split at hx
    · cases hx
      exact Or.inl rfl
    · split at hx
      · next hleft => exact Or.inr ⟨id, x, hleft, hx, rfl⟩
      · cases hx

/-- INTERNAL: **a placement keeps the forest exactly when its evictions are harmless**.
SRCLINE: state.rs:252-298, 321-364 -/
theorem stackForest_place_iff (a a' : Aggregator) (w : WireSpan) (b : BucketKey) (r : Bool)
    (hlocked : Locked a) (hres : a.resolve w = some (b, r)) (hplace : a.place w b r = some a')
    (hnew : located a w.id = none) (h : StackForest a) :
    StackForest a' ↔ EvictionsHarmless a b.stack := by
  obtain ⟨hnonempty, hparent⟩ := resolve_stack a w b r hres
  have hmem := mem_stayingStacks_place a a' w b hnew (located_place a a' w b r hlocked hplace)
  -- the parent of a stack that stays was in the ring before
  have hbefore : ∀ s ∈ stayingStacks a b.stack, 1 < s.length →
      ∃ k y, located a k = some y ∧ y.2.1.stack = s.dropLast := by
    intro s hs hdeep
    rcases (mem_stayingStacks a b.stack s).mp hs with rfl | ⟨id, x, -, hx, rfl⟩
    · exact hparent hdeep
    · exact h.parent id x hx hdeep
  have hne : ∀ s ∈ stayingStacks a b.stack, s ≠ [] := by
    intro s hs
    rcases (mem_stayingStacks a b.stack s).mp hs with rfl | ⟨id, x, -, hx, rfl⟩
    · exact hnonempty
    · exact h.nonempty id x hx
  constructor
  · intro hforest s hs
    obtain ⟨id, x, -, hx, rfl⟩ := (mem_evictedStacks a hlocked s).mp hs
    by_contra hharm
    push Not at hharm
    obtain ⟨hgone, hchild⟩ := hharm
    obtain ⟨t, ht, hdrop⟩ := List.mem_map.mp hchild
    obtain ⟨k, y, hy, rfl⟩ := (hmem t).mp ht
    have hlong : 1 < y.2.1.stack.length := by
      have hpos := List.length_pos_iff.mpr (h.nonempty id x hx)
      rw [← hdrop, List.length_dropLast] at hpos
      omega
    obtain ⟨k', y', hy', heq⟩ := hforest.parent k y hy hlong
    exact hgone ((hmem _).mpr ⟨k', y', hy', heq.trans hdrop⟩)
  · intro hharmless
    refine ⟨fun id x hx => hne _ ((hmem _).mpr ⟨id, x, hx, rfl⟩), fun id x hx hdeep => ?_⟩
    have hstay : x.2.1.stack ∈ stayingStacks a b.stack := (hmem _).mpr ⟨id, x, hx, rfl⟩
    obtain ⟨k, y, hy, heq⟩ := hbefore _ hstay hdeep
    by_cases hleft : k ∈ leftAfterRoom a
    · obtain ⟨k', y', hy', heq'⟩ := (hmem _).mp
        ((mem_stayingStacks a b.stack _).mpr (Or.inr ⟨k, y, hleft, hy, rfl⟩))
      exact ⟨k', y', hy', heq'.trans heq⟩
    · -- the parent is evicted, so another span has its stack
      have hevicted : y.2.1.stack ∈ evictedStacks a :=
        (mem_evictedStacks a hlocked _).mpr ⟨k, y, hleft, hy, rfl⟩
      rcases hharmless _ hevicted with hstill | hnone
      · obtain ⟨k', y', hy', heq'⟩ := (hmem _).mp hstill
        exact ⟨k', y', hy', heq'.trans heq⟩
      · refine absurd (List.mem_map.mpr ⟨_, hstay, ?_⟩) hnone
        exact heq.symm

/-! ## Whole runs -/

/-- INTERNAL: what is located is all there is to it. -/
theorem stackForest_congr (a a' : Aggregator) (hlocated : ∀ id, located a' id = located a id)
    (h : StackForest a) : StackForest a' := by
  refine ⟨fun id x hx => ?_, fun id x hx hdeep => ?_⟩
  · rw [hlocated] at hx
    exact h.nonempty id x hx
  · rw [hlocated] at hx
    obtain ⟨k, y, hy, heq⟩ := h.parent id x hx hdeep
    exact ⟨k, y, by rw [hlocated]; exact hy, heq⟩

/-- INTERNAL: where no parent is missing the stacks are a forest. -/
theorem stackForest_of_present (a : Aggregator) (hlocked : Locked a) (hlinked : Linked a)
    (h : ParentsPresent a) : StackForest a := by
  rw [parentsPresent_iff a hlocked] at h
  have hstack : ∀ id x, located a id = some x → x.2.1.stack = [x.1.name] ∨
      ∃ p y, located a p = some y ∧ x.2.1.stack = y.2.1.stack ++ [x.1.name] := by
    intro id x hx
    cases hp : x.1.parentId with
    | none => exact Or.inl (hlinked.root_stack id x hx hp)
    | some p =>
      have hin := h id x hx p hp
      rw [hlocked.mem_iff, mem_byId_iff] at hin
      obtain ⟨y, hy⟩ := Option.isSome_iff_exists.mp hin
      exact Or.inr ⟨p, y, hy, hlinked.child_stack id x p y hx hp hy⟩
  refine ⟨fun id x hx => ?_, fun id x hx hdeep => ?_⟩
  · rcases hstack id x hx with heq | ⟨p, y, -, heq⟩ <;> rw [heq] <;> simp
  · rcases hstack id x hx with heq | ⟨p, y, hy, heq⟩
    · rw [heq] at hdeep
      exact absurd hdeep (Nat.lt_irrefl 1)
    · exact ⟨p, y, hy, by rw [heq, List.dropLast_concat]⟩

/-- INTERNAL: every eviction made while `w` and the spans it releases are placed is harmless.
SRCLINE: state.rs:213-306 -/
def HarmlessArrival (a : Aggregator) (w : WireSpan) : Prop :=
  w.closedAtNs.isSome = true → ∀ c, Cascades ⟨a, [w], []⟩ c →
    ∀ v rest b r, c.work = v :: rest → c.agg.resolve v = some (b, r) →
      EvictionsHarmless c.agg b.stack

/-- INTERNAL: a cascade step whose evictions are harmless keeps the forest.
SRCLINE: state.rs:231-306 -/
theorem stackForest_step (budget : ℕ) (seen : Multiset WireSpan) (c c' : Cascade)
    (hids : DistinctIds seen) (hkept : Kept budget seen c.agg c.work) (h : StackForest c.agg)
    (hharmless : ∀ v rest b r, c.work = v :: rest → c.agg.resolve v = some (b, r) →
      EvictionsHarmless c.agg b.stack) (hc : CascadeStep c c') : StackForest c'.agg := by
  rcases cascadeStep_cases _ _ hc with
    ⟨w, rest, p, -, -, -, rfl⟩ | ⟨w, rest, b, r, a', hwork, hres, hplace, rfl⟩
  · exact stackForest_congr c.agg _ (fun id => located_parkPending c.agg p id w) h
  · rw [hwork] at hkept
    obtain ⟨hnew, -⟩ := hkept.placeable _ _ _ _ _ hids
    have hplaced := (stackForest_place_iff c.agg a' w b r hkept.locked hres hplace hnew h).mpr
      (hharmless w rest b r hwork hres)
    exact stackForest_congr a' _ (fun id => located_takeWaiters a' w.id id) hplaced

/-- INTERNAL: **an arrival whose evictions are harmless keeps the forest**.
SRCLINE: state.rs:213-306 -/
theorem stackForest_absorb (budget : ℕ) (seen : Multiset WireSpan) (a : Aggregator)
    (w : WireSpan) (r : Aggregator × List ℕ)
    (hids : DistinctIds (AggregatorOp.seen (.absorb w) + seen)) (hkept : Kept budget seen a [])
    (h : StackForest a) (hharmless : HarmlessArrival a w) (habsorb : a.absorb w = some r) :
    StackForest r.1 := by
  unfold absorb at habsorb
  split at habsorb
  · cases habsorb
    exact h
  · next hopen =>
    have hclosed : w.closedAtNs.isSome = true := by
      simpa [Option.isSome_iff_ne_none] using hopen
    have hseen : AggregatorOp.seen (.absorb w) + seen = w ::ₘ seen := by
      simp [AggregatorOp.seen, absorbedSpans, hclosed]
    rw [hseen] at hids
    have hcascade := absorbResolved_cascade _ a r.1 w [] r.2 habsorb []
    have hstart := (kept_runInvariant budget).arrive seen a w hids hkept
    have hforest : ∀ c, Cascades ⟨a, [w], []⟩ c →
        Kept budget (w ::ₘ seen) c.agg c.work ∧ StackForest c.agg := by
      intro c hc
      induction hc with
      | refl => exact ⟨hstart, h⟩
      | tail hreach hlast ih =>
        exact ⟨kept_step budget _ _ _ hids ih.1 hlast,
          stackForest_step budget _ _ _ hids ih.1 ih.2 (hharmless hclosed _ hreach) hlast⟩
    exact (hforest _ hcascade).2

/-- INTERNAL: the evictions of an operation are harmless; a change of keys makes none. -/
def HarmlessOp (a : Aggregator) : AggregatorOp → Prop
  | .absorb w => HarmlessArrival a w
  | .setSplitKeys _ => True

/-- INTERNAL: **in every run whose evictions are harmless the stacks are a forest**.
SRCLINE: state.rs:147-153, 213-364, 427-462 -/
theorem stackForest_run (budget : ℕ) (ops : List AggregatorOp) (seen : Multiset WireSpan)
    (a a' : Aggregator) (hids : DistinctIds (seen + absorbedSpans ops))
    (hstate : (Kept budget seen a [] ∧ Tallied False a) ∧ Linked a) (h : StackForest a)
    (hharmless : RunsUnder AggregatorOp.perform HarmlessOp a ops)
    (hrun : run AggregatorOp.perform a ops = some a') : StackForest a' := by
  induction ops generalizing seen a with
  | nil =>
    cases hrun
    exact h
  | cons op ops ih =>
    rw [run_cons, Option.bind_eq_some_iff] at hrun
    obtain ⟨a₁, h₁, hrun⟩ := hrun
    rw [seen_cons] at hids
    have hids₁ := DistinctIds.mono _ _ (Multiset.le_add_right _ _) hids
    have hstate₁ := perform_kept DistinctIds _ (linked_runInvariant budget) DistinctIds.mono
      (fun _ _ h => (Multiset.le_add_right _ _).trans h.1.1.bag) seen a a₁ op hids₁ hstate h₁
    refine ih (AggregatorOp.seen op + seen) a₁ hids hstate₁ ?_ (hharmless.2 a₁ h₁) hrun
    cases op with
    | absorb w =>
      obtain ⟨r, hr, rfl⟩ := Option.map_eq_some_iff.mp h₁
      exact stackForest_absorb budget seen a w r hids₁ hstate.1.1 h hharmless.1 hr
    | setSplitKeys keys =>
      have hold : DistinctIds seen := DistinctIds.mono _ _ (Multiset.le_add_left _ _) hids₁
      rcases setSplitKeys_present a a₁ budget seen hold hstate.1.1 keys h₁ with rfl | hpresent
      · exact h
      · exact stackForest_of_present a₁ hstate₁.1.1.locked hstate₁.2 hpresent

/-- INTERNAL: the aggregator starts without stacks. -/
theorem stackForest_new (budget : ℕ) : StackForest (Aggregator.new budget) := by
  refine ⟨fun id x hx => ?_, fun id x hx => ?_⟩
  · simp [located, Aggregator.new] at hx
  · simp [located, Aggregator.new] at hx

end TracingConsole.Analysis
