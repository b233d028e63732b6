import TracingConsole.Analysis.PendingPool
import TracingConsole.Analysis.RingWellFormed

/-!
# The bounds of ring and pool

With a positive budget an absorption returns, and leaves at most that many spans in the ring and
a quarter of it in the pool, whatever ids the spans have.  With the budget 0 the loop that makes
room has nothing to wait for (`makeRoom_never`): the first closed root is never absorbed.
-/

set_option autoImplicit false

namespace TracingConsole.Analysis

open Std (ExtTreeMap)
open TracingConsole.Library TracingConsole.Model TracingConsole.Model.Aggregator

/-- INTERNAL: **ring and pool are within their bounds**, and the pool's counter is right.
SRCLINE: state.rs:95-137 -/
structure WithinBounds (budget : ℕ) (a : Aggregator) : Prop where
  ring_le : a.order.length ≤ budget
  pending_eq : a.pendingLen = a.parkedCount
  pending_le : a.pendingLen ≤ max (budget / 4) 1

/-! ## A positive budget -/

/-- INTERNAL: a cascade step stays within the budget.
SRCLINE: state.rs:252-298 -/
theorem step_within (budget : ℕ) (hpos : 1 ≤ budget) (c c' : Cascade)
    (hbudget : c.agg.historyBudget = budget) (hlen : c.agg.order.length ≤ budget)
    (hc : CascadeStep c c') :
    c'.agg.historyBudget = budget ∧ c'.agg.order.length ≤ budget := by
  rcases cascadeStep_cases _ _ hc with
    ⟨w, rest, p, -, -, -, rfl⟩ | ⟨w, rest, b, r, a', -, -, hplace, rfl⟩
  · obtain ⟨hconfig, horder, -, -, -⟩ := parkPending_frame c.agg p w
    refine ⟨(congrArg (fun c => c.2.2) hconfig).trans hbudget, ?_⟩
    dsimp only
    rwa [horder]
  · obtain ⟨horder, hconfig⟩ := place_order c.agg a' w b r hplace
    obtain ⟨htaken, hsame, -, -, -⟩ := takeWaiters_frame a' w.id
    refine ⟨?_, ?_⟩
    · exact (congrArg (fun c => c.2.2) (htaken.trans hconfig)).trans hbudget
    · dsimp only
      rw [hsame, horder, List.length_append, List.length_drop, List.length_singleton, hbudget]
      omega

/-- INTERNAL: the state between two absorptions. -/
structure Bounded (budget : ℕ) (a : Aggregator) : Prop where
  budget_eq : a.historyBudget = budget
  ring_le : a.order.length ≤ budget
  pooled : Pooled a

/-- INTERNAL: the aggregator starts within its bounds. -/
theorem bounded_new (budget : ℕ) : Bounded budget (Aggregator.new budget) :=
  ⟨rfl, Nat.zero_le _, pooled_new budget⟩

/-- INTERNAL: what is bounded is within its bounds. -/
theorem Bounded.within {budget : ℕ} {a : Aggregator} (h : Bounded budget a) :
    WithinBounds budget a := by
  refine ⟨h.ring_le, ?_, ?_⟩
  · rw [← card_parked]
    exact h.pooled.counted
  · rw [← h.budget_eq, ← h.pooled.cap_eq]
    exact h.pooled.bounded

/-- INTERNAL: **an absorption stays within the bounds**.
SRCLINE: state.rs:213-319 -/
theorem bounded_absorb (budget : ℕ) (hpos : 1 ≤ budget) (a a' : Aggregator) (w : WireSpan)
    (h : Bounded budget a) (hrun : absorbStep a w = some a') : Bounded budget a' := by
  obtain ⟨⟨a', ins⟩, hr, rfl⟩ := Option.map_eq_some_iff.mp hrun
  unfold absorb at hr
  split at hr
  · cases hr
    exact h
  · have hcascade := absorbResolved_cascade _ a a' w [] ins hr []
    exact cascades_invariant (fun c => Bounded budget c.agg)
      (fun c c' hold hstep => by
        obtain ⟨hbudget, hlen⟩ := step_within budget hpos c c' hold.budget_eq hold.ring_le hstep
        exact ⟨hbudget, hlen, pooled_step c c' hold.pooled hstep⟩)
      _ _ h hcascade

/-- INTERNAL: with a positive budget every sequence of spans is absorbed.
SRCLINE: state.rs:213-319 -/
theorem absorbs_total (budget : ℕ) (hpos : 1 ≤ budget) (spans : List WireSpan) (a : Aggregator)
    (h : Bounded budget a) : ∃ a', run absorbStep a spans = some a' ∧ Bounded budget a' := by
  induction spans generalizing a with
  | nil => exact ⟨a, rfl, h⟩
  | cons w spans ih =>
    obtain ⟨a₁, ins, habsorb, -⟩ := absorb_total a w (by rw [h.budget_eq]; omega)
    have hstep : absorbStep a w = some a₁ := by
      rw [absorbStep, habsorb]
      rfl
    obtain ⟨a', hrun, h'⟩ := ih a₁ (bounded_absorb budget hpos a a₁ w h hstep)
    exact ⟨a', by rw [run_cons, hstep]; exact hrun, h'⟩

/-! ## The budget 0 -/

/-- INTERNAL: **no number of evictions makes room in a ring of no spans**.
SRCLINE: state.rs:259-262 -/
theorem makeRoom_never (fuel : ℕ) (a : Aggregator) (hzero : a.historyBudget = 0) :
    makeRoomWithin fuel a = none := by
  induction fuel generalizing a with
  | zero =>
    unfold makeRoomWithin
    rw [if_neg (by omega)]
  | succ fuel ih =>
    unfold makeRoomWithin
    rw [if_neg (by omega)]
    apply ih
    exact (congrArg (fun c => c.2.2) (evictOldest_config a)).trans hzero

/-- INTERNAL: the budget is 0, and so is the ring. -/
structure Barred (a : Aggregator) : Prop where
  budget_eq : a.historyBudget = 0
  order_eq : a.order = []
  byId_eq : a.byId = ∅
  pooled : Pooled a

/-- INTERNAL: with no budget nothing gets in. -/
theorem barred_new : Barred (Aggregator.new 0) := ⟨rfl, rfl, rfl, pooled_new 0⟩

/-- INTERNAL: a closed root is never absorbed.
SRCLINE: state.rs:231-262 -/
theorem barred_root (a : Aggregator) (w : WireSpan) (h : Barred a)
    (hclosed : w.closedAtNs.isSome = true) (hroot : w.parentId = none) :
    absorbStep a w = none := by
  have hres : a.resolve w = some (a.resolveRoot w, false) := by
    unfold Aggregator.resolve
    rw [hroot]
  have hplace : a.place w (a.resolveRoot w) false = none := by
    unfold place makeRoom
    rw [makeRoom_never _ a h.budget_eq]
    rfl
  have hopen : w.closedAtNs.isNone = false := by
    simpa [Option.isSome_iff_ne_none] using hclosed
  unfold absorbStep absorb absorbResolvedAll absorbResolved
  rw [hopen, if_neg (by simp), hres]
  simp only [hplace]
  rfl

/-- INTERNAL: any other span is ignored or parked.
SRCLINE: state.rs:221-249 -/
theorem barred_other (a : Aggregator) (w : WireSpan) (h : Barred a)
    (hother : w.closedAtNs.isSome = true → w.parentId ≠ none) :
    ∃ a', absorbStep a w = some a' ∧ Barred a' := by
  unfold absorbStep absorb
  split
  · exact ⟨a, rfl, h⟩
  · next hopen =>
    have hclosed : w.closedAtNs.isSome = true := by
      simpa [Option.isSome_iff_ne_none] using hopen
    obtain ⟨p, hp⟩ := Option.ne_none_iff_exists'.mp (hother hclosed)
    have hres : a.resolve w = none := by
      rw [resolve_eq_none_iff]
      exact ⟨p, hp, by rw [h.byId_eq, ExtTreeMap.getElem?_empty]⟩
    refine ⟨a.parkPending p w, ?_, ?_⟩
    · unfold absorbResolvedAll absorbResolved
      simp only [hres, hp, Option.getD_some]
      rfl
    · obtain ⟨hconfig, horder, hbyId, -, -⟩ := parkPending_frame a p w
      refine ⟨?_, ?_, ?_, pooled_parkPending a p w h.pooled⟩
      · exact (congrArg (fun c => c.2.2) hconfig).trans h.budget_eq
      · exact horder.trans h.order_eq
      · exact hbyId.trans h.byId_eq

/-- INTERNAL: with the budget 0 exactly the sequences without a closed root are absorbed. -/
theorem barred_run (spans : List WireSpan) (a : Aggregator) (h : Barred a) :
    (∀ w ∈ spans, w.closedAtNs.isSome = true → w.parentId ≠ none) →
      ∃ a', run absorbStep a spans = some a' ∧ Barred a' := by
  induction spans generalizing a with
  | nil => exact fun _ => ⟨a, rfl, h⟩
  | cons w spans ih =>
    intro hspans
    obtain ⟨a₁, hstep, h₁⟩ := barred_other a w h (hspans w (by simp))
    obtain ⟨a', hrun, h'⟩ := ih a₁ h₁ fun v hv => hspans v (by simp [hv])
    exact ⟨a', by rw [run_cons, hstep]; exact hrun, h'⟩

/-- INTERNAL: a run of such an aggregator that ends has met no closed root. -/
theorem barred_stuck (spans : List WireSpan) (a a' : Aggregator) (h : Barred a)
    (hrun : run absorbStep a spans = some a') (w : WireSpan) (hw : w ∈ spans)
    (hclosed : w.closedAtNs.isSome = true) : w.parentId ≠ none := by
  induction spans generalizing a with
  | nil => cases hw
  | cons v spans ih =>
    rw [run_cons, Option.bind_eq_some_iff] at hrun
    obtain ⟨a₁, hstep, hrun⟩ := hrun
    have hother : v.closedAtNs.isSome = true → v.parentId ≠ none := by
      intro hv hroot
      rw [barred_root a v h hv hroot] at hstep
      cases hstep
    rcases List.mem_cons.mp hw with rfl | hin
    · exact hother hclosed
    · obtain ⟨a₂, hstep₂, h₂⟩ := barred_other a v h hother
      obtain rfl : a₂ = a₁ := Option.some.inj (hstep₂.symm.trans hstep)
      exact ih a₂ h₂ hrun hin

/-! ## Exactly when absorbing stays within its bounds -/

/-- CODE: state.rs:124-136, 213-333 — **exactly when absorbing a sequence of spans ends within
the bounds**, for any ids: when the budget is positive or no closed span of the sequence is a
root. -/
theorem absorb_bounded_iff (budget : ℕ) (spans : List WireSpan) :
    (∃ a, run absorbStep (Aggregator.new budget) spans = some a ∧ WithinBounds budget a) ↔
      1 ≤ budget ∨ ∀ w ∈ spans, w.closedAtNs.isSome = true → w.parentId ≠ none := by
  constructor
  · rintro ⟨a, hrun, -⟩
    by_cases hpos : 1 ≤ budget
    · exact Or.inl hpos
    · obtain rfl : budget = 0 := by omega
      exact Or.inr fun w hw hclosed =>
        barred_stuck spans (Aggregator.new 0) a barred_new hrun w hw hclosed
  · intro hcond
    by_cases hpos : 1 ≤ budget
    · obtain ⟨a, hrun, h⟩ := absorbs_total budget hpos spans _ (bounded_new budget)
      exact ⟨a, hrun, h.within⟩
    · obtain rfl : budget = 0 := by omega
      obtain ⟨a, hrun, h⟩ := barred_run spans (Aggregator.new 0) barred_new
        (hcond.resolve_left (by omega))
      have hbounded : Bounded 0 a := ⟨h.budget_eq, by rw [h.order_eq]; rfl, h.pooled⟩
      exact ⟨a, hrun, hbounded.within⟩

/-- CODE: state.rs:258-262 — with `--history 0` a closed root is never absorbed. -/
theorem history_zero_diverges :
    ¬ ∃ a, run absorbStep (Aggregator.new 0) [plainSpan 1 none 7] = some a ∧
      WithinBounds 0 a := by
  rintro ⟨a, hrun, -⟩
  cases hrun

end TracingConsole.Analysis
