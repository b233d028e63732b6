import TracingConsole.Analysis.Cascade
import TracingConsole.Model.Snapshot

/-!
# Every bucket has a name

A bucket's stack ends with the name of the span that opened the bucket, so it is never empty.
That holds of every aggregator there is: a new one, one that absorbs or is split again, and one
that is read back from any snapshot.
-/

set_option autoImplicit false

namespace TracingConsole.Analysis

open Std (ExtTreeMap)
open TracingConsole.Library TracingConsole.Model TracingConsole.Model.Aggregator

/-- INTERNAL: the aggregators the code can build.
SRCLINE: state.rs:125-137, 147-153, 213-229, 546-563 -/
inductive Built : Aggregator → Prop
  | new (budget : ℕ) : Built (Aggregator.new budget)
  | perform (a a' : Aggregator) (op : AggregatorOp) (h : Built a)
      (hop : op.perform a = some a') : Built a'
  | deserialize (snap : AggregatorSnapshot) (a : Aggregator)
      (h : Aggregator.deserialize snap = some a) : Built a

/-- INTERNAL: no bucket has an empty stack. -/
def Named (a : Aggregator) : Prop :=
  ∀ (key : BucketKey) (st : BucketState), a.buckets[key]? = some st → key.stack ≠ []

/-- INTERNAL: only the keys of the buckets count. -/
theorem named_congr (a a' : Aggregator) (heq : a'.buckets = a.buckets) (h : Named a) :
    Named a' := by
  intro key st hst
  rw [heq] at hst
  exact h key st hst

/-- INTERNAL: without buckets there is nothing to name. -/
theorem named_fresh (a : Aggregator) (h : a.buckets = ∅) : Named a := by
  intro key st hst
  rw [h, ExtTreeMap.getElem?_empty] at hst
  cases hst

/-- INTERNAL: writing a bucket whose stack has a name. -/
theorem named_insert (a a' : Aggregator) (key : BucketKey) (st : BucketState) (h : Named a)
    (heq : a'.buckets = a.buckets.insert key st) (hkey : key.stack ≠ []) : Named a' := by
  intro k st' hst
  rw [heq, getElem?_insert_eq] at hst
  by_cases hk : k = key
  · rw [hk]
    exact hkey
  · rw [if_neg hk] at hst
    exact h k st' hst

/-- INTERNAL: a bucket that goes takes no name along. -/
theorem named_erase (a a' : Aggregator) (key : BucketKey) (h : Named a)
    (heq : a'.buckets = a.buckets.erase key) : Named a' := by
  intro k st hst
  rw [heq, getElem?_erase_eq] at hst
  by_cases hk : k = key
  · rw [if_pos hk] at hst
    cases hst
  · rw [if_neg hk] at hst
    exact h k st hst

/-! ## One operation -/

/-- INTERNAL: the self time of a parent has no part in the names. -/
theorem named_bumpParentSelf (a : Aggregator) (p n : ℕ) (h : Named a) :
    Named (a.bumpParentSelf p n) := by
  unfold bumpParentSelf
  split
  · exact h
  · next e he =>
    dsimp only
    split
    · exact h
    · split
      · exact named_congr a _ rfl h
      · next st hst => exact named_insert a _ e.bucket _ h rfl (h e.bucket st hst)

/-- INTERNAL: taking a span out of its bucket keeps the names. -/
theorem named_dropContribution (a : Aggregator) (e : Entry) (h : Named a) :
    Named (a.dropContribution e) := by
  unfold dropContribution
  split
  · exact h
  · next st hst =>
    dsimp only
    split
    · exact named_erase a _ e.bucket h rfl
    · exact named_insert a _ e.bucket _ h rfl (h e.bucket st hst)

/-- INTERNAL: so does giving its time back to the parent. -/
theorem named_returnToParent (a : Aggregator) (e : Entry) (h : Named a) :
    Named (a.returnToParent e) := by
  unfold returnToParent
  split
  · exact h
  · split
    · split
      · exact h
      · exact named_bumpParentSelf _ _ _ (named_congr a _ rfl h)
    · exact h

/-- INTERNAL: and evicting the oldest span. -/
theorem named_evictOldest (a : Aggregator) (h : Named a) : Named a.evictOldest := by
  unfold evictOldest
  split
  · exact h
  · next id order horder =>
    dsimp only
    split
    · exact named_congr a _ rfl h
    · apply named_returnToParent
      apply named_dropContribution
      exact named_congr a _ (takeWaiters_frame _ id).2.2.2.2 h

/-- INTERNAL: and charging the parent. -/
theorem named_chargeParent (a : Aggregator) (r : Bool) (w : WireSpan) (h : Named a) :
    Named (a.chargeParent r w) := by
  unfold chargeParent
  split
  · exact h
  · split
    · exact named_bumpParentSelf _ _ _ (named_congr a _ rfl h)
    · exact h

/-- INTERNAL: a span resolves to a bucket that its own name ends.
SRCLINE: state.rs:232-250, 393-404 -/
theorem resolve_named (a : Aggregator) (w : WireSpan) (b : BucketKey) (r : Bool)
    (h : a.resolve w = some (b, r)) : b.stack ≠ [] := by
  rcases resolve_eq_some a w b r h with ⟨-, hb, -⟩ | ⟨p, e, -, -, hb, -⟩
  · rw [hb]
    exact List.cons_ne_nil _ _
  · rw [hb]
    exact List.append_ne_nil_of_right_ne_nil _ (List.cons_ne_nil _ _)

/-- INTERNAL: a span is placed in a bucket with a name. -/
theorem named_place (a a' : Aggregator) (w : WireSpan) (b : BucketKey) (r : Bool)
    (h : Named a) (hres : b.stack ≠ []) (hplace : a.place w b r = some a') : Named a' := by
  obtain ⟨a₁, hroom, heq⟩ := place_eq_some a a' w b r hplace
  have hafter := (makeRoomWithin_invariant Named named_evictOldest _ a a₁ h hroom).1
  rw [heq]
  exact named_insert _ _ b _ (named_chargeParent a₁ r w hafter) rfl hres

/-- INTERNAL: parking a span names nothing. -/
theorem named_parkPending (a : Aggregator) (p : ℕ) (w : WireSpan) (h : Named a) :
    Named (a.parkPending p w) := by
  obtain ⟨-, -, -, -, hbuckets⟩ := parkPending_frame a p w
  exact named_congr a _ hbuckets h

/-- INTERNAL: what a span resolves is placed in named buckets. -/
theorem named_absorbResolvedAll (a : Aggregator) (w : WireSpan) (r : Aggregator × List ℕ)
    (h : Named a) (hrun : a.absorbResolvedAll w [] = some r) : Named r.1 := by
  have hcascade := absorbResolved_cascade _ a r.1 w [] r.2 hrun []
  refine cascades_invariant (fun c => Named c.agg) (fun c c' hc hstep => ?_) _ _ h hcascade
  rcases cascadeStep_cases c c' hstep with
    ⟨v, rest, p, -, -, -, hc'⟩ | ⟨v, rest, b, s, a', -, hres, hplace, hc'⟩
  · rw [hc']
    exact named_parkPending c.agg p v hc
  · rw [hc']
    have hplaced := named_place c.agg a' v b s hc (resolve_named c.agg v b s hres) hplace
    exact named_congr a' _ (takeWaiters_frame a' v.id).2.2.2.2 hplaced

/-- INTERNAL: absorbing a span keeps the names. -/
theorem named_absorb (a : Aggregator) (w : WireSpan) (r : Aggregator × List ℕ) (h : Named a)
    (hrun : a.absorb w = some r) : Named r.1 := by
  unfold absorb at hrun
  split at hrun
  · cases hrun
    exact h
  · exact named_absorbResolvedAll a w r h hrun

/-- INTERNAL: so does feeding the ring back. -/
theorem named_refeed (order : List ℕ) (byId : ExtTreeMap ℕ Entry) (a a' : Aggregator)
    (h : Named a) (hrun : refeed order byId a = some a') : Named a' := by
  induction order generalizing byId a with
  | nil =>
    cases hrun
    exact h
  | cons id order ih =>
    unfold refeed at hrun
    split at hrun
    · exact ih byId a h hrun
    · next e he =>
      obtain ⟨r, hr, hrest⟩ := Option.bind_eq_some_iff.mp hrun
      exact ih _ r.1 (named_absorbResolvedAll a e.span r h hr) hrest

/-- INTERNAL: every operation keeps the names. -/
theorem named_perform (a a' : Aggregator) (op : AggregatorOp) (h : Named a)
    (hop : op.perform a = some a') : Named a' := by
  cases op with
  | absorb w =>
    obtain ⟨r, hr, heq⟩ := Option.map_eq_some_iff.mp hop
    rw [← heq]
    exact named_absorb a w r h hr
  | setSplitKeys keys =>
    have hkeys : a.setSplitKeys keys = some a' := hop
    unfold setSplitKeys at hkeys
    split at hkeys
    · cases hkeys
      exact h
    · obtain ⟨b, hb, heq⟩ := Option.map_eq_some_iff.mp hkeys
      rw [← heq]
      exact named_congr b _ rfl (named_refeed _ _ _ b (named_fresh _ rfl) hb)

/-! ## Every aggregator -/

/-- INTERNAL: parking many spans names nothing. -/
theorem named_parkAll (waiters : List WireSpan) (pid : ℕ) (a : Aggregator) (h : Named a) :
    Named (parkAll a pid waiters) := by
  induction waiters generalizing a with
  | nil => exact h
  | cons w waiters ih => exact ih _ (named_parkPending a pid w h)

/-- INTERNAL: what is read back is named. -/
theorem named_deserialize (snap : AggregatorSnapshot) (a : Aggregator)
    (h : Aggregator.deserialize snap = some a) : Named a := by
  obtain ⟨b, hb, heq⟩ := Option.map_eq_some_iff.mp h
  have habsorbed : ∀ (spans : List WireSpan) (a : Aggregator), Named a →
      spans.foldlM (fun agg span => (absorb agg span).map Prod.fst) a = some b → Named b := by
    intro spans
    induction spans with
    | nil =>
      intro a ha hrun
      cases hrun
      exact ha
    | cons w spans ih =>
      intro a ha hrun
      rw [List.foldlM_cons] at hrun
      obtain ⟨a₁, h₁, hrest⟩ := Option.bind_eq_some_iff.mp hrun
      obtain ⟨r, hr, hfirst⟩ := Option.map_eq_some_iff.mp h₁
      rw [← hfirst] at hrest
      exact ih r.1 (named_absorb a w r ha hr) hrest
  have hparked : ∀ (pool : List (ℕ × List WireSpan)) (a : Aggregator), Named a →
      Named (pool.foldl (fun agg kv => parkAll agg kv.1 kv.2) a) := by
    intro pool
    induction pool with
    | nil => exact fun a ha => ha
    | cons kv pool ih => exact fun a ha => ih _ (named_parkAll kv.2 kv.1 a ha)
  rw [← heq]
  exact hparked _ b (habsorbed _ _ (named_fresh _ rfl) hb)

/-- INTERNAL: **no bucket of any aggregator has an empty stack**. -/
theorem Built.named (a : Aggregator) (h : Built a) : Named a := by
  induction h with
  | new budget => exact named_fresh _ rfl
  | perform a a' op _ hop ih => exact named_perform a a' op ih hop
  | deserialize snap a h => exact named_deserialize snap a h

end TracingConsole.Analysis
