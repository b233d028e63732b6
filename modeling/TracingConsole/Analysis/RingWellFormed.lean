import TracingConsole.Analysis.AggregateStatistics
import TracingConsole.Library.FiniteLinks
import TracingConsole.Model.TraceTree

/-!
# When the ring stays well-formed

The queue and the map of the ring are meant to be in lock-step (state.rs:96-101), and the
parent links of its spans to form trees, which the trace view walks (explore.rs:181-233).
Nothing checks this on arrival: a span is pushed on the queue whether or not its id is
already there, and its parent is looked up by id alone.

`place_wellFormed_iff` says which placements keep the ring well-formed: those of a span
whose id is not among the ids left after making room and is not met on the way up from its
parent.  `ring_wellFormed` lifts this to runs of arbitrary spans, and `repeated_id` is a run
of two arrivals that breaks it.
-/

set_option autoImplicit false

namespace TracingConsole.Analysis

open Std (ExtTreeMap)
open Relation
open TracingConsole.Library TracingConsole.Model TracingConsole.Model.Aggregator

/-! ## Links and walks -/

/-- INTERNAL: the entry stored under `x` has the parent `y`.
SRCLINE: state.rs:84-93 -/
def ParentLink (a : Aggregator) (x y : ℕ) : Prop :=
  ∃ e : Entry, a.byId[x]? = some e ∧ e.span.parentId = some y

/-- INTERNAL: a link is that of a located span. -/
theorem parentLink_iff (a : Aggregator) (x y : ℕ) :
    ParentLink a x y ↔ ∃ z, located a x = some z ∧ z.1.parentId = some y := by
  constructor
  · rintro ⟨e, he, hp⟩
    exact ⟨_, by rw [located, he]; rfl, hp⟩
  · rintro ⟨z, hz, hp⟩
    obtain ⟨e, he, rfl⟩ := Option.map_eq_some_iff.mp hz
    exact ⟨e, he, hp⟩

/-- INTERNAL: the ids from `id` upward through the ring, if there are at most `fuel`. -/
def climb (a : Aggregator) : ℕ → ℕ → Option (List ℕ)
  | 0, _ => none
  | fuel + 1, id =>
    match a.byId[id]? with
    | none => some []
    | some e =>
      match e.span.parentId with
      | none => some [id]
      | some p => (climb a fuel p).map fun ids => id :: ids

/-- INTERNAL: **the ring is well-formed**: queue and map are in lock-step, no span is above
itself, and the walks up and down end.
SRCLINE: state.rs:96-101, explore.rs:155-233 -/
structure RingWellFormed (a : Aggregator) : Prop where
  nodup : a.order.Nodup
  mem_iff : ∀ id, id ∈ a.order ↔ id ∈ a.byId
  acyclic : Acyclic (ParentLink a)
  climbs : ∀ id, (climb a (a.order.length + 1) id).isSome
  walks : ∀ rootId collapsed, (visibleTraceRows a rootId collapsed).isSome

/-! ## Walks end in an acyclic ring -/

/-- INTERNAL: the part of well-formedness that is about the state alone; every entry is
stored under its id. -/
structure Sane (a : Aggregator) : Prop where
  locked : Locked a
  id_eq : ∀ id x, located a id = some x → x.1.id = id
  acyclic : Acyclic (ParentLink a)

/-- INTERNAL: only a span of the ring has a link. -/
theorem Sane.source (a : Aggregator) (h : Sane a) (x y : ℕ) (hxy : ParentLink a x y) :
    x ∈ a.order := by
  obtain ⟨e, he, -⟩ := hxy
  rw [h.locked.mem_iff]
  exact ExtTreeMap.isSome_getElem?_iff_mem.mp (by rw [he]; rfl)

/-- INTERNAL: a walk up meets no more spans than there are above. -/
theorem climb_total (a : Aggregator) (h : Sane a) (fuel id : ℕ)
    (hfuel : above (ParentLink a) a.order id < fuel) : (climb a fuel id).isSome := by
  induction fuel generalizing id with
  | zero => omega
  | succ fuel ih =>
    unfold climb
    cases he : a.byId[id]? with
    | none => rfl
    | some e =>
      dsimp only
      cases hp : e.span.parentId with
      | none => rfl
      | some p =>
        have hlink : ParentLink a id p := ⟨e, he, hp⟩
        have hless := above_lt _ a.order h.acyclic id p (h.source a id p hlink) hlink
        have hrest := ih p (by omega)
        simpa using hrest

/-- INTERNAL: every span of an index satisfies `P`, is stored under its own id, and is
listed as a child of its own parent only. -/
structure IndexOf (P : WireSpan → Prop) (index : TraceIndex) : Prop where
  span_eq : ∀ (id : ℕ) s, index.spanById[id]? = some s → P s ∧ s.id = id
  child_eq : ∀ p c, c ∈ index.byParent.getD p [] → ∃ s, P s ∧ s.id = c ∧ s.parentId = some p

/-- INTERNAL: SRCLINE: explore.rs:163-168 -/
theorem indexOf_foldl (P : WireSpan → Prop) (spans : List WireSpan) (index : TraceIndex)
    (hspans : ∀ s ∈ spans, P s) (h : IndexOf P index) :
    IndexOf P (spans.foldl TraceIndex.push index) := by
  induction spans generalizing index with
  | nil => exact h
  | cons s spans ih =>
    have hs : P s := hspans s (by simp)
    apply ih (index.push s) (fun t ht => hspans t (by simp [ht]))
    refine ⟨?_, ?_⟩
    · intro id t hget
      unfold TraceIndex.push at hget
      dsimp only at hget
      rw [getElem?_insert_eq] at hget
      split at hget
      · next hid =>
        cases hget
        exact ⟨hs, hid.symm⟩
      · exact h.span_eq id t hget
    · intro p c hc
      unfold TraceIndex.push at hc
      dsimp only at hc
      split at hc
      · exact h.child_eq p c hc
      · next q hq =>
        rw [ExtTreeMap.getD_eq_getD_getElem?, getElem?_insert_eq] at hc
        split at hc
        · next hpq =>
          subst hpq
          rw [Option.getD_some, List.mem_append, List.mem_singleton] at hc
          rcases hc with hold | rfl
          · exact h.child_eq p c hold
          · exact ⟨s, hs, rfl, hq⟩
        · rw [← ExtTreeMap.getD_eq_getD_getElem?] at hc
          exact h.child_eq p c hc

/-- INTERNAL: a loop whose every step succeeds succeeds. -/
theorem foldlM_isSome {α β : Type} (f : β → α → Option β) (l : List α) (b : β)
    (h : ∀ x ∈ l, ∀ b, (f b x).isSome) : (l.foldlM f b).isSome := by
  induction l generalizing b with
  | nil => rfl
  | cons x l ih =>
    obtain ⟨b', hb'⟩ := Option.isSome_iff_exists.mp (h x (by simp) b)
    rw [List.foldlM_cons, hb']
    exact ih b' fun y hy => h y (by simp [hy])

/-- INTERNAL: a walk down goes no deeper than there are spans below.
SRCLINE: explore.rs:181-233 -/
theorem walkTrace_total (a : Aggregator) (h : Sane a) (index : TraceIndex)
    (hindex : IndexOf (fun s => s ∈ ringList a) index) (collapsed : Finset ℕ) (fuel : ℕ)
    (span : WireSpan) (depth : ℕ) (hfuel : below (ParentLink a) a.order span.id < fuel) :
    (walkTrace index collapsed fuel span depth).isSome := by
  -- a span of the ring is the one stored under its id
  have hstored : ∀ s ∈ ringList a, ∃ e : Entry, a.byId[s.id]? = some e ∧ e.span = s := by
    intro s hs
    obtain ⟨e, he, rfl⟩ := List.mem_map.mp hs
    obtain ⟨id, -, hget⟩ := (mem_ringEntries a e).mp he
    have hid : e.span.id = id := h.id_eq id _ (by rw [located, hget]; rfl)
    exact ⟨e, by rw [hid]; exact hget, rfl⟩
  induction fuel generalizing span depth with
  | zero => omega
  | succ fuel ih =>
    unfold walkTrace
    dsimp only
    split
    · apply foldlM_isSome
      intro item hitem out
      cases item with
      | event idx t => rfl
      | child id t =>
        dsimp only
        cases hget : index.spanById[id]? with
        | none => rfl
        | some child =>
          obtain ⟨hchild, hid⟩ := hindex.span_eq id child hget
          have hkid : id ∈ index.byParent.getD span.id [] := by
            unfold TraceIndex.items at hitem
            rw [List.mem_insertionSort, List.mem_append] at hitem
            rcases hitem with hevent | hkid
            · rw [List.mem_mapIdx] at hevent
              obtain ⟨_, _, heq⟩ := hevent
              cases heq
            · obtain ⟨k, hk, heq⟩ := List.mem_map.mp hkid
              cases heq
              unfold TraceIndex.kids at hk
              rwa [List.mem_insertionSort] at hk
          obtain ⟨s, hs, hsid, hparent⟩ := hindex.child_eq span.id id hkid
          obtain ⟨e, he, hes⟩ := hstored s hs
          have hlink : ParentLink a child.id span.id := by
            refine ⟨e, ?_, ?_⟩
            · rw [hid, ← hsid]
              exact he
            · rw [hes]
              exact hparent
          have hless := below_lt _ a.order h.acyclic _ _ (h.source a _ _ hlink) hlink
          have hrest := ih child (depth + 1) (by omega)
          simpa using hrest
    · rfl

/-- INTERNAL: **a ring in lock-step without cycles is well-formed**.
SRCLINE: explore.rs:155-233 -/
theorem ringWellFormed_of_sane (a : Aggregator) (h : Sane a) : RingWellFormed a := by
  refine ⟨h.locked.nodup, h.locked.mem_iff, h.acyclic, ?_, ?_⟩
  · intro id
    apply climb_total a h
    have := above_le (ParentLink a) a.order id
    omega
  · intro rootId collapsed
    have hspans : a.iterWithStack.map Prod.fst = ringList a := by
      unfold iterWithStack ringList
      rw [List.map_map]
      rfl
    have hindex : IndexOf (fun s => s ∈ ringList a)
        (TraceIndex.ofSpans (a.iterWithStack.map Prod.fst)) := by
      unfold TraceIndex.ofSpans
      apply indexOf_foldl
      · intro s hs
        rw [hspans] at hs
        exact hs
      · refine ⟨?_, ?_⟩
        · intro id s hget
          simp at hget
        · intro p c hc
          simp at hc
    unfold visibleTraceRows
    dsimp only
    split
    · rfl
    · next root _ =>
      apply walkTrace_total a h _ hindex
      have := below_le (ParentLink a) a.order root.id
      unfold Aggregator.len
      omega

/-! ## Which placements keep the ring well-formed -/

/-- INTERNAL: the ids of the ring that are not evicted to make room for one span.
SRCLINE: state.rs:259-262 -/
def leftAfterRoom (a : Aggregator) : List ℕ :=
  a.order.drop (a.order.length + 1 - a.historyBudget)

/-- INTERNAL: the links of the spans that are not evicted. -/
def StayingLink (a : Aggregator) (x y : ℕ) : Prop := x ∈ leftAfterRoom a ∧ ParentLink a x y

/-- INTERNAL: **a placement is clean** when the id of the span is not among those left after
making room, and is not met on the way up from its parent through what is left. -/
def Clean (a : Aggregator) (w : WireSpan) : Prop :=
  w.id ∉ leftAfterRoom a ∧ ∀ p, w.parentId = some p → ¬ ReflTransGen (StayingLink a) p w.id

/-- INTERNAL: in a ring in lock-step making room drops the entries of the ids it drops.
SRCLINE: state.rs:259-262, 321-328 -/
theorem located_makeRoom (a a₁ : Aggregator) (hlocked : Locked a) (h : a.makeRoom = some a₁)
    (id : ℕ) : located a₁ id = if id ∈ leftAfterRoom a then located a id else none := by
  obtain ⟨horder, -⟩ := makeRoom_order a a₁ h
  obtain ⟨-, -, hsub, -⟩ := makeRoom_shrinks a a₁ h
  have hlocked₁ : Locked a₁ :=
    (makeRoomWithin_invariant Locked locked_evictOldest _ a a₁ hlocked h).1
  have hmem := hlocked₁.mem_iff id
  rw [horder, mem_byId_iff] at hmem
  change id ∈ leftAfterRoom a ↔ _ at hmem
  split
  · next hleft =>
    obtain ⟨x, hx⟩ := Option.isSome_iff_exists.mp (hmem.mp hleft)
    rw [hx, hsub id x hx]
  · next hgone =>
    rw [Option.eq_none_iff_forall_ne_some]
    intro x hx
    exact hgone (hmem.mpr (by rw [hx]; rfl))

/-- INTERNAL: what is located after a placement, whatever ids there are.
SRCLINE: state.rs:252-298 -/
theorem located_place (a a' : Aggregator) (w : WireSpan) (b : BucketKey) (r : Bool)
    (hlocked : Locked a) (hplace : a.place w b r = some a') (id : ℕ) :
    located a' id = if id = w.id then some (w, b, totalOf w)
      else if id ∈ leftAfterRoom a then located a id else none := by
  obtain ⟨a₁, hroom, rfl⟩ := place_eq_some a a' w b r hplace
  rw [located_insertEntry, located_chargeParent, located_makeRoom a a₁ hlocked hroom]
  rfl

/-- INTERNAL: **a placement keeps the ring in lock-step and acyclic exactly when it is
clean**.
SRCLINE: state.rs:231-298 -/
theorem place_wellFormed_iff (a a' : Aggregator) (w : WireSpan) (b : BucketKey) (r : Bool)
    (h : Sane a) (hplace : a.place w b r = some a') : Sane a' ↔ Clean a w := by
  have hlocked := locked_place a a' w b r hplace h.locked
  have hloc := located_place a a' w b r h.locked hplace
  have hid : ∀ id x, located a' id = some x → x.1.id = id := by
    intro id x hx
    rw [hloc id] at hx
    split at hx
    · next hw =>
      cases hx
      exact hw.symm
    · split at hx
      · exact h.id_eq id x hx
      · cases hx
  have hstaying : Acyclic (StayingLink a) := h.acyclic.mono _ _ fun x y hxy => hxy.2
  -- the links after the placement are those that stay and those of the new span
  have hlinks : w.id ∉ leftAfterRoom a → ∀ x y, ParentLink a' x y ↔
      StayingLink a x y ∨ (x = w.id ∧ ParentLink a' w.id y) := by
    intro hfresh x y
    rw [parentLink_iff a' x y, hloc x]
    by_cases hx : x = w.id
    · subst hx
      have hnot : ¬ StayingLink a w.id y := fun hs => hfresh hs.1
      rw [if_pos rfl, parentLink_iff a' w.id y, hloc w.id, if_pos rfl]
      simp [hnot]
    · rw [if_neg hx]
      unfold StayingLink
      rw [parentLink_iff]
      by_cases hleft : x ∈ leftAfterRoom a
      · simp [hleft, hx]
      · simp [hleft, hx]
  have hparent : ∀ p, ParentLink a' w.id p ↔ w.parentId = some p := by
    intro p
    rw [parentLink_iff, hloc w.id, if_pos rfl]
    simp
  constructor
  · intro hsane
    have hfresh : w.id ∉ leftAfterRoom a := hlocked.mp hsane.locked
    refine ⟨hfresh, ?_⟩
    intro p hp
    exact (acyclic_of_edge _ _ w.id (fun y hs => hfresh hs.1) (hlinks hfresh) hstaying).mp
      hsane.acyclic p ((hparent p).mpr hp)
  · rintro ⟨hfresh, hup⟩
    refine ⟨hlocked.mpr hfresh, hid, ?_⟩
    apply (acyclic_of_edge _ _ w.id (fun y hs => hfresh hs.1) (hlinks hfresh) hstaying).mpr
    intro p hp
    exact hup p ((hparent p).mp hp)

/-! ## Runs of arbitrary spans -/

/-- INTERNAL: absorb one span after the other.
SRCLINE: state.rs:213-229 -/
def absorbStep (a : Aggregator) (w : WireSpan) : Option Aggregator := (a.absorb w).map Prod.fst

/-- INTERNAL: every placement an absorption makes is clean: that of the span itself, and of
each parked span it releases. -/
def PlacementsClean (a : Aggregator) (w : WireSpan) : Prop :=
  w.closedAtNs.isSome → ∀ c, Cascades ⟨a, [w], []⟩ c →
    ∀ v rest, c.work = v :: rest → (c.agg.resolve v).isSome → Clean c.agg v

/-- INTERNAL: the aggregator starts sane. -/
theorem sane_new (budget : ℕ) : Sane (Aggregator.new budget) := by
  refine ⟨locked_new budget, ?_, ?_⟩
  · intro id x hx
    simp [located, Aggregator.new] at hx
  · intro x hx
    obtain ⟨y, ⟨e, he, -⟩, -⟩ := TransGen.head'_iff.mp hx
    simp [Aggregator.new] at he

/-- INTERNAL: the order and the entries are all there is to it. -/
theorem sane_congr (a a' : Aggregator) (horder : a'.order = a.order)
    (hbyId : a'.byId = a.byId) (h : Sane a) : Sane a' := by
  have hlocated : ∀ id, located a' id = located a id := fun id => by simp only [located, hbyId]
  have hlink : ParentLink a' = ParentLink a := by
    funext x y
    simp only [ParentLink, hbyId]
  refine ⟨locked_congr a a' horder hlocated h.locked, ?_, ?_⟩
  · simpa only [hlocated] using h.id_eq
  · rw [hlink]
    exact h.acyclic

/-- INTERNAL: a cascade step whose placement is clean keeps the ring sane.
SRCLINE: state.rs:231-306 -/
theorem sane_step (c c' : Cascade) (h : Sane c.agg) (hclean : ∀ v rest, c.work = v :: rest →
    (c.agg.resolve v).isSome → Clean c.agg v) (hc : CascadeStep c c') : Sane c'.agg := by
  rcases cascadeStep_cases _ _ hc with
    ⟨w, rest, p, -, -, -, rfl⟩ | ⟨w, rest, b, r, a', hwork, hres, hplace, rfl⟩
  · obtain ⟨-, horder, hbyId, -, -⟩ := parkPending_frame c.agg p w
    exact sane_congr c.agg _ horder hbyId h
  · obtain ⟨-, horder, hbyId, -, -⟩ := takeWaiters_frame a' w.id
    apply sane_congr a' _ horder hbyId
    rw [place_wellFormed_iff c.agg a' w b r h hplace]
    exact hclean w rest hwork (by rw [hres]; rfl)

/-- INTERNAL: an absorption whose placements are clean keeps the ring sane.
SRCLINE: state.rs:213-306 -/
theorem sane_absorb (a a' : Aggregator) (w : WireSpan) (h : Sane a)
    (hclean : PlacementsClean a w) (hrun : absorbStep a w = some a') : Sane a' := by
  obtain ⟨⟨a', ins⟩, hr, rfl⟩ := Option.map_eq_some_iff.mp hrun
  unfold absorb at hr
  split at hr
  · cases hr
    exact h
  · next hclosed =>
    have hsome : w.closedAtNs.isSome := by
      rw [Option.isNone_iff_eq_none] at hclosed
      exact Option.isSome_iff_ne_none.mpr hclosed
    have hcascade := absorbResolved_cascade _ a a' w [] ins hr []
    have hsane : ∀ c, Cascades ⟨a, [w], []⟩ c → Sane c.agg := by
      intro c hc
      induction hc with
      | refl => exact h
      | tail hreach hlast ih =>
        exact sane_step _ _ ih (hclean hsome _ hreach) hlast
    exact hsane _ hcascade

/-- CODE: state.rs:231-364, explore.rs:155-233 — **a run keeps the ring well-formed if its
placements are clean**, whatever ids and parents the spans have and however often an id
occurs. -/
theorem ring_wellFormed (budget : ℕ) (spans : List WireSpan) (a : Aggregator)
    (hclean : RunsUnder absorbStep PlacementsClean (Aggregator.new budget) spans)
    (hrun : run absorbStep (Aggregator.new budget) spans = some a) : RingWellFormed a := by
  apply ringWellFormed_of_sane
  exact run_invariant_under absorbStep PlacementsClean Sane
    (fun a w a' h hc hstep => sane_absorb a a' w h hc hstep) _ spans a (sane_new budget) hclean
    hrun

/-- INTERNAL: an absorption that releases nobody makes at most one placement. -/
theorem placementsClean_of_one (a : Aggregator) (w : WireSpan) (c : Cascade)
    (hstep : cascadeStep ⟨a, [w], []⟩ = some c) (hdone : c.work = [])
    (hclean : Clean a w) : PlacementsClean a w := by
  intro _ d hd v rest hwork _
  rcases ReflTransGen.cases_head hd with rfl | ⟨c', hc', hd⟩
  · cases hwork
    exact hclean
  · have heq : c' = c := Option.some.inj (hc'.symm.trans hstep)
    subst heq
    rcases ReflTransGen.cases_head hd with rfl | ⟨c'', hc'', -⟩
    · rw [hdone] at hwork
      cases hwork
    · unfold CascadeStep cascadeStep at hc''
      rw [hdone] at hc''
      cases hc''

/-- CODE: state.rs:231-364 — the span 1 closes, is evicted, and comes again. -/
theorem ring_wellFormed_small :
    ∃ a, run absorbStep (Aggregator.new 1) [plainSpan 1 none 7, plainSpan 1 none 7] = some a ∧
      RingWellFormed a := by
  have hroot : ∀ (a : Aggregator) (c : Cascade),
      cascadeStep ⟨a, [plainSpan 1 none 7], []⟩ = some c → c.work = [] →
      1 ∉ leftAfterRoom a → PlacementsClean a (plainSpan 1 none 7) := by
    intro a c hstep hdone hfresh
    apply placementsClean_of_one a _ c hstep hdone
    exact ⟨hfresh, fun p hp => by cases hp⟩
  obtain ⟨a, hrun⟩ : ∃ a, run absorbStep (Aggregator.new 1)
      [plainSpan 1 none 7, plainSpan 1 none 7] = some a := ⟨_, rfl⟩
  refine ⟨a, hrun, ring_wellFormed 1 _ a ?_ hrun⟩
  refine ⟨hroot _ _ rfl rfl (by decide), fun s hs => ?_⟩
  cases hs
  exact ⟨hroot _ _ rfl rfl (by decide), fun _ _ => trivial⟩

/-- CODE: state.rs:284-297 — a span absorbed twice is twice in the queue. -/
theorem repeated_id :
    ∃ a, run absorbStep (Aggregator.new 2) [plainSpan 1 none 7, plainSpan 1 none 7] = some a ∧
      a.order = [1, 1] ∧ ¬ RingWellFormed a := by
  have horder : (run absorbStep (Aggregator.new 2) [plainSpan 1 none 7, plainSpan 1 none 7]).map
      Aggregator.order = some [1, 1] := by decide
  obtain ⟨a, ha, hids⟩ := Option.map_eq_some_iff.mp horder
  refine ⟨a, ha, hids, ?_⟩
  intro h
  have hnodup := h.nodup
  rw [hids] at hnodup
  exact absurd hnodup (by decide)

end TracingConsole.Analysis
