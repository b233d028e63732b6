import TracingConsole.Analysis.GraphRecords
import TracingConsole.Analysis.SelfTimes
import TracingConsole.Analysis.StackTable

/-!
# The self times of a graph

A graph of self times samples a span once, after the arrival that brought it; the table revises
the self time of a parent whenever a child of it arrives.  The two show the same figures as long as
no arrival reprices a span that the graph has already sampled, and from the first one that does
they differ (`self_time_shown`).
-/

set_option autoImplicit false

namespace TracingConsole.Analysis.Console

open Std (ExtTreeMap)
open TracingConsole.Library TracingConsole.Model TracingConsole.Model.ConsoleModel

/-! ## A sample of the self time -/

/-- INTERNAL: SRCLINE: state.rs:187-211 -/
theorem collectSplitsFor_noKeys (agg : Aggregator) (id : ℕ) : agg.collectSplitsFor id ∅ = [] := by
  have hwalk : ∀ fuel entry, agg.collectSplitsUp ∅ fuel entry [] = [] := by
    intro fuel
    induction fuel with
    | zero => intro entry; cases entry <;> rfl
    | succ fuel ih =>
      intro entry
      cases entry with
      | none => rfl
      | some e =>
        unfold Aggregator.collectSplitsUp
        rw [pushSplits_noKeys]
        exact ih _
  unfold Aggregator.collectSplitsFor
  rw [hwalk]
  rfl

/-- INTERNAL: **the sample of a span is its self time in the ring**, at the time it closed.
SRCLINE: graph.rs:734-749 -/
theorem sampleAt_self (budget : ℕ) (seen : Multiset WireSpan) (agg : Aggregator) (gs : GraphState)
    (h : Booked budget seen agg []) (hmetric : gs.metric = .selfTime) (hkeys : gs.splitKeys = ∅)
    (id : ℕ) : sampleAt agg gs id =
      (priced agg id).bind fun x => x.1.closedAtNs.map fun closed => ([], closed, x.2.2) := by
  unfold sampleAt Aggregator.spanById priced
  cases he : agg.byId[id]? with
  | none => rfl
  | some e =>
    have hname : e.span.id = id := h.kept.id_eq id _ (by rw [located, he]; rfl)
    have htotal := h.tallied.total_eq id e he
    have hself := h.settled.wrapped.self_eq id e he
    simp only [Option.map_some, Option.bind_some]
    cases hclosed : e.span.closedAtNs with
    | none => rfl
    | some closed =>
      have hlength : closed - e.span.openedAtNs = e.totalNs := by
        rw [htotal, Aggregator.totalOf, hclosed]
        rfl
      simp only [Option.map_some, hkeys, collectSplitsFor_noKeys, GraphState.sampleOf, hmetric,
        hlength, hname, hself]

/-- INTERNAL: the samples of a part of the ring have the self times of its spans.
SRCLINE: graph.rs:734-775 -/
theorem valuesOf_locked (budget : ℕ) (seen : Multiset WireSpan) (agg : Aggregator)
    (gs : GraphState) (hseen : Countable seen) (h : Booked budget seen agg [])
    (hmetric : gs.metric = .selfTime) (hkeys : gs.splitKeys = ∅) (ids : List ℕ) :
    valuesOf ((lockedIds agg gs.lockedStack ids).map (sampleAt agg gs)) =
      selfValues agg gs.lockedStack ids := by
  induction ids with
  | nil => rfl
  | cons id ids ih =>
    unfold lockedIds valuesOf selfValues at ih ⊢
    rw [List.filter_cons, List.filterMap_cons, ← ih, shown_stack, shown]
    have hsample := sampleAt_self budget seen agg gs h hmetric hkeys id
    unfold priced at hsample ⊢
    cases he : agg.byId[id]? with
    | none => simp
    | some e =>
      have hring : e.span ∈ ringSpans agg := (mem_ringSpans agg e.span).mpr ⟨id, e, he, rfl⟩
      have hin : e.span ∈ seen :=
        Multiset.mem_of_le ((Multiset.le_add_right _ _).trans h.kept.bag) hring
      obtain ⟨closed, hclosed⟩ := Option.isSome_iff_exists.mp (hseen.closed e.span hin)
      rw [he, Option.map_some, Option.bind_some, hclosed, Option.map_some] at hsample
      by_cases hstack : e.bucket.stack = gs.lockedStack
      · simp [hstack, hsample]
      · simp [hstack]

/-- INTERNAL: the samples go to the series without splits. -/
theorem sample_unsplit (budget : ℕ) (seen : Multiset WireSpan) (agg : Aggregator)
    (gs : GraphState) (h : Booked budget seen agg []) (hmetric : gs.metric = .selfTime)
    (hkeys : gs.splitKeys = ∅) (ids : List ℕ) :
    ∀ sample ∈ ids.map (sampleAt agg gs), ∀ call ∈ sample, call.1 = [] := by
  intro sample hsample call hcall
  obtain ⟨id, -, rfl⟩ := List.mem_map.mp hsample
  rw [sampleAt_self budget seen agg gs h hmetric hkeys id] at hcall
  obtain ⟨x, -, hclosed⟩ := Option.bind_eq_some_iff.mp hcall
  obtain ⟨closed, -, rfl⟩ := Option.map_eq_some_iff.mp hclosed
  rfl

/-! ## The log of a graph -/

/-- INTERNAL: the store of the graph is what a rebuild now would give, and neither would drop
anything. -/
structure Logged (agg : Aggregator) (gs : GraphState) : Prop where
  charted : Charted agg gs
  retained : RunsUnder recordSample Retains (GraphSeriesStore.new gs.windowSecs)
    ((gs.matchingIds agg).map (sampleAt agg gs))

/-- INTERNAL: **a logged graph has stored the self times of the spans with its stack**. -/
theorem Logged.keeps {agg : Aggregator} {gs : GraphState} (hlogged : Logged agg gs) (budget : ℕ)
    (seen : Multiset WireSpan) (hseen : Countable seen) (h : Booked budget seen agg [])
    (hmetric : gs.metric = .selfTime) (hkeys : gs.splitKeys = ∅) :
    Keeps gs.store (selfValues agg gs.lockedStack agg.order) := by
  have hrun : rebuiltStore agg gs = some gs.store := (charted_iff agg gs).mp hlogged.charted
  have hids := matchingIds_eq agg gs (shown_id agg h.kept.id_eq)
  have hkeeps := keeps_records _ _ _ [] (keeps_new gs.windowSecs)
    (sample_unsplit budget seen agg gs h hmetric hkeys _) hlogged.retained hrun
  rw [hids, valuesOf_locked budget seen agg gs hseen h hmetric hkeys, List.nil_append] at hkeeps
  exact hkeeps

/-- INTERNAL: a graph with the same settings and store is logged as well. -/
theorem Logged.same {agg : Aggregator} {gs gs' : GraphState} (h : Logged agg gs)
    (hsame : SameChart gs gs') : Logged agg gs' := by
  have hids : gs'.matchingIds agg = gs.matchingIds agg := by
    unfold GraphState.matchingIds
    rw [hsame.lockedStack]
  have hsamples : sampleAt agg gs' = sampleAt agg gs := by
    funext id
    unfold sampleAt GraphState.sampleOf
    rw [hsame.metric, hsame.splitKeys]
  refine ⟨hsame.charted h.charted, ?_⟩
  rw [hids, hsamples, hsame.windowSecs]
  exact h.retained

/-- INTERNAL: a ring that prices its spans the same way is logged the same way. -/
theorem Logged.repriced {a b : Aggregator} {gs : GraphState} (hlogged : Logged a gs) (budget : ℕ)
    (seen seen' : Multiset WireSpan) (h : Booked budget seen a []) (h' : Booked budget seen' b [])
    (hmetric : gs.metric = .selfTime) (hkeys : gs.splitKeys = ∅) (horder : b.order = a.order)
    (hprices : ∀ id, priced b id = priced a id) : Logged b gs := by
  have hshown : ∀ id, shown b id = shown a id := by
    intro id
    have hread := congrArg (Option.map fun x => (x.1, x.2.1)) (hprices id)
    simpa [priced, shown, Option.map_map, Function.comp_def] using hread
  have hids : gs.matchingIds b = gs.matchingIds a := by
    rw [matchingIds_eq a gs (shown_id a h.kept.id_eq), matchingIds_eq b gs
      (shown_id b h'.kept.id_eq), horder]
    exact lockedIds_congr a b gs.lockedStack a.order fun id _ => hshown id
  have hsamples : sampleAt b gs = sampleAt a gs := by
    funext id
    rw [sampleAt_self budget seen' b gs h' hmetric hkeys id,
      sampleAt_self budget seen a gs h hmetric hkeys id, hprices id]
  have hcharted := (charted_iff a gs).mp hlogged.charted
  refine ⟨(charted_iff b gs).mpr ?_, ?_⟩
  · unfold rebuiltStore at hcharted ⊢
    rw [hids, hsamples]
    exact hcharted
  · rw [hids, hsamples]
    exact hlogged.retained

/-- INTERNAL: **an arrival that reprices no sampled span extends the log**.
SRCLINE: core.rs:335-363 -/
theorem Logged.arrival {a : Aggregator} {gs : GraphState} (hlogged : Logged a gs) (budget : ℕ)
    (seen seen' : Multiset WireSpan) (b : Aggregator) (ins : List ℕ) (store : GraphSeriesStore)
    (h : Booked budget seen a []) (h' : Booked budget seen' b []) (hgrown : Grown a ins b)
    (hmetric : gs.metric = .selfTime) (hkeys : gs.splitKeys = ∅)
    (hprices : ∀ id ∈ a.order, a.resolvedStack id = some gs.lockedStack →
      priced b id = priced a id)
    (hretains : RunsUnder recordSample Retains gs.store
      ((lockedIds b gs.lockedStack ins).map (sampleAt b gs)))
    (hrun : ((lockedIds b gs.lockedStack ins).map (sampleAt b gs)).foldlM recordSample gs.store =
      some store) : Logged b { gs with store := store } := by
  have hids : gs.matchingIds b = gs.matchingIds a ++ lockedIds b gs.lockedStack ins :=
    matchingIds_grown a b ins gs hgrown h.kept.id_eq h'.kept.id_eq
  have hold : (gs.matchingIds a).map (sampleAt b gs) = (gs.matchingIds a).map (sampleAt a gs) := by
    apply List.map_congr_left
    intro id hid
    rw [matchingIds_eq a gs (shown_id a h.kept.id_eq)] at hid
    obtain ⟨hin, hstack⟩ := List.mem_filter.mp hid
    rw [sampleAt_self budget seen' b gs h' hmetric hkeys id,
      sampleAt_self budget seen a gs h hmetric hkeys id, hprices id hin (of_decide_eq_true hstack)]
  have hsamples : (gs.matchingIds b).map (sampleAt b gs) =
      (gs.matchingIds a).map (sampleAt a gs) ++
        (lockedIds b gs.lockedStack ins).map (sampleAt b gs) := by
    rw [hids, List.map_append, hold]
  have hbefore : rebuiltStore a gs = some gs.store := (charted_iff a gs).mp hlogged.charted
  unfold rebuiltStore at hbefore
  refine ⟨(charted_iff b _).mpr ?_, ?_⟩
  · show ((gs.matchingIds b).map (sampleAt b gs)).foldlM recordSample
      (GraphSeriesStore.new gs.windowSecs) = some store
    rw [hsamples, List.foldlM_append, hbefore]
    exact hrun
  · show RunsUnder recordSample Retains (GraphSeriesStore.new gs.windowSecs)
      ((gs.matchingIds b).map (sampleAt b gs))
    rw [hsamples]
    apply RunsUnder.append recordSample Retains _ _ _ hlogged.retained
    intro store₁ hrun₁
    obtain rfl : gs.store = store₁ := Option.some.inj (hbefore.symm.trans hrun₁)
    exact hretains

/-- INTERNAL: a graph that a rebuild made, if it dropped nothing. -/
theorem logged_rebuilding (agg : Aggregator) (gs gs' : GraphState) (store : GraphSeriesStore)
    (hretains : RunsUnder recordSample Retains (rebuilding agg gs).graph.store
      (rebuilding agg gs).samples)
    (hrun : (rebuilding agg gs).samples.foldlM recordSample (rebuilding agg gs).graph.store =
      some store)
    (hsame : SameChart { (rebuilding agg gs).graph with store := store } gs') :
    Logged agg gs' := by
  have hlogged : Logged agg { gs with store := store } := ⟨(charted_iff agg _).mpr hrun, hretains⟩
  exact hlogged.same ⟨hsame.lockedStack, hsame.metric, hsame.windowSecs, hsame.splitKeys,
    hsame.store⟩

/-! ## One update -/

/-- INTERNAL: the update drops no sample and gives up no bin. -/
def DropsNothing (m : ConsoleModel) (x : ℕ × Update) : Prop :=
  ∀ b ∈ binned m x.2, RunsUnder recordSample Retains b.graph.store b.samples

/-- INTERNAL: decidable. -/
instance (m : ConsoleModel) (x : ℕ × Update) : Decidable (DropsNothing m x) := by
  unfold DropsNothing
  infer_instance

/-- INTERNAL: the update reprices no span that a graph of self times without split keys has
sampled: a closed span that arrives has no parent with the locked stack in the ring, or one whose
total, less the children's with the new one among them, is what it was.
SRCLINE: state.rs:264-279, 366-391 -/
def KeepsSelfTimes (m : ConsoleModel) (x : ℕ × Update) : Prop :=
  match x.2, m.view with
  | .spanReceived span, .graph gs =>
    gs.metric = .selfTime → gs.splitKeys = ∅ → span.closedAtNs.isSome = true →
      ∀ p ∈ span.parentId, ∀ e ∈ m.agg.byId[p]?, e.bucket.stack = gs.lockedStack →
        e.totalNs - (m.agg.childSumFor p + Aggregator.totalOf span) % 2 ^ 64 =
          e.totalNs - m.agg.childSumFor p
  | _, _ => True

/-- INTERNAL: decidable. -/
instance (m : ConsoleModel) (x : ℕ × Update) : Decidable (KeepsSelfTimes m x) := by
  unfold KeepsSelfTimes
  split <;> infer_instance

/-- INTERNAL: what is recorded apart from an arrival is a rebuild.
SRCLINE: core.rs:529-545, 567-573, 637-651, 760-845, 1083-1113 -/
theorem binned_rebuilding (m : ConsoleModel) (u : Update) (b : Binning)
    (hspan : ∀ span, u ≠ .spanReceived span) (h : binned m u = some b) :
    ∃ gs, b = rebuilding m.agg gs := by
  unfold binned at h
  split at h
  · next span => exact absurd rfl (hspan span)
  · split at h
    · exact ⟨_, (Option.some.inj h).symm⟩
    · cases h
  · split at h
    · obtain ⟨v, -, hb⟩ := Option.map_eq_some_iff.mp h
      exact ⟨_, hb.symm⟩
    · cases h
  · split at h
    · obtain ⟨k, -, hb⟩ := Option.map_eq_some_iff.mp h
      exact ⟨_, hb.symm⟩
    · cases h
  · split at h
    · obtain ⟨row, -, hb⟩ := Option.map_eq_some_iff.mp h
      exact ⟨_, hb.symm⟩
    · cases h
  · split at h
    · obtain ⟨row, -, hb⟩ := Option.map_eq_some_iff.mp h
      exact ⟨_, hb.symm⟩
    · cases h
    · exact ⟨_, (Option.some.inj h).symm⟩
    · exact ⟨_, (Option.some.inj h).symm⟩
  · cases h

/-- INTERNAL: what a run keeps that drops and reprices nothing. -/
structure SelfLogged (budget : ℕ) (seen : Multiset WireSpan) (m : ConsoleModel) : Prop where
  booked : Booked budget seen m.agg []
  present : ParentsPresent m.agg
  logged : ∀ gs, m.view = .graph gs → gs.metric = .selfTime → gs.splitKeys = ∅ → Logged m.agg gs

/-- INTERNAL: the console starts without a chart. -/
theorem selfLogged_new (budget : ℕ) : SelfLogged budget 0 (ConsoleModel.new budget) where
  booked := booked_new budget
  present e he := by cases he
  logged gs hview := by cases hview

/-- INTERNAL: what an arrival makes of a graph.
SRCLINE: core.rs:335-363 -/
theorem arrival_graph (now : ℕ) (m m' : ConsoleModel) (span : WireSpan) (gs : GraphState)
    (r : Aggregator × List ℕ) (habsorb : m.agg.absorb span = some r) (hview : m.view = .graph gs)
    (hturn : turn m (now, .spanReceived span) = some m') :
    binned m (.spanReceived span) =
        some ⟨gs, (lockedIds r.1 gs.lockedStack r.2).map (sampleAt r.1 gs)⟩ ∧
      ∃ store gs', ((lockedIds r.1 gs.lockedStack r.2).map (sampleAt r.1 gs)).foldlM recordSample
        gs.store = some store ∧ m'.view = .graph gs' ∧
          SameChart { gs with store := store } gs' := by
  have hbinned : binned m (.spanReceived span) =
      some ⟨gs, (lockedIds r.1 gs.lockedStack r.2).map (sampleAt r.1 gs)⟩ := by
    simp only [binned, hview, habsorb, Option.map_some]
  obtain ⟨⟨m₁, e⟩, happly, rfl⟩ := Option.map_eq_some_iff.mp hturn
  have hrecords := apply_records now m (.spanReceived span)
  rw [hbinned] at hrecords
  obtain ⟨done, hstep, hdone⟩ := hrecords
  rw [happly] at hstep
  obtain ⟨store, hrun, hlast⟩ := Option.map_eq_some_iff.mp hstep.symm
  obtain ⟨gs', hview', hsame⟩ := hdone store
  rw [hlast] at hview'
  exact ⟨hbinned, store, gs', hrun, hview', hsame⟩

/-- INTERNAL: an arrival that evicts nothing grows the ring, and what was counted stays so.
SRCLINE: core.rs:335-363, state.rs:213-306 -/
theorem SelfLogged.arrives {budget : ℕ} {seen : Multiset WireSpan} {m : ConsoleModel}
    (h : SelfLogged budget seen m) (m' : ConsoleModel) (now : ℕ) (span : WireSpan)
    (hseen : Countable (AggregatorOp.seen (.absorb span) + seen))
    (hgrows : EvictsNothing m (now, .spanReceived span))
    (hturn : turn m (now, .spanReceived span) = some m') :
    ∃ r, m.agg.absorb span = some r ∧ m'.agg = r.1 ∧ Grown m.agg r.2 r.1 ∧
      Booked budget (AggregatorOp.seen (.absorb span) + seen) r.1 [] := by
  obtain ⟨r, habsorb, hagg⟩ := turn_spanReceived now m m' span hturn
  refine ⟨r, habsorb, hagg, ?_, ?_⟩
  · exact absorb_grown budget seen m.agg span r hseen.ids h.booked.kept h.present habsorb
      (hgrows r habsorb)
  · exact booked_perform budget seen m.agg r.1 (.absorb span) hseen h.booked
      (by rw [AggregatorOp.perform, habsorb]; rfl)

/-- INTERNAL: SRCLINE: core.rs:335-363 -/
theorem selfLogged_arrival (budget : ℕ) (seen : Multiset WireSpan) (m m' : ConsoleModel) (now : ℕ)
    (span : WireSpan) (hseen : Countable (AggregatorOp.seen (.absorb span) + seen))
    (h : SelfLogged budget seen m) (hgrows : EvictsNothing m (now, .spanReceived span))
    (hdrops : DropsNothing m (now, .spanReceived span))
    (hkeeps : KeepsSelfTimes m (now, .spanReceived span))
    (hturn : turn m (now, .spanReceived span) = some m') :
    SelfLogged budget (AggregatorOp.seen (.absorb span) + seen) m' := by
  obtain ⟨r, habsorb, hagg, hgrown, h'⟩ := h.arrives m' now span hseen hgrows hturn
  have horder := hgrown.order_eq
  refine ⟨hagg ▸ h', hagg ▸ hgrown.present, fun gs' hview' hmetric hkeys => ?_⟩
  cases hview : m.view with
  | graph gs =>
    obtain ⟨hbinned, store, gs₁, hrun, hview₁, hsame⟩ :=
      arrival_graph now m m' span gs r habsorb hview hturn
    obtain rfl : gs' = gs₁ := ViewMode.graph.inj (hview'.symm.trans hview₁)
    have hmetric₀ : gs.metric = .selfTime := hsame.metric.symm.trans hmetric
    have hkeys₀ : gs.splitKeys = ∅ := hsame.splitKeys.symm.trans hkeys
    have hlogged := (h.logged gs hview hmetric₀ hkeys₀).arrival budget seen _ r.1 r.2 store
      h.booked h' hgrown hmetric₀ hkeys₀ ?_ (hdrops _ hbinned) hrun
    · rw [hagg]
      exact hlogged.same hsame
    · -- a sampled span that the arrival charges keeps its self time
      intro id hin hstack
      apply priced_absorb budget seen m.agg span r hseen h.booked habsorb horder hgrown id hin
      intro hclosed hparent e he
      simp only [KeepsSelfTimes, hview] at hkeeps
      apply hkeeps hmetric₀ hkeys₀ hclosed id hparent e he
      rw [Aggregator.resolvedStack, he] at hstack
      exact Option.some.inj hstack
  | _ =>
    obtain ⟨⟨m₁, e⟩, happly, rfl⟩ := Option.map_eq_some_iff.mp hturn
    have hrecords := apply_records now m (.spanReceived span)
    have hbinned : binned m (.spanReceived span) = none := by simp only [binned, hview]
    rw [hbinned] at hrecords
    obtain ⟨gs, hgraph, -⟩ := hrecords m₁ e happly gs' hview'
    rw [hview] at hgraph
    cases hgraph

/-- INTERNAL: what an update without a span leaves of the ring.
SRCLINE: state.rs:147-153, 427-462 -/
theorem ring_other (budget : ℕ) (seen : Multiset WireSpan) (m m' : ConsoleModel) (now : ℕ)
    (u : Update) (e : Effect) (hspan : ∀ span, u ≠ .spanReceived span) (hseen : Countable seen)
    (h : SelfLogged budget seen m) (happly : m.apply now u = some (m', e)) :
    (Booked budget seen m'.agg [] ∧ ParentsPresent m'.agg) ∧ m'.agg.order = m.agg.order ∧
      ∀ id, priced m'.agg id = priced m.agg id := by
  cases apply_moves now m m' u e happly with
  | absorbs span r hu _ _ _ _ _ => exact absurd hu (hspan span)
  | shows hagg _ _ =>
    rw [hagg]
    exact ⟨⟨h.booked, h.present⟩, rfl, fun _ => rfl⟩
  | splits keys _ hsplits _ _ _ =>
    have hnone : AggregatorOp.seen (.setSplitKeys keys) + seen = seen := by
      simp [AggregatorOp.seen, absorbedSpans]
    have h' := booked_perform budget seen m.agg m'.agg (.setSplitKeys keys)
      (hnone.symm ▸ hseen) h.booked hsplits
    rw [hnone] at h'
    obtain ⟨horder, -⟩ := setSplitKeys_same_ring m.agg m'.agg budget seen h.booked.kept
      (h.booked.tallied.weaken _ _) h.booked.linked h.present keys hsplits
    refine ⟨⟨h', ?_⟩, horder, priced_setSplitKeys budget seen seen m.agg m'.agg h.booked h'
      h.present keys hsplits⟩
    rcases setSplitKeys_present m.agg m'.agg budget seen hseen.ids h.booked.kept keys hsplits with
      hsame | hpresent
    · rw [hsame]
      exact h.present
    · exact hpresent

/-- INTERNAL: an update that brings no span. -/
theorem selfLogged_other (budget : ℕ) (seen : Multiset WireSpan) (m m' : ConsoleModel) (now : ℕ)
    (u : Update) (hspan : ∀ span, u ≠ .spanReceived span) (hseen : Countable seen)
    (h : SelfLogged budget seen m) (hdrops : DropsNothing m (now, u))
    (hturn : turn m (now, u) = some m') : SelfLogged budget seen m' := by
  obtain ⟨⟨m₁, e⟩, happly, rfl⟩ := Option.map_eq_some_iff.mp hturn
  obtain ⟨⟨h', hpresent⟩, horder, hprices⟩ :=
    ring_other budget seen m m₁ now u e hspan hseen h happly
  refine ⟨h', hpresent, fun gs' hview' hmetric hkeys => ?_⟩
  have hlogged : Logged m.agg gs' := by
    have hrecords := apply_records now m u
    cases hbinned : binned m u with
    | none =>
      rw [hbinned] at hrecords
      obtain ⟨gs, hview, hsame⟩ := hrecords m₁ e happly gs' hview'
      have hold := h.logged gs hview (hsame.metric.symm.trans hmetric)
        (hsame.splitKeys.symm.trans hkeys)
      exact hold.same hsame
    | some b =>
      rw [hbinned] at hrecords
      obtain ⟨done, hstep, hdone⟩ := hrecords
      rw [happly] at hstep
      obtain ⟨store, hrun, hlast⟩ := Option.map_eq_some_iff.mp hstep.symm
      obtain ⟨gs₁, hview₁, hsame⟩ := hdone store
      rw [hlast] at hview₁
      obtain rfl : gs' = gs₁ := ViewMode.graph.inj (hview'.symm.trans hview₁)
      obtain ⟨gs, rfl⟩ := binned_rebuilding m u b hspan hbinned
      exact logged_rebuilding m.agg gs gs' store (hdrops _ hbinned) hrun hsame
  exact hlogged.repriced budget seen seen h.booked h' hmetric hkeys horder hprices

/-- INTERNAL: **one update keeps the log**.
SRCLINE: core.rs:333-1203 -/
theorem selfLogged_turn (budget : ℕ) (seen : Multiset WireSpan) (m m' : ConsoleModel)
    (x : ℕ × Update) (hseen : Countable (seen + receivedSpans [x])) (h : SelfLogged budget seen m)
    (hgrows : EvictsNothing m x) (hdrops : DropsNothing m x) (hkeeps : KeepsSelfTimes m x)
    (hturn : turn m x = some m') : SelfLogged budget (seen + receivedSpans [x]) m' := by
  obtain ⟨now, u⟩ := x
  by_cases hspan : ∃ span, u = .spanReceived span
  · obtain ⟨span, rfl⟩ := hspan
    have hnow : seen + (receivedSpans [(now, .spanReceived span)] : Multiset WireSpan) =
        AggregatorOp.seen (.absorb span) + seen := add_comm _ _
    rw [hnow] at hseen ⊢
    exact selfLogged_arrival budget seen m m' now span hseen h hgrows hdrops hkeeps hturn
  · push Not at hspan
    have hnow : seen + (receivedSpans [(now, u)] : Multiset WireSpan) = seen := by
      rw [receivedSpans_other now u hspan]
      simp
    rw [hnow] at hseen ⊢
    exact selfLogged_other budget seen m m' now u hspan hseen h hdrops hturn

/-- INTERNAL: every run that evicts, drops and reprices nothing keeps the log. -/
theorem selfLogged_run (budget : ℕ) (updates : List (ℕ × Update)) (seen : Multiset WireSpan)
    (m m' : ConsoleModel) (hseen : Countable (seen + receivedSpans updates))
    (h : SelfLogged budget seen m) (hgrows : RunsUnder turn EvictsNothing m updates)
    (hdrops : RunsUnder turn DropsNothing m updates)
    (hkeeps : RunsUnder turn KeepsSelfTimes m updates) (hrun : run turn m updates = some m') :
    SelfLogged budget (seen + receivedSpans updates) m' := by
  induction updates generalizing seen m with
  | nil =>
    cases hrun
    simpa [receivedSpans, absorbedSpans] using h
  | cons x updates ih =>
    rw [run_cons, Option.bind_eq_some_iff] at hrun
    obtain ⟨m₁, h₁, hrun⟩ := hrun
    rw [receivedSpans_cons, ← Multiset.coe_add, ← add_assoc] at hseen ⊢
    have hseen₁ := hseen.mono _ _ (Multiset.le_add_right _ _)
    have hlogged₁ := selfLogged_turn budget seen m m₁ x hseen₁ h hgrows.1 hdrops.1 hkeeps.1 h₁
    exact ih (seen + receivedSpans [x]) m₁ hseen hlogged₁ (hgrows.2 m₁ h₁) (hdrops.2 m₁ h₁)
      (hkeeps.2 m₁ h₁) hrun

/-! ## What the graph shows and what the table shows -/

/-- INTERNAL: **the graph's self time is the table's**: without split keys the samples that a
graph of self times has stored have the figures of the row of its stack. -/
def SelfShown (m : ConsoleModel) : Prop :=
  ∀ gs, m.view = .graph gs → gs.metric = .selfTime → gs.splitKeys = ∅ → m.agg.splitKeys = ∅ →
    binFigures (storedBins gs.store) = rowFigures m.agg gs.lockedStack

/-- INTERNAL: what is logged is what is shown. -/
theorem SelfLogged.shown {budget : ℕ} {seen : Multiset WireSpan} {m : ConsoleModel}
    (h : SelfLogged budget seen m) (hseen : Countable seen) : SelfShown m := by
  intro gs hview hmetric hkeys hnone
  have hkeeps := (h.logged gs hview hmetric hkeys).keeps budget seen hseen h.booked hmetric hkeys
  rw [storedFigures_eq gs.store _ hkeeps,
    rowFigures_eq budget seen m.agg h.booked hnone gs.lockedStack]

/-- INTERNAL: **an arrival that reprices a sampled span shows**.
SRCLINE: graph.rs:734-749, state.rs:366-391 -/
theorem keeps_of_shown (budget : ℕ) (seen : Multiset WireSpan) (m m' : ConsoleModel) (now : ℕ)
    (span : WireSpan) (hseen : Countable (AggregatorOp.seen (.absorb span) + seen))
    (h : SelfLogged budget seen m) (hgrows : EvictsNothing m (now, .spanReceived span))
    (hdrops : DropsNothing m (now, .spanReceived span))
    (hturn : turn m (now, .spanReceived span) = some m') (hnone : m.agg.splitKeys = ∅)
    (hshown : SelfShown m') : KeepsSelfTimes m (now, .spanReceived span) := by
  obtain ⟨r, habsorb, hagg, hgrown, h'⟩ := h.arrives m' now span hseen hgrows hturn
  have horder := hgrown.order_eq
  have hnone' : r.1.splitKeys = ∅ := by
    have hconfig := absorb_config m.agg span r habsorb
    exact (congrArg (fun c => c.2.1) hconfig).trans hnone
  cases hview : m.view with
  | graph gs =>
    simp only [KeepsSelfTimes, hview]
    intro hmetric hkeys hclosed p hp e he hstack
    have hparent : span.parentId = some p := hp
    obtain ⟨hbinned, store, gs', hrun, hview', hsame⟩ :=
      arrival_graph now m m' span gs r habsorb hview hturn
    -- what is stored are the old self times, and behind them those of the inserted spans
    have hold := (h.logged gs hview hmetric hkeys).keeps budget seen
      (hseen.mono _ _ (Multiset.le_add_left _ _)) h.booked hmetric hkeys
    have hstored := keeps_records _ gs.store store _ hold
      (sample_unsplit budget _ r.1 gs h' hmetric hkeys _) (hdrops _ hbinned) hrun
    rw [valuesOf_locked budget _ r.1 gs hseen h' hmetric hkeys] at hstored
    have hfigures := hshown gs' hview' (hsame.metric.trans hmetric)
      (hsame.splitKeys.trans hkeys) (by rw [hagg]; exact hnone')
    rw [hsame.store, hsame.lockedStack, storedFigures_eq store _ hstored, hagg,
      rowFigures_eq budget _ r.1 h' hnone', horder, selfValues_append] at hfigures
    have hsum := congrArg Figures.sumNs hfigures
    simp only [figuresOf, List.sum_append, Nat.add_right_cancel_iff] at hsum
    have hin : p ∈ m.agg.order := by
      rw [h.booked.kept.locked.mem_iff]
      exact ExtTreeMap.isSome_getElem?_iff_mem.mp (by rw [he]; rfl)
    have hlocated := hgrown.old p hin
    rw [located, located, he, Option.map_some] at hlocated
    obtain ⟨e', he', hread⟩ := Option.map_eq_some_iff.mp hlocated
    obtain ⟨-, hread⟩ := Prod.mk.inj hread
    obtain ⟨hbucket, htotal⟩ := Prod.mk.inj hread
    have hprice := price_of_sum m.agg r.1 gs.lockedStack m.agg.order p e e'
      h.booked.kept.locked.nodup hin (fun id hid hother =>
        priced_absorb budget seen m.agg span r hseen h.booked habsorb horder hgrown id hid
          fun _ hchild => absurd (Option.some.inj (hchild.symm.trans hparent)) hother)
      he he' hstack (by rw [hbucket]; exact hstack) hsum.symm
    rw [h'.settled.wrapped.self_eq p e' he', h.booked.settled.wrapped.self_eq p e he, htotal,
      childSumFor_absorb budget seen m.agg span r hseen h.booked habsorb horder hclosed p hin,
      if_pos hparent] at hprice
    exact hprice
  | _ => simp only [KeepsSelfTimes, hview]

/-- INTERNAL: the spans received are distinct and a `u32` counts them. -/
theorem countable_received (updates : List (ℕ × Update))
    (hids : ((receivedSpans updates).map WireSpan.id).Nodup)
    (hcount : (receivedSpans updates).length ≤ 2 ^ 32) :
    Countable (0 + (receivedSpans updates : Multiset WireSpan)) where
  ids := distinctIds_start (receivedSpans updates) hids
  closed w hw := by
    rw [zero_add, Multiset.mem_coe] at hw
    unfold receivedSpans absorbedSpans at hw
    obtain ⟨op, -, hop⟩ := List.mem_filterMap.mp hw
    split at hop
    · split at hop
      · next hclosed =>
        cases hop
        exact hclosed
      · cases hop
    · cases hop
  card := by
    rw [zero_add, Multiset.coe_card]
    exact hcount

/-- INTERNAL: the spans of a run, in two parts. -/
theorem receivedSpans_append (updates later : List (ℕ × Update)) :
    receivedSpans (updates ++ later) = receivedSpans updates ++ receivedSpans later := by
  unfold receivedSpans absorbedSpans
  rw [List.filterMap_append, List.filterMap_append]

/-- CODE: graph.rs:728-749, core.rs:335-363, state.rs:366-391 — **a graph of self times shows the
self times of the table after every run in which no arrival reprices a sampled span**, whatever
the order of parents and children; and the next update keeps it so exactly when it reprices none
either. -/
theorem self_time_shown (budget : ℕ) (updates : List (ℕ × Update)) (m : ConsoleModel)
    (hids : ((receivedSpans updates).map WireSpan.id).Nodup)
    (hcount : (receivedSpans updates).length ≤ 2 ^ 32)
    (hgrows : RunsUnder turn EvictsNothing (ConsoleModel.new budget) updates)
    (hdrops : RunsUnder turn DropsNothing (ConsoleModel.new budget) updates)
    (hkeeps : RunsUnder turn KeepsSelfTimes (ConsoleModel.new budget) updates)
    (hrun : run turn (ConsoleModel.new budget) updates = some m) :
    SelfShown m ∧ ∀ x m', ((receivedSpans (updates ++ [x])).map WireSpan.id).Nodup →
      (receivedSpans (updates ++ [x])).length ≤ 2 ^ 32 → EvictsNothing m x → DropsNothing m x →
        turn m x = some m' → m.agg.splitKeys = ∅ → (SelfShown m' ↔ KeepsSelfTimes m x) := by
  have hseen := countable_received updates hids hcount
  have hlogged := selfLogged_run budget updates 0 (ConsoleModel.new budget) m hseen
    (selfLogged_new budget) hgrows hdrops hkeeps hrun
  refine ⟨hlogged.shown hseen, fun x m' hids' hcount' hevicts hdropped hturn hnone => ?_⟩
  have hseen' := countable_received (updates ++ [x]) hids' hcount'
  rw [receivedSpans_append, ← Multiset.coe_add, ← add_assoc] at hseen'
  constructor
  · intro hshown
    obtain ⟨now, u⟩ := x
    by_cases hspan : ∃ span, u = .spanReceived span
    · obtain ⟨span, rfl⟩ := hspan
      rw [add_comm (0 + _)] at hseen'
      exact keeps_of_shown budget _ m m' now span hseen' hlogged hevicts hdropped hturn hnone
        hshown
    · push Not at hspan
      unfold KeepsSelfTimes
      split
      · next span _ hu _ => exact absurd hu (hspan span)
      · trivial
  · intro hkept
    have hnext := selfLogged_turn budget _ m m' x hseen' hlogged hevicts hdropped hkept hturn
    exact hnext.shown hseen'

/-- INTERNAL: what the graph and what the table shows of the self times of its stack. -/
def shownFigures (m : ConsoleModel) : Option (Figures × Figures) :=
  match m.view with
  | .graph gs =>
    if gs.metric = .selfTime ∧ gs.splitKeys = ∅ ∧ m.agg.splitKeys = ∅ then
      some (binFigures (storedBins gs.store), rowFigures m.agg gs.lockedStack)
    else none
  | _ => none

/-- INTERNAL: the chart shows the self times if each figure is its row's. -/
theorem selfShown_iff (m : ConsoleModel) : SelfShown m ↔ ∀ x ∈ shownFigures m, x.1 = x.2 := by
  unfold SelfShown shownFigures
  cases m.view with
  | graph gs =>
    by_cases h : gs.metric = .selfTime ∧ gs.splitKeys = ∅ ∧ m.agg.splitKeys = ∅
    · simp [h]
    · simp only [if_neg h]
      constructor
      · intro _ x hx
        cases hx
      · rintro - gs' hview hmetric hkeys hnone
        cases hview
        exact absurd ⟨hmetric, hkeys, hnone⟩ h
  | _ => simp

/-- INTERNAL: decidable. -/
instance (m : ConsoleModel) : Decidable (SelfShown m) :=
  decidable_of_iff _ (selfShown_iff m).symm

/-- INTERNAL: a graph of self times is open while a grandchild arrives and then its parent, another
root with the same stack. -/
def familyUpdates : List (ℕ × Update) :=
  [(0, .spanReceived (plainSpan 1 none 7)), (0, .toggleGraph), (0, .toggleGraphMetric),
    (0, .spanReceived (plainSpan 3 (some 2) 2)), (0, .spanReceived (plainSpan 2 none 5))]

/-- CODE: graph.rs:728-749, core.rs:335-363, state.rs:366-391 — the parked child is counted when
its parent is sampled; a child that comes after its parent is not. -/
theorem self_time_shown_family : ∃ m, run turn (ConsoleModel.new 10) familyUpdates = some m ∧
    shownFigures m = some (⟨2, 10, 3, 7⟩, ⟨2, 10, 3, 7⟩) ∧ SelfShown m ∧
      ∀ m', turn m (0, .spanReceived (plainSpan 4 (some 1) 1)) = some m' → ¬ SelfShown m' := by
  have hafter : (run turn (ConsoleModel.new 10) familyUpdates).bind (fun m =>
      (shownFigures m).map fun x => (x, decide (m.agg.splitKeys = ∅ ∧
        EvictsNothing m (0, .spanReceived (plainSpan 4 (some 1) 1)) ∧
          DropsNothing m (0, .spanReceived (plainSpan 4 (some 1) 1)) ∧
            ¬ KeepsSelfTimes m (0, .spanReceived (plainSpan 4 (some 1) 1))))) =
              some ((⟨2, 10, 3, 7⟩, ⟨2, 10, 3, 7⟩), true) := by
    decide +kernel
  obtain ⟨m, hrun, hread⟩ := Option.bind_eq_some_iff.mp hafter
  obtain ⟨x, hfigures, hx⟩ := Option.map_eq_some_iff.mp hread
  obtain ⟨rfl, hnext⟩ := Prod.mk.inj hx
  obtain ⟨hnone, hevicts, hdrops, hcharges⟩ := of_decide_eq_true hnext
  obtain ⟨hshown, hiff⟩ := self_time_shown 10 familyUpdates m (by decide) (by decide)
    (by decide +kernel) (by decide +kernel) (by decide +kernel) hrun
  refine ⟨m, hrun, hfigures, hshown, fun m' hturn hshown' => hcharges ?_⟩
  exact (hiff _ m' (by decide) (by decide) hevicts hdrops hturn hnone).mp hshown'

/-- INTERNAL: a graph of self times is open on a root when a child of it arrives. -/
def lateChild : List (ℕ × Update) :=
  [(0, .spanReceived (plainSpan 1 none 7)), (0, .toggleGraph), (0, .toggleGraphMetric),
    (0, .spanReceived (plainSpan 2 (some 1) 3))]

/-- CODE: graph.rs:728-749, core.rs:335-363, state.rs:366-391 — **the graph keeps the self time the
root had when it was sampled**, 7, and the table shows 4. -/
theorem late_child_unseen : ((receivedSpans lateChild).map WireSpan.id).Nodup ∧
    RunsUnder turn EvictsNothing (ConsoleModel.new 10) lateChild ∧
      RunsUnder turn DropsNothing (ConsoleModel.new 10) lateChild ∧
        ∃ m, run turn (ConsoleModel.new 10) lateChild = some m ∧
          shownFigures m = some (⟨1, 7, 7, 7⟩, ⟨1, 4, 4, 4⟩) ∧ ¬ SelfShown m := by
  refine ⟨by decide, by decide +kernel, by decide +kernel, ?_⟩
  have hafter : (run turn (ConsoleModel.new 10) lateChild).bind shownFigures =
      some (⟨1, 7, 7, 7⟩, ⟨1, 4, 4, 4⟩) := by
    decide +kernel
  obtain ⟨m, hrun, hfigures⟩ := Option.bind_eq_some_iff.mp hafter
  refine ⟨m, hrun, hfigures, ?_⟩
  rw [selfShown_iff]
  intro hsame
  have hequal := hsame _ hfigures
  cases hequal

end TracingConsole.Analysis.Console
