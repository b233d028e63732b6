import TracingConsole.Analysis.GraphBins
import TracingConsole.Analysis.GraphRecords
import TracingConsole.Analysis.RingBounds
import TracingConsole.Analysis.SnapshotRoundTrip
import TracingConsole.Model.Reload

/-!
# The window a graph divides by

The close time of every sample is divided by the window of the store it goes into.  That window
is rounded from the graph's seconds, except after a model was read back, where it is the default
0: a run that commits no window below half a nanosecond and reads back no graph keeps it positive
(`windowed_happen`), and no other does (`staysSound_iff`).
-/

set_option autoImplicit false

namespace TracingConsole.Analysis.Console

open TracingConsole.Library TracingConsole.Model TracingConsole.Model.ConsoleModel

/-! ## A division by zero -/

/-- INTERNAL: recording the samples reaches the division by the window, and that is zero.
SRCLINE: graph.rs:241-251 -/
def ReachesZero (store : GraphSeriesStore) (samples : List (Option (SeriesKey × ℕ × ℕ))) : Prop :=
  ∃ before key closed value after reached,
    samples = before ++ some (key, closed, value) :: after ∧
      before.foldlM recordSample store = some reached ∧ reached.windowNs = 0 ∧
      (reached.anchor closed).originNs ≤ closed

/-- INTERNAL: a sample leaves the window. -/
theorem recordSample_windowNs (store store' : GraphSeriesStore)
    (sample : Option (SeriesKey × ℕ × ℕ)) (h : recordSample store sample = some store') :
    store'.windowNs = store.windowNs := by
  cases sample with
  | none =>
    cases h
    rfl
  | some call =>
    cases record_cases store store' call h with
    | inl hanchor => rw [hanchor, anchor_windowNs]
    | inr hrecorded =>
      obtain ⟨series, -, hstore⟩ := hrecorded
      rw [hstore]
      exact anchor_windowNs store call.2.1

/-- INTERNAL: records leave the window. -/
theorem samples_windowNs (samples : List (Option (SeriesKey × ℕ × ℕ)))
    (store store' : GraphSeriesStore) (h : samples.foldlM recordSample store = some store') :
    store'.windowNs = store.windowNs :=
  run_invariant recordSample (fun s => s.windowNs = store.windowNs)
    (fun s sample s' hs hstep => (recordSample_windowNs s s' sample hstep).trans hs)
    store samples store' rfl h

/-- INTERNAL: with a positive window no sample divides by zero. -/
theorem not_reachesZero (store : GraphSeriesStore)
    (samples : List (Option (SeriesKey × ℕ × ℕ))) (h : 0 < store.windowNs) :
    ¬ ReachesZero store samples := by
  rintro ⟨before, key, closed, value, after, reached, -, hreached, hzero, -⟩
  have hsame := samples_windowNs before store reached hreached
  omega

/-- INTERNAL: under a window of zero only the division can stop the records of a fresh store:
its first sample reaches it. -/
theorem reachesZero_of_stuck (store : GraphSeriesStore)
    (samples : List (Option (SeriesKey × ℕ × ℕ))) (hwindow : store.windowNs = 0)
    (horigin : store.originNs = 0) (hstuck : samples.foldlM recordSample store = none) :
    ReachesZero store samples := by
  induction samples with
  | nil => cases hstuck
  | cons sample samples ih =>
    cases sample with
    | none =>
      obtain ⟨before, key, closed, value, after, reached, hsplit, hreached, hrest⟩ := ih hstuck
      exact ⟨none :: before, key, closed, value, after, reached, by rw [hsplit]; rfl, hreached,
        hrest⟩
    | some call =>
      obtain ⟨key, closed, value⟩ := call
      refine ⟨[], key, closed, value, samples, store, rfl, rfl, hwindow, ?_⟩
      unfold GraphSeriesStore.anchor
      rw [if_pos horigin]
      exact Nat.sub_le _ _

/-! ## A model can be read back -/

/-- INTERNAL: a ring that holds spans has room for them. -/
def Replayable (agg : Aggregator) : Prop := agg.order = [] ∨ 0 < agg.historyBudget

/-- INTERNAL: with the budget 0 nothing is placed. -/
theorem barred_order (agg agg' : Aggregator) (span : WireSpan) (ins : List ℕ)
    (hbudget : agg.historyBudget = 0) (horder : agg.order = [])
    (h : agg.absorb span = some (agg', ins)) : agg'.order = [] := by
  unfold Aggregator.absorb at h
  split at h
  · cases h
    exact horder
  · have hcascade := absorbResolved_cascade _ agg agg' span [] ins h []
    have hkept := cascades_invariant
      (fun c => c.agg.historyBudget = 0 ∧ c.agg.order = []) ?_ _ _ ⟨hbudget, horder⟩ hcascade
    · exact hkept.2
    · intro c c' hold hstep
      rcases cascadeStep_cases c c' hstep with
        ⟨w, rest, p, -, -, -, rfl⟩ | ⟨w, rest, b, r, a', -, -, hplace, rfl⟩
      · obtain ⟨hconfig, hqueue, -, -, -⟩ := parkPending_frame c.agg p w
        exact ⟨(congrArg (fun c => c.2.2) hconfig).trans hold.1, hqueue.trans hold.2⟩
      · unfold Aggregator.place Aggregator.makeRoom at hplace
        rw [makeRoom_never _ c.agg hold.1] at hplace
        cases hplace

/-- INTERNAL: every operation leaves a ring that can be fed back. -/
theorem replayable_perform (agg agg' : Aggregator) (op : AggregatorOp) (h : Replayable agg)
    (hop : op.perform agg = some agg') : Replayable agg' := by
  by_cases hbudget : 0 < agg.historyBudget
  · obtain ⟨other, hother, hsame⟩ := perform_total agg op hbudget
    obtain rfl : other = agg' := Option.some.inj (hother.symm.trans hop)
    exact Or.inr (hsame ▸ hbudget)
  · have horder := h.resolve_right hbudget
    have hzero : agg.historyBudget = 0 := Nat.eq_zero_of_not_pos hbudget
    refine Or.inl ?_
    cases op with
    | absorb span =>
      obtain ⟨⟨other, ins⟩, habsorb, hsame⟩ := Option.map_eq_some_iff.mp hop
      subst hsame
      exact barred_order agg other span ins hzero horder habsorb
    | setSplitKeys keys =>
      change agg.setSplitKeys keys = some agg' at hop
      unfold Aggregator.setSplitKeys at hop
      split at hop
      · cases hop
        exact horder
      · unfold Aggregator.rebuildBuckets at hop
        dsimp only at hop
        rw [horder] at hop
        cases hop
        rfl

/-- INTERNAL: **the snapshot of such a ring can be loaded**.
SRCLINE: state.rs:546-563 -/
theorem replayable_reload (agg : Aggregator) (h : Replayable agg) :
    ∃ agg', Aggregator.deserialize agg.serialize = some agg' ∧ Replayable agg' := by
  have hparked : ∀ b : Aggregator, Replayable b →
      Replayable (agg.serialize.pending.toList.foldl (fun a kv => a.parkAll kv.1 kv.2) b) := by
    intro b hb
    obtain ⟨pending, len, hframe⟩ := parkBuckets_frame agg.serialize.pending.toList b
    rw [hframe]
    exact hb
  have hreplay : ∃ b, run absorbStep
      { Aggregator.new agg.historyBudget with splitKeys := agg.splitKeys }
      agg.serialize.spansInOrder = some b ∧ Replayable b := by
    by_cases hbudget : 0 < agg.historyBudget
    · have hempty := pooled_new agg.historyBudget
      obtain ⟨b, hrun, hbounded⟩ := absorbs_total agg.historyBudget hbudget
        agg.serialize.spansInOrder
        { Aggregator.new agg.historyBudget with splitKeys := agg.splitKeys }
        ⟨rfl, Nat.zero_le _, ⟨hempty.counted, hempty.bounded, hempty.cap_eq⟩⟩
      exact ⟨b, hrun, Or.inr (hbounded.budget_eq ▸ hbudget)⟩
    · have hnone : agg.serialize.spansInOrder = [] := by
        unfold Aggregator.serialize Aggregator.ringEntries
        rw [h.resolve_right hbudget]
        rfl
      rw [hnone]
      exact ⟨_, rfl, Or.inl rfl⟩
  obtain ⟨b, hrun, hreplay⟩ := hreplay
  refine ⟨_, ?_, hparked b hreplay⟩
  unfold Aggregator.deserialize
  exact congrArg (Option.map _) hrun

/-! ## What happens to a model -/

/-- INTERNAL: an update at some time, or the model is stored and read back. -/
inductive Happening where
  | update (now : ℕ) (u : Update)
  | reload

/-- INTERNAL: what happens to a model. -/
def happen (m : ConsoleModel) : Happening → Option ConsoleModel
  | .update now u => turn m (now, u)
  | .reload => m.reload

/-- INTERNAL: **the store of the graph has a window**, and no further span, split or metric
reaches a division by zero. -/
structure WindowSound (m : ConsoleModel) : Prop where
  window : ∀ gs, m.view = .graph gs → 0 < gs.store.windowNs
  span : ∀ span b, binned m (.spanReceived span) = some b →
    ¬ ReachesZero b.graph.store b.samples
  split : ∀ b, binned m .graphToggleSplit = some b → ¬ ReachesZero b.graph.store b.samples
  metric : ∀ b, binned m .toggleGraphMetric = some b → ¬ ReachesZero b.graph.store b.samples

/-- INTERNAL: the happening reaches no division by zero, from a sound model to a sound one. -/
structure StaysSound (m : ConsoleModel) (x : Happening) : Prop where
  before : WindowSound m
  divides : ∀ now u b, x = .update now u → binned m u = some b →
    ¬ ReachesZero b.graph.store b.samples
  after : ∀ m', happen m x = some m' → WindowSound m'

/-- INTERNAL: a window that is committed is at least half a nanosecond, and a model that is read
back shows no graph. -/
def KeepsWindow (m : ConsoleModel) : Happening → Prop
  | .update _ u => u = .graphWindowInputCommit → ∀ gs v, m.view = .graph gs →
      committedWindow gs = some v → 1 / 2 ≤ v * 1000000000
  | .reload => ∀ gs, m.view ≠ .graph gs

/-- INTERNAL: what a run keeps: a window in the store, seconds that make one again, and a ring
that can be replayed. -/
structure Windowed (m : ConsoleModel) : Prop where
  window : ∀ gs, m.view = .graph gs → 0 < gs.store.windowNs
  seconds : ∀ gs, m.view = .graph gs → 0 < windowNsFromSecs gs.windowSecs
  replayable : Replayable m.agg

/-- INTERNAL: the console starts in the table. -/
theorem windowed_new (budget : ℕ) : Windowed (ConsoleModel.new budget) := by
  have hview : ∀ gs, (ConsoleModel.new budget).view ≠ .graph gs := by
    intro gs
    change ViewMode.table ≠ .graph gs
    exact nofun
  exact ⟨fun gs h => absurd h (hview gs), fun gs h => absurd h (hview gs), Or.inl rfl⟩

/-- INTERNAL: SRCLINE: graph.rs:460-468 -/
theorem windowNs_pos_iff (v : ℚ) (hv : 0 < v) :
    0 < windowNsFromSecs v ↔ 1 / 2 ≤ v * 1000000000 := by
  unfold windowNsFromSecs
  rw [if_neg (not_le_of_gt hv), lt_min_iff, Nat.floor_pos]
  constructor
  · rintro ⟨hfloor, -⟩
    linarith
  · intro hhalf
    exact ⟨by linarith, by norm_num⟩

/-- INTERNAL: a second is a positive window. -/
theorem windowNs_one : 0 < windowNsFromSecs 1 := by
  rw [windowNs_pos_iff 1 one_pos]
  norm_num

/-- INTERNAL: what is committed is positive before it is rounded. -/
theorem committedWindow_pos (gs : GraphState) (v : ℚ) (h : committedWindow gs = some v) :
    0 < v := by
  unfold committedWindow at h
  obtain ⟨buf, -, h⟩ := Option.bind_eq_some_iff.mp h
  obtain ⟨w, -, h⟩ := Option.bind_eq_some_iff.mp h
  split at h
  · next hpos =>
    cases h
    exact hpos
  · cases h

/-- INTERNAL: **what is binned has a window**, whatever the update. -/
theorem binned_window (m : ConsoleModel) (now : ℕ) (u : Update) (b : Binning) (h : Windowed m)
    (hkeeps : KeepsWindow m (.update now u)) (hb : binned m u = some b) :
    0 < b.graph.store.windowNs ∧ 0 < windowNsFromSecs b.graph.windowSecs := by
  have hrebuilds : ∀ gs, 0 < windowNsFromSecs gs.windowSecs →
      0 < (rebuilding m.agg gs).graph.store.windowNs ∧
        0 < windowNsFromSecs (rebuilding m.agg gs).graph.windowSecs := fun gs hgs => ⟨hgs, hgs⟩
  cases u with
  | spanReceived span =>
    simp only [binned] at hb
    cases hview : m.view with
    | graph gs =>
      rw [hview] at hb
      obtain ⟨r, -, rfl⟩ := Option.map_eq_some_iff.mp hb
      exact ⟨h.window gs hview, h.seconds gs hview⟩
    | _ => simp [hview] at hb
  | toggleGraphMetric =>
    simp only [binned] at hb
    cases hview : m.view with
    | graph gs =>
      rw [hview] at hb
      cases hb
      exact hrebuilds _ (h.seconds gs hview)
    | _ => simp [hview] at hb
  | graphWindowInputCommit =>
    simp only [binned] at hb
    cases hview : m.view with
    | graph gs =>
      rw [hview] at hb
      obtain ⟨v, hv, rfl⟩ := Option.map_eq_some_iff.mp hb
      have hpos := committedWindow_pos gs v hv
      exact hrebuilds _ ((windowNs_pos_iff v hpos).mpr (hkeeps rfl gs v hview hv))
    | _ => simp [hview] at hb
  | graphToggleSplit =>
    simp only [binned] at hb
    cases hview : m.view with
    | graph gs =>
      rw [hview] at hb
      obtain ⟨k, -, rfl⟩ := Option.map_eq_some_iff.mp hb
      exact hrebuilds _ (h.seconds gs hview)
    | _ => simp [hview] at hb
  | toggleGraph =>
    simp only [binned] at hb
    cases hview : m.view with
    | table =>
      rw [hview] at hb
      obtain ⟨row, -, rfl⟩ := Option.map_eq_some_iff.mp hb
      exact hrebuilds _ windowNs_one
    | _ => simp [hview] at hb
  | enterGraph =>
    simp only [binned] at hb
    cases hview : m.view with
    | table =>
      rw [hview] at hb
      obtain ⟨row, -, rfl⟩ := Option.map_eq_some_iff.mp hb
      exact hrebuilds _ windowNs_one
    | graph gs => simp [hview] at hb
    | _ =>
      rw [hview] at hb
      cases hb
      exact hrebuilds _ windowNs_one
  | _ => cases hb

/-- INTERNAL: SRCLINE: core.rs:333-1203 -/
theorem windowed_update (m m' : ConsoleModel) (now : ℕ) (u : Update) (h : Windowed m)
    (hkeeps : KeepsWindow m (.update now u)) (hstep : happen m (.update now u) = some m') :
    Windowed m' := by
  obtain ⟨⟨m', e⟩, happly, rfl⟩ := Option.map_eq_some_iff.mp hstep
  dsimp only at happly ⊢
  -- the graph, if there is one, has the store it had or the one that was made
  have hgraph : ∀ gs', m'.view = .graph gs' →
      0 < gs'.store.windowNs ∧ 0 < windowNsFromSecs gs'.windowSecs := by
    intro gs' hview'
    have hrecords := apply_records now m u
    cases hb : binned m u with
    | none =>
      rw [hb] at hrecords
      obtain ⟨gs, hview, hsame⟩ := hrecords m' e happly gs' hview'
      rw [hsame.store, hsame.windowSecs]
      exact ⟨h.window gs hview, h.seconds gs hview⟩
    | some b =>
      rw [hb] at hrecords
      obtain ⟨done, hdone, hends⟩ := hrecords
      rw [hdone] at happly
      obtain ⟨store, hstore, hlast⟩ := Option.map_eq_some_iff.mp happly
      obtain ⟨gs, hview, hsame⟩ := hends store
      rw [hlast, hview'] at hview
      cases hview
      rw [hsame.store, hsame.windowSecs]
      have hpos := binned_window m now u b h hkeeps hb
      exact ⟨(samples_windowNs b.samples b.graph.store store hstore).symm ▸ hpos.1, hpos.2⟩
  refine ⟨fun gs' hview' => (hgraph gs' hview').1, fun gs' hview' => (hgraph gs' hview').2, ?_⟩
  cases apply_moves now m m' u e happly with
  | absorbs span r hu habsorb hagg _ _ _ =>
    rw [hagg]
    exact replayable_perform m.agg r.1 (.absorb span) h.replayable
      (by rw [AggregatorOp.perform, habsorb]; rfl)
  | splits keys hu hsplit _ _ _ =>
    exact replayable_perform m.agg m'.agg (.setSplitKeys keys) h.replayable hsplit
  | shows hagg _ _ =>
    rw [hagg]
    exact h.replayable

/-- INTERNAL: a console read back outside the chart has no window to lose. -/
theorem windowed_reload (m m' : ConsoleModel) (h : Windowed m)
    (hkeeps : KeepsWindow m .reload) (hstep : happen m .reload = some m') : Windowed m' := by
  obtain ⟨agg, hreplay, hread⟩ := replayable_reload m.agg h.replayable
  change m.reload = some m' at hstep
  unfold ConsoleModel.reload at hstep
  rw [hreplay] at hstep
  cases hstep
  have hview : ∀ gs, m.view.reload ≠ .graph gs := by
    intro gs hgs
    cases hold : m.view with
    | graph gs₀ => exact hkeeps gs₀ hold
    | _ => simp [ViewMode.reload, hold] at hgs
  exact ⟨fun gs hgs => absurd hgs (hview gs), fun gs hgs => absurd hgs (hview gs), hread⟩

/-- INTERNAL: what one happening preserves. -/
theorem windowed_happen (m : ConsoleModel) (x : Happening) (m' : ConsoleModel) (h : Windowed m)
    (hkeeps : KeepsWindow m x) (hstep : happen m x = some m') : Windowed m' := by
  cases x with
  | update now u => exact windowed_update m m' now u h hkeeps hstep
  | reload => exact windowed_reload m m' h hkeeps hstep

/-- INTERNAL: a positive window is sound. -/
theorem Windowed.sound {m : ConsoleModel} (h : Windowed m) : WindowSound m where
  window := h.window
  span span b hb := by
    have hkeeps : KeepsWindow m (.update 0 (.spanReceived span)) := nofun
    exact not_reachesZero _ _ (binned_window m 0 _ b h hkeeps hb).1
  split b hb := by
    have hkeeps : KeepsWindow m (.update 0 .graphToggleSplit) := nofun
    exact not_reachesZero _ _ (binned_window m 0 _ b h hkeeps hb).1
  metric b hb := by
    have hkeeps : KeepsWindow m (.update 0 .toggleGraphMetric) := nofun
    exact not_reachesZero _ _ (binned_window m 0 _ b h hkeeps hb).1

/-! ## Exactly when the window stays positive -/

/-- INTERNAL: a committed window that rounds to zero is divided by, or left in the store.
SRCLINE: core.rs:637-651, graph.rs:240-252, 460-468 -/
theorem staysSound_commit (m : ConsoleModel) (now : ℕ) (gs : GraphState) (v : ℚ)
    (hview : m.view = .graph gs) (hv : committedWindow gs = some v)
    (h : StaysSound m (.update now .graphWindowInputCommit)) : 1 / 2 ≤ v * 1000000000 := by
  rw [← windowNs_pos_iff v (committedWindow_pos gs v hv)]
  by_contra hzero
  have hb : binned m .graphWindowInputCommit =
      some (rebuilding m.agg { gs with windowInput := none, windowSecs := v }) := by
    simp only [binned, hview, hv, Option.map_some]
  have hrecords := apply_records now m .graphWindowInputCommit
  rw [hb] at hrecords
  obtain ⟨done, hdone, hends⟩ := hrecords
  generalize hbinning : rebuilding m.agg { gs with windowInput := none, windowSecs := v } = b at *
  have hwindow : b.graph.store.windowNs = 0 := by
    rw [← hbinning]
    exact Nat.eq_zero_of_not_pos hzero
  have horigin : b.graph.store.originNs = 0 := by
    rw [← hbinning]
    rfl
  cases hfold : b.samples.foldlM recordSample b.graph.store with
  | none => exact h.divides now _ b rfl hb (reachesZero_of_stuck _ _ hwindow horigin hfold)
  | some store =>
    rw [hfold, Option.map_some] at hdone
    obtain ⟨gs', hview', hsame⟩ := hends store
    have hafter := (h.after (done store).1 (congrArg (Option.map Prod.fst) hdone)).window gs' hview'
    rw [hsame.store] at hafter
    have hkept := samples_windowNs b.samples b.graph.store store hfold
    exact absurd hafter (by dsimp only; omega)

/-- INTERNAL: a graph that is read back has no window.
SRCLINE: graph.rs:586-592 -/
theorem staysSound_reload (m : ConsoleModel) (h : Windowed m) (hsound : StaysSound m .reload)
    (gs : GraphState) : m.view ≠ .graph gs := by
  intro hview
  obtain ⟨agg, hreplay, -⟩ := replayable_reload m.agg h.replayable
  have hread : happen m .reload = some { m with
      agg := agg
      quitConfirmDeadline := none
      view := .graph { gs with store := GraphSeriesStore.default }
      rate := RateTracker.default } := by
    change m.reload = _
    unfold ConsoleModel.reload
    rw [hreplay, hview]
    rfl
  have hpos := (hsound.after _ hread).window _ rfl
  exact Nat.lt_irrefl 0 hpos

/-- INTERNAL: a happening stays sound if and only if it keeps the window. -/
theorem staysSound_iff (m : ConsoleModel) (x : Happening) (h : Windowed m) :
    StaysSound m x ↔ KeepsWindow m x := by
  constructor
  · intro hsound
    cases x with
    | update now u =>
      intro hu gs v hview hv
      subst hu
      exact staysSound_commit m now gs v hview hv hsound
    | reload => exact staysSound_reload m h hsound
  · intro hkeeps
    refine ⟨h.sound, ?_, fun m' hstep => (windowed_happen m x m' h hkeeps hstep).sound⟩
    intro now u b hx hb
    subst hx
    exact not_reachesZero _ _ (binned_window m now u b h hkeeps hb).1

/-- CODE: graph.rs:240-252, 460-468, 586-592, core.rs:637-651 — **exactly when binning never
divides by zero**, over every sequence of updates and of stores and reads of the model: when
every committed window is at least half a nanosecond and no model is read back in the graph
view. -/
theorem graph_window_positive_iff (budget : ℕ) (xs : List Happening) :
    RunsUnder happen StaysSound (ConsoleModel.new budget) xs ↔
      RunsUnder happen KeepsWindow (ConsoleModel.new budget) xs :=
  runsUnder_congr happen StaysSound KeepsWindow Windowed staysSound_iff windowed_happen
    (ConsoleModel.new budget) xs (windowed_new budget)

/-- INTERNAL: the window of the graph a run ends in, and of the store that the next span is
recorded into, its origin, and whether its records stop. -/
def windowsNext (span : WireSpan) (m : ConsoleModel) : Option (ℕ × ℕ × ℕ × Bool) :=
  match m.view with
  | .graph gs =>
    (binned m (.spanReceived span)).map fun b =>
      (gs.store.windowNs, b.graph.store.windowNs, b.graph.store.originNs,
        (b.samples.foldlM recordSample b.graph.store).isNone)
  | _ => none

/-- INTERNAL: a graph is opened, and its stack leaves the ring before a window is typed. -/
def beforeTyping : List Happening :=
  [.update 0 (.spanReceived (plainSpan 1 none 7)), .update 0 .toggleGraph,
    .update 0 (.spanReceived { plainSpan 2 none 7 with name := "other" }),
    .update 0 .beginGraphWindowInput]

/-- INTERNAL: a tenth of a nanosecond is typed after its point, and committed. -/
def tinyDigits : List Happening :=
  ("0000000001".toList.map fun c => .update 0 (.graphWindowInputChar c)) ++
    [.update 0 .graphWindowInputCommit]

/-- INTERNAL: a window of a tenth of a nanosecond is typed, and a span arrives. -/
def tinyWindow : List Happening :=
  beforeTyping ++ .update 0 (.graphWindowInputChar '.') :: tinyDigits

/-- INTERNAL: a model is stored and read back while it shows a graph. -/
def readBack : List Happening :=
  [.update 0 (.spanReceived (plainSpan 1 none 7)), .update 0 .toggleGraph, .reload]

/-- INTERNAL: a point is kept. -/
theorem typed_point : pushDigitOrDecimal "" '.' = some "." := by
  unfold pushDigitOrDecimal
  simp

/-- INTERNAL: the point that was typed. -/
def pointed (m : ConsoleModel) : ConsoleModel :=
  m.mapGraph fun gs => { gs with windowInput := some "." }

/-- INTERNAL: the run, cut where the typing begins. -/
theorem run_tinyWindow :
    run happen (ConsoleModel.new 1) tinyWindow =
      (run happen (ConsoleModel.new 1) beforeTyping).bind fun m =>
        run happen (pointed m) tinyDigits := by
  have hopen : ((run happen (ConsoleModel.new 1) beforeTyping).bind fun m =>
      match m.view with
      | .graph gs => gs.windowInput
      | _ => none) = some "" := by
    decide +kernel
  obtain ⟨m, hrun, hinput⟩ := Option.bind_eq_some_iff.mp hopen
  have hpoint : happen m (.update 0 (.graphWindowInputChar '.')) = some (pointed m) := by
    change some (m.mapGraph fun gs => { gs with
      windowInput := gs.windowInput.map fun buf => (pushDigitOrDecimal buf '.').getD buf }) = _
    unfold pointed mapGraph
    cases hview : m.view with
    | graph gs =>
      rw [hview] at hinput
      dsimp only at hinput ⊢
      rw [hinput, Option.map_some, typed_point]
      rfl
    | _ => simp [hview] at hinput
  unfold tinyWindow
  rw [run_append, hrun, Option.bind_some, Option.bind_some, run_cons, hpoint]
  rfl

/-- INTERNAL: a graph without a window, and a span that makes it divide by that. -/
theorem windowless (budget : ℕ) (xs : List Happening) (span : WireSpan)
    (h : (run happen (ConsoleModel.new budget) xs).bind (windowsNext span) =
      some (0, 0, 0, true)) :
    ∃ m, run happen (ConsoleModel.new budget) xs = some m ∧
      (∃ gs, m.view = .graph gs ∧ gs.store.windowNs = 0) ∧
      ∃ b, binned m (.spanReceived span) = some b ∧ ReachesZero b.graph.store b.samples := by
  obtain ⟨m, hrun, hnext⟩ := Option.bind_eq_some_iff.mp h
  unfold windowsNext at hnext
  cases hview : m.view with
  | graph gs =>
    rw [hview] at hnext
    obtain ⟨b, hb, hread⟩ := Option.map_eq_some_iff.mp hnext
    obtain ⟨hgraph, hrest⟩ := Prod.mk.inj hread
    obtain ⟨hwindow, hrest⟩ := Prod.mk.inj hrest
    obtain ⟨horigin, hstuck⟩ := Prod.mk.inj hrest
    exact ⟨m, hrun, ⟨gs, hview, hgraph⟩, b, hb,
      reachesZero_of_stuck _ _ hwindow horigin (Option.isNone_iff_eq_none.mp hstuck)⟩
  | _ => simp [hview] at hnext

/-- CODE: graph.rs:240-252, 460-468, 586-592, core.rs:637-651 — a tenth of a nanosecond is
committed and rounds to a window of 0; a graph that is read back has the default window 0.  The
next span of the graph's stack is divided by it. -/
theorem graph_window_lost :
    (∃ m, run happen (ConsoleModel.new 1) tinyWindow = some m ∧
      (∃ gs, m.view = .graph gs ∧ gs.store.windowNs = 0) ∧
      ∃ b, binned m (.spanReceived (plainSpan 3 none 7)) = some b ∧
        ReachesZero b.graph.store b.samples) ∧
    ∃ m, run happen (ConsoleModel.new 10) readBack = some m ∧
      (∃ gs, m.view = .graph gs ∧ gs.store.windowNs = 0) ∧
      ∃ b, binned m (.spanReceived (plainSpan 3 none 7)) = some b ∧
        ReachesZero b.graph.store b.samples := by
  refine ⟨windowless 1 tinyWindow _ ?_, windowless 10 readBack _ (by decide +kernel)⟩
  rw [run_tinyWindow, Option.bind_assoc]
  decide +kernel

end TracingConsole.Analysis.Console
