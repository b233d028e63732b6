import TracingConsole.Library.Runs
import TracingConsole.Model.GraphStore

/-!
# Recording into the bins of a graph

A series starts at the bin of its first sample and gives up bins at the front only, so a
sample finds its bin exactly when it is not before the series' base.  What may be before it
is a late sample: of a series that first appeared in a later bin, or that has moved on.
-/

set_option autoImplicit false

namespace TracingConsole.Analysis

open Std (ExtTreeMap)
open TracingConsole.Library TracingConsole.Model

/-! ## What can go out of range -/

/-- INTERNAL: the series with its bins filled up to `binIdx` and cut to the cap.
SRCLINE: graph.rs:254-267 -/
def readyFor (series : Series) (binIdx : ℕ) : Series :=
  let series := series.start binIdx
  (series.fill (binIdx + 1 - series.baseIdx)).evict

/-- INTERNAL: the subtractions of a record do not underflow, its addition stays in a word, and
with the bins filled up to the sample's own the slot is an index of the deque.
SRCLINE: graph.rs:254-269 -/
structure BinInRange (series : Series) (binIdx : ℕ) : Prop where
  word : binIdx + 1 < 2 ^ 64
  needed : (series.start binIdx).baseIdx ≤ binIdx + 1
  slot : (readyFor series binIdx).baseIdx ≤ binIdx
  index : binIdx - (readyFor series binIdx).baseIdx < (readyFor series binIdx).bins.length

/-- INTERNAL: a record goes through exactly when everything is in range. -/
theorem series_record_isSome (series : Series) (binIdx value : ℕ) :
    (series.record binIdx value).isSome ↔ BinInRange series binIdx := by
  have hready : (((series.start binIdx).fill
      (binIdx + 1 - (series.start binIdx).baseIdx)).evict) = readyFor series binIdx := rfl
  unfold Series.record
  dsimp only
  rw [hready]
  constructor
  · intro h
    split at h
    · cases h
    · next hword =>
      split at h
      · cases h
      · next hneeded =>
        split at h
        · cases h
        · next hslot =>
          split at h
          · cases h
          · next bin hindex =>
            exact ⟨Nat.lt_of_not_le hword, Nat.le_of_not_lt hneeded, Nat.le_of_not_lt hslot,
              (List.getElem?_eq_some_iff.mp hindex).1⟩
  · intro h
    rw [if_neg (Nat.not_le_of_lt h.word), if_neg (Nat.not_lt_of_le h.needed),
      if_neg (Nat.not_lt_of_le h.slot), List.getElem?_eq_getElem h.index]
    rfl

/-- INTERNAL: a record writes the one slot of the series that is ready for it. -/
theorem series_record_written (series series' : Series) (binIdx value : ℕ)
    (h : series.record binIdx value = some series') :
    ∃ bin, (readyFor series binIdx).bins[binIdx - (readyFor series binIdx).baseIdx]? = some bin ∧
      series' = { readyFor series binIdx with
        bins := (readyFor series binIdx).bins.set (binIdx - (readyFor series binIdx).baseIdx)
          (some ((bin.getD Bin.new).record value)) } := by
  have hready : (((series.start binIdx).fill
      (binIdx + 1 - (series.start binIdx).baseIdx)).evict) = readyFor series binIdx := rfl
  unfold Series.record at h
  dsimp only at h
  rw [hready] at h
  split at h
  · cases h
  · split at h
    · cases h
    · split at h
      · cases h
      · split at h
        · cases h
        · next bin hbin => exact ⟨bin, hbin, (Option.some.inj h).symm⟩

/-- INTERNAL: what a record leaves of a series. -/
theorem series_record_eq (series series' : Series) (binIdx value : ℕ)
    (h : series.record binIdx value = some series') :
    series'.baseIdx = (readyFor series binIdx).baseIdx ∧
      series'.bins.length = (readyFor series binIdx).bins.length := by
  obtain ⟨bin, -, hwritten⟩ := series_record_written series series' binIdx value h
  rw [hwritten]
  generalize readyFor series binIdx = ready
  exact ⟨rfl, List.length_set⟩

/-- INTERNAL: filling adds the bins that are needed. -/
theorem length_fill (series : Series) (neededBack : ℕ) :
    (series.fill neededBack).bins.length = max series.bins.length neededBack := by
  simp only [Series.fill, List.length_append, List.length_replicate]
  rw [Nat.add_comm]
  exact Nat.sub_add_eq_max _ _ |>.trans (Nat.max_comm _ _)

/-- INTERNAL: an eviction cuts the bins at their bound. -/
theorem length_evict (series : Series) :
    series.evict.bins.length = min series.bins.length binCap := by
  simp only [Series.evict, List.length_drop]
  generalize binCap = cap
  omega

/-- INTERNAL: the deque never stays above its cap. -/
theorem length_readyFor (series : Series) (binIdx : ℕ) :
    (readyFor series binIdx).bins.length ≤ binCap := by
  unfold readyFor
  rw [length_evict]
  exact Nat.min_le_right _ _

/-- INTERNAL: a series without bins starts at the sample's. -/
theorem readyFor_first (series : Series) (binIdx : ℕ) (hempty : series.bins = []) :
    (readyFor series binIdx).baseIdx = binIdx ∧ (readyFor series binIdx).bins.length = 1 := by
  have hstart : series.start binIdx = { series with baseIdx := binIdx } := by
    unfold Series.start
    rw [if_pos hempty]
  constructor
  · simp only [readyFor, Series.evict, length_fill, hstart]
    simp only [Series.fill, hempty, List.length_nil, binCap]
    omega
  · simp only [readyFor, length_evict, length_fill, hstart, hempty, List.length_nil, binCap]
    omega

/-- INTERNAL: a series with bins is filled up to the sample's, and cut to the cap. -/
theorem readyFor_next (series : Series) (binIdx : ℕ) (hbins : series.bins ≠ []) :
    (readyFor series binIdx).baseIdx =
        series.baseIdx + (max series.bins.length (binIdx + 1 - series.baseIdx) - binCap) ∧
      (readyFor series binIdx).bins.length =
        min (max series.bins.length (binIdx + 1 - series.baseIdx)) binCap := by
  have hstart : series.start binIdx = series := by
    unfold Series.start
    rw [if_neg hbins]
  constructor
  · simp only [readyFor, Series.evict, length_fill, hstart]
    rfl
  · simp only [readyFor, length_evict, length_fill, hstart]

/-! ## The samples that find their bin -/

/-- INTERNAL: the sample's bin is not before the base of its series, if that has bins. -/
def NotBefore (series : Series) (binIdx : ℕ) : Prop :=
  binIdx + 1 < 2 ^ 64 ∧ (series.bins = [] ∨ series.baseIdx ≤ binIdx)

/-- INTERNAL: **a sample is in range exactly when it is not before the base of its series**. -/
theorem binInRange_iff (series : Series) (binIdx : ℕ) (hcap : series.bins.length ≤ binCap) :
    BinInRange series binIdx ↔ NotBefore series binIdx := by
  by_cases hempty : series.bins = []
  · -- the series starts here
    obtain ⟨hbase, hlen⟩ := readyFor_first series binIdx hempty
    constructor
    · intro h
      exact ⟨h.word, Or.inl hempty⟩
    · intro h
      refine ⟨h.1, ?_, ?_, ?_⟩
      · unfold Series.start
        rw [if_pos hempty]
        exact Nat.le_succ binIdx
      · rw [hbase]
      · rw [hbase, hlen, Nat.sub_self]
        exact Nat.one_pos
  · obtain ⟨hbase, hlen⟩ := readyFor_next series binIdx hempty
    have hcapPos : 0 < binCap := by decide
    constructor
    · intro h
      have hslot := h.slot
      rw [hbase] at hslot
      exact ⟨h.word, Or.inr (by omega)⟩
    · intro h
      have hle : series.baseIdx ≤ binIdx := h.2.resolve_left hempty
      refine ⟨h.1, ?_, ?_, ?_⟩
      · unfold Series.start
        rw [if_neg hempty]
        omega
      · rw [hbase]
        omega
      · rw [hbase, hlen]
        omega

/-! ## Runs of records -/

/-- INTERNAL: a call of `record`: the series key, the close time and the value. -/
abbrev RecordCall := SeriesKey × ℕ × ℕ

/-- INTERNAL: SRCLINE: graph.rs:240-277 -/
def recordStep (store : GraphSeriesStore) (call : RecordCall) : Option GraphSeriesStore :=
  store.record call.1 call.2.1 call.2.2

/-- INTERNAL: a store with a window and nothing recorded. -/
def emptyStore (windowNs : ℕ) : GraphSeriesStore :=
  { originNs := 0, windowNs := windowNs, latestBinIdx := 0, series := ∅ }

/-- INTERNAL: the bin of a sample.
SRCLINE: graph.rs:241-251 -/
def binOf (store : GraphSeriesStore) (tNs : ℕ) : ℕ :=
  (tNs - (store.anchor tNs).originNs) / store.windowNs

/-- INTERNAL: the series of a key, empty when there is none. -/
def seriesOf (store : GraphSeriesStore) (seriesKey : SeriesKey) : Series :=
  store.series.getD seriesKey {}

/-- INTERNAL: the call drops the sample, or divides by a window and finds everything in range. -/
def Safe (store : GraphSeriesStore) (call : RecordCall) : Prop :=
  call.2.1 < (store.anchor call.2.1).originNs ∨
    (store.windowNs ≠ 0 ∧ BinInRange (seriesOf store call.1) (binOf store call.2.1))

/-- INTERNAL: the call drops the sample, or its bin is not before the base of its series. -/
def OnTime (store : GraphSeriesStore) (call : RecordCall) : Prop :=
  call.2.1 < (store.anchor call.2.1).originNs ∨
    NotBefore (seriesOf store call.1) (binOf store call.2.1)

/-- INTERNAL: what a run keeps: a window, and no series above the cap. -/
structure Binned (store : GraphSeriesStore) : Prop where
  window : 0 < store.windowNs
  capped : ∀ key, (seriesOf store key).bins.length ≤ binCap

/-- INTERNAL: the anchor leaves the window. -/
theorem anchor_windowNs (store : GraphSeriesStore) (tNs : ℕ) :
    (store.anchor tNs).windowNs = store.windowNs := by
  unfold GraphSeriesStore.anchor
  split <;> rfl

/-- INTERNAL: and the series. -/
theorem anchor_series (store : GraphSeriesStore) (tNs : ℕ) :
    (store.anchor tNs).series = store.series := by
  unfold GraphSeriesStore.anchor
  split <;> rfl

/-- INTERNAL: the ways a record can go. -/
theorem record_cases (store store' : GraphSeriesStore) (call : RecordCall)
    (h : recordStep store call = some store') :
    store' = store.anchor call.2.1 ∨
      ∃ series, (seriesOf store call.1).record (binOf store call.2.1) call.2.2 = some series ∧
        store' = { store.anchor call.2.1 with
          latestBinIdx := max (store.anchor call.2.1).latestBinIdx (binOf store call.2.1)
          series := store.series.insert call.1 series } := by
  unfold recordStep GraphSeriesStore.record at h
  dsimp only at h
  split at h
  · exact Or.inl (Option.some.inj h).symm
  · split at h
    · cases h
    · obtain ⟨series, hseries, hstore⟩ := Option.map_eq_some_iff.mp h
      have hbin : (call.2.1 - (store.anchor call.2.1).originNs) /
          (store.anchor call.2.1).windowNs = binOf store call.2.1 := by
        unfold binOf
        rw [anchor_windowNs]
      rw [hbin, anchor_series] at hseries hstore
      exact Or.inr ⟨series, hseries, hstore.symm⟩

/-- INTERNAL: **a call goes through exactly when it is safe**. -/
theorem record_isSome (store : GraphSeriesStore) (call : RecordCall) :
    (recordStep store call).isSome ↔ Safe store call := by
  unfold recordStep GraphSeriesStore.record Safe
  dsimp only
  by_cases hearly : call.2.1 < (store.anchor call.2.1).originNs
  · simp [hearly]
  · rw [if_neg hearly, anchor_windowNs, anchor_series]
    by_cases hzero : store.windowNs = 0
    · simp [hearly, hzero]
    · rw [if_neg hzero, Option.isSome_map]
      change ((seriesOf store call.1).record (binOf store call.2.1) call.2.2).isSome ↔ _
      rw [series_record_isSome]
      simp [hearly, hzero]

/-- INTERNAL: what one record preserves. -/
theorem binned_record (store : GraphSeriesStore) (call : RecordCall) (store' : GraphSeriesStore)
    (hb : Binned store) (h : recordStep store call = some store') : Binned store' := by
  cases record_cases store store' call h with
  | inl hanchor =>
    subst hanchor
    refine ⟨by rw [anchor_windowNs]; exact hb.window, fun key => ?_⟩
    unfold seriesOf
    rw [anchor_series]
    exact hb.capped key
  | inr hrecorded =>
    obtain ⟨series, hseries, hstore⟩ := hrecorded
    subst hstore
    refine ⟨by rw [anchor_windowNs]; exact hb.window, fun key => ?_⟩
    unfold seriesOf
    rw [ExtTreeMap.getD_insert]
    split
    · rw [(series_record_eq _ _ _ _ hseries).2]
      exact length_readyFor _ _
    · exact hb.capped key

/-- CODE: graph.rs:240-277 — **a run of records stays in range exactly when no sample comes
before the base of its series**. -/
theorem records_safe_iff (windowNs : ℕ) (hwindow : 0 < windowNs) (calls : List RecordCall) :
    RunsUnder recordStep Safe (emptyStore windowNs) calls ↔
      RunsUnder recordStep OnTime (emptyStore windowNs) calls := by
  refine runsUnder_congr recordStep Safe OnTime Binned ?_
    (fun store call store' hb _ => binned_record store call store' hb) (emptyStore windowNs)
    calls ⟨hwindow, fun key => ?_⟩
  · intro store call hb
    have hzero : store.windowNs ≠ 0 := Nat.ne_of_gt hb.window
    unfold Safe OnTime
    rw [binInRange_iff _ _ (hb.capped call.1)]
    exact or_congr_right (and_iff_right hzero)
  · simp [seriesOf, emptyStore]

/-- CODE: graph.rs:240-277 — a sample of each of two series, in order. -/
theorem records_safe_iff_in_order :
    RunsUnder recordStep Safe (emptyStore 10) [([], 1000, 1), ([("k", "v")], 2000, 1)] ↔
      RunsUnder recordStep OnTime (emptyStore 10) [([], 1000, 1), ([("k", "v")], 2000, 1)] :=
  records_safe_iff 10 (by decide) _

/-- CODE: graph.rs:240-277 — a series that appears in bin 100 and then gets a sample of bin 50:
`bin_idx + 1 - base_idx` is `51 - 100`. -/
theorem late_sample_underflows :
    ∃ store, run recordStep (emptyStore 10) [([], 1000, 1), ([("k", "v")], 2000, 1)] =
        some store ∧
      binOf store 1500 = 50 ∧ (seriesOf store [("k", "v")]).baseIdx = 100 ∧
      recordStep store ([("k", "v")], 1500, 1) = none ∧
      ¬ RunsUnder recordStep Safe (emptyStore 10)
        [([], 1000, 1), ([("k", "v")], 2000, 1), ([("k", "v")], 1500, 1)] := by
  refine ⟨_, rfl, by decide, by decide, by decide, fun hruns => ?_⟩
  have hsafe := RunsUnder.at_step recordStep Safe (emptyStore 10) _
    [([], 1000, 1), ([("k", "v")], 2000, 1)] [] ([("k", "v")], 1500, 1) hruns rfl
  exact absurd ((record_isSome _ _).mpr hsafe) (by decide)

end TracingConsole.Analysis
