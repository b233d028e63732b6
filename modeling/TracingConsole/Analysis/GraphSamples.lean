import TracingConsole.Analysis.GraphBins
import TracingConsole.Library.SlotWindow

/-!
# What the bins of a graph hold

Every bin of a series holds exactly the samples of its stretch of time (`SeriesFiled`): the
samples of a series are filed under their bin index, and a record files one more, whatever
gap it fills and however many bins it gives up at the front.  As long as no sample comes
before the origin or before the base of its series, a run of records keeps this for all
series, and the summary of a series is that of the samples in its bins.
-/

set_option autoImplicit false

namespace TracingConsole.Analysis

open Std (ExtTreeMap)
open TracingConsole.Library TracingConsole.Model

/-! ## One bin -/

/-- INTERNAL: the bin counts these values. -/
structure BinHolds (values : List ℕ) (bin : Bin) : Prop where
  count : bin.count = values.length
  sum : bin.sumNs = values.sum
  least : values.min? = some bin.minNs
  greatest : values.max? = some bin.maxNs

/-- INTERNAL: one more value in the bin of a slot.
SRCLINE: graph.rs:149-162, 268-276 -/
theorem slotHolds_record (values : List ℕ) (slot : Option Bin) (value : ℕ)
    (h : SlotHolds BinHolds values slot) :
    BinHolds (values ++ [value]) ((slot.getD Bin.new).record value) := by
  cases slot with
  | none =>
    have hnil : values = [] := h
    rw [hnil]
    exact ⟨rfl, by simp [Bin.record, Bin.new], rfl, rfl⟩
  | some bin =>
    have hholds : BinHolds values bin := h
    obtain ⟨hcount, hsum, hleast, hgreatest⟩ := hholds
    cases values with
    | nil => cases hleast
    | cons first rest =>
      have hsome : bin.count ≠ 0 := by
        rw [hcount]
        exact Nat.succ_ne_zero _
      rw [List.min?_cons'] at hleast
      rw [List.max?_cons'] at hgreatest
      refine ⟨?_, ?_, ?_, ?_⟩
      · simp only [Option.getD_some, Bin.record, hcount, List.length_append, List.length_cons,
          List.length_nil]
      · simp only [Option.getD_some, Bin.record, hsum, List.sum_append, List.sum_cons,
          List.sum_nil, Nat.add_zero]
      · rw [List.cons_append, List.min?_cons', List.foldl_append, Option.some.inj hleast]
        simp [Bin.record, hsome]
      · rw [List.cons_append, List.max?_cons', List.foldl_append, Option.some.inj hgreatest]
        simp [Bin.record, hsome]

/-! ## One series -/

/-- INTERNAL: the series has the values that are filed under a bin index: its last bin is the
largest one, and each of its slots holds its own. -/
structure SeriesFiled (series : Series) (placed : List (ℕ × ℕ)) : Prop where
  capped : series.bins.length ≤ binCap
  begun : series.bins = [] → placed = []
  reached : series.bins ≠ [] → ∃ p ∈ placed, p.1 + 1 = series.baseIdx + series.bins.length
  within : ∀ p ∈ placed, p.1 < series.baseIdx + series.bins.length
  slots : ∀ i, series.baseIdx ≤ i →
    SlotHolds BinHolds (filedAt i placed) (slotAt series.baseIdx series.bins i)

/-- INTERNAL: no series, no samples. -/
theorem seriesFiled_empty : SeriesFiled {} [] where
  capped := Nat.zero_le _
  begun _ := rfl
  reached h := absurd rfl h
  within := by simp
  slots i _ := by simp [SlotHolds]

/-- INTERNAL: filling and cutting leave what the kept slots read. -/
theorem slotAt_readyFor (series : Series) (binIdx i : ℕ)
    (hi : (readyFor series binIdx).baseIdx ≤ i) :
    slotAt (readyFor series binIdx).baseIdx (readyFor series binIdx).bins i =
      slotAt series.baseIdx series.bins i := by
  have hstart : ∀ j, slotAt (series.start binIdx).baseIdx (series.start binIdx).bins j =
      slotAt series.baseIdx series.bins j := by
    intro j
    unfold Series.start
    split
    · next hempty => simp [hempty]
    · rfl
  unfold readyFor at hi ⊢
  dsimp only [Series.evict] at hi ⊢
  rw [slotAt_drop _ _ _ _ hi]
  dsimp only [Series.fill]
  rw [slotAt_pad, hstart]

/-- INTERNAL: where the bins that are ready for a sample begin and end: they cover what was
filed before, give up only bins at the front, and end at the sample or at an earlier one. -/
theorem seriesFiled_ready (series : Series) (placed : List (ℕ × ℕ)) (binIdx value : ℕ)
    (h : SeriesFiled series placed) (hbefore : NotBefore series binIdx) :
    (∀ p ∈ placed, p.1 < (readyFor series binIdx).baseIdx +
        (readyFor series binIdx).bins.length) ∧
      (∀ i, (readyFor series binIdx).baseIdx ≤ i → series.bins = [] ∨ series.baseIdx ≤ i) ∧
      ∃ p ∈ placed ++ [(binIdx, value)], p.1 + 1 = (readyFor series binIdx).baseIdx +
        (readyFor series binIdx).bins.length := by
  by_cases hempty : series.bins = []
  · obtain ⟨hbase, hlen⟩ := readyFor_first series binIdx hempty
    rw [h.begun hempty, hbase, hlen]
    exact ⟨by simp, fun i _ => Or.inl hempty, ⟨(binIdx, value), by simp, rfl⟩⟩
  · obtain ⟨hbase, hlen⟩ := readyFor_next series binIdx hempty
    have hcap := h.capped
    have hle : series.baseIdx ≤ binIdx := hbefore.2.resolve_left hempty
    rw [hbase, hlen]
    refine ⟨fun p hp => ?_, fun i hi => Or.inr (by omega), ?_⟩
    · have hin := h.within p hp
      omega
    · obtain ⟨p, hp, hlast⟩ := h.reached hempty
      by_cases hbehind : binIdx + 1 ≤ series.baseIdx + series.bins.length
      · exact ⟨p, List.mem_append_left _ hp, by omega⟩
      · refine ⟨(binIdx, value), by simp, ?_⟩
        dsimp only
        omega

/-- INTERNAL: **a sample that is not before its series' base is filed, whatever it fills or
pushes out**.
SRCLINE: graph.rs:254-276 -/
theorem seriesFiled_record (series series' : Series) (placed : List (ℕ × ℕ)) (binIdx value : ℕ)
    (h : SeriesFiled series placed) (hbefore : NotBefore series binIdx)
    (hrec : series.record binIdx value = some series') :
    SeriesFiled series' (placed ++ [(binIdx, value)]) := by
  have hrange := (binInRange_iff series binIdx h.capped).mpr hbefore
  have hlength := length_readyFor series binIdx
  have hkept := slotAt_readyFor series binIdx
  obtain ⟨bin, hbin, hwritten⟩ := series_record_written series series' binIdx value hrec
  have hslot := hrange.slot
  have hindex := hrange.index
  obtain ⟨hwithin, hold, hreached⟩ := seriesFiled_ready series placed binIdx value h hbefore
  -- from here on only these facts count
  generalize readyFor series binIdx = ready at *
  subst hwritten
  have hset : (ready.bins.set (binIdx - ready.baseIdx)
      (some ((bin.getD Bin.new).record value))).length = ready.bins.length := List.length_set
  refine ⟨?_, ?_, ?_, ?_, ?_⟩
  · exact hset ▸ hlength
  · intro hnil
    exfalso
    have hzero : ready.bins.length = 0 := by
      rw [← hset]
      exact congrArg List.length hnil
    omega
  · intro _
    obtain ⟨p, hp, hlast⟩ := hreached
    refine ⟨p, hp, ?_⟩
    dsimp only
    rw [hset]
    exact hlast
  · intro p hp
    dsimp only
    rw [hset]
    cases List.mem_append.mp hp with
    | inl hplaced => exact hwithin p hplaced
    | inr hnew =>
      rw [List.mem_singleton.mp hnew]
      dsimp only
      omega
  · intro i hi
    have hslots : SlotHolds BinHolds (filedAt i placed) (slotAt ready.baseIdx ready.bins i) := by
      rw [hkept i hi]
      cases hold i hi with
      | inl hempty =>
        rw [h.begun hempty, hempty]
        rfl
      | inr hle => exact h.slots i hle
    dsimp only
    rw [slotAt_set _ _ _ _ _ hslot hindex hi, filedAt_snoc]
    by_cases hsame : i = binIdx
    · subst hsame
      have hread : slotAt ready.baseIdx ready.bins i = bin := by
        unfold slotAt
        rw [hbin]
        rfl
      rw [if_pos rfl, if_pos rfl]
      exact hread ▸ slotHolds_record _ _ value hslots
    · rw [if_neg hsame, if_neg (Ne.symm hsame), List.append_nil]
      exact hslots

/-! ## The summary of a series -/

/-- INTERNAL: count, minimum, maximum and average are those of the values. -/
structure Summarises (values : List ℕ) (summary : SeriesSummary) : Prop where
  count : summary.count = values.length
  least : summary.minNs = values.min?.getD 0
  greatest : summary.maxNs = values.max?.getD 0
  average : summary.avgNs = values.sum / values.length

/-- INTERNAL: **the latency summary of a series is that of the values in its bins**.
SRCLINE: graph.rs:396-428 -/
theorem summary_filed (series : Series) (placed : List (ℕ × ℕ)) (key : SeriesKey) (agg : AggMode)
    (metric : Metric) (h : SeriesFiled series placed) (hwords : ∀ p ∈ placed, p.2 < 2 ^ 64)
    (hmetric : metric.isCount = false) :
    Summarises (filedWithin series.baseIdx series.bins.length placed)
      (series.summary key agg metric) := by
  have hcount := sum_window BinHolds Bin.count List.length rfl
    (fun values rest => List.length_append) (fun values values' hperm => hperm.length_eq)
    (fun values bin hbin => hbin.count) series.baseIdx series.bins placed h.slots
  have hsum := sum_window BinHolds Bin.sumNs List.sum rfl
    (fun values rest => List.sum_append) (fun values values' hperm => hperm.sum_eq)
    (fun values bin hbin => hbin.sum) series.baseIdx series.bins placed h.slots
  have hleast := foldl_window BinHolds (fun m bin => min m bin.minNs) min
    (fun acc x y => by omega)
    (fun values bin acc hbin => by rw [List.foldl_min, hbin.least]; rfl)
    series.baseIdx series.bins placed h.slots (2 ^ 64 - 1)
  have hgreatest := foldl_window BinHolds (fun m bin => max m bin.maxNs) max
    (fun acc x y => by omega)
    (fun values bin acc hbin => by rw [List.foldl_max, hbin.greatest]; rfl)
    series.baseIdx series.bins placed h.slots 0
  have hvalues : ∀ v ∈ filedWithin series.baseIdx series.bins.length placed, v < 2 ^ 64 := by
    intro v hv
    obtain ⟨p, hp, hpv⟩ := List.mem_map.mp hv
    exact hpv ▸ hwords p (List.mem_filter.mp hp).1
  unfold Series.summary
  simp only [hmetric, Bool.false_eq_true, if_false, hcount, hsum, hleast, hgreatest]
  generalize filedWithin series.baseIdx series.bins.length placed = values at hvalues ⊢
  refine ⟨rfl, ?_, ?_, ?_⟩
  · dsimp only
    cases values with
    | nil => rfl
    | cons first rest =>
      -- the fold starts at the largest word, which no value exceeds
      have hfirst := hvalues _ (List.min?_mem List.min?_cons')
      rw [if_neg (by simp), List.foldl_min, List.min?_cons']
      dsimp only [Option.getD_some]
      omega
  · dsimp only
    rw [List.foldl_max, Nat.zero_max]
  · dsimp only
    split
    · next hnone => rw [hnone, Nat.div_zero]
    · rfl

/-! ## The store -/

/-- INTERNAL: the sample falls in the stretch of the bin `i`. -/
def InBin (store : GraphSeriesStore) (i tNs : ℕ) : Prop :=
  store.originNs + i * store.windowNs ≤ tNs ∧ tNs < store.originNs + (i + 1) * store.windowNs

/-- INTERNAL: decidable. -/
instance (store : GraphSeriesStore) (i tNs : ℕ) : Decidable (InBin store i tNs) :=
  inferInstanceAs (Decidable (_ ∧ _))

/-- INTERNAL: the times and the values of the samples of a series, in order. -/
def samplesOf (key : SeriesKey) (calls : List RecordCall) : List (ℕ × ℕ) :=
  (calls.filter fun call => call.1 = key).map Prod.snd

/-- INTERNAL: the values of the samples in the bin `i`. -/
def valuesIn (store : GraphSeriesStore) (i : ℕ) (samples : List (ℕ × ℕ)) : List ℕ :=
  (samples.filter fun sample => InBin store i sample.1).map Prod.snd

/-- INTERNAL: the values of the samples in the bins that a series keeps. -/
def retained (store : GraphSeriesStore) (series : Series) (samples : List (ℕ × ℕ)) : List ℕ :=
  (samples.filter fun sample =>
    store.originNs + series.baseIdx * store.windowNs ≤ sample.1 ∧
      sample.1 < store.originNs + (series.baseIdx + series.bins.length) * store.windowNs).map
    Prod.snd

/-- INTERNAL: the samples of a series under their bin index. -/
def placedOf (store : GraphSeriesStore) (samples : List (ℕ × ℕ)) : List (ℕ × ℕ) :=
  samples.map fun sample => ((sample.1 - store.originNs) / store.windowNs, sample.2)

/-- INTERNAL: one more sample, of this series or of another. -/
theorem samplesOf_snoc (key : SeriesKey) (calls : List RecordCall) (call : RecordCall) :
    samplesOf key (calls ++ [call]) =
      samplesOf key calls ++ if call.1 = key then [call.2] else [] := by
  unfold samplesOf
  rw [List.filter_append, List.map_append]
  by_cases h : call.1 = key <;> simp [h]

/-- INTERNAL: a sample's bin is its distance from the origin in windows. -/
theorem inBin_iff (store : GraphSeriesStore) (i tNs : ℕ) (hwindow : 0 < store.windowNs)
    (hafter : store.originNs ≤ tNs) :
    InBin store i tNs ↔ (tNs - store.originNs) / store.windowNs = i := by
  rw [Nat.div_eq_iff hwindow]
  unfold InBin
  rw [Nat.succ_mul]
  omega

/-- INTERNAL: the values of a bin are those filed there. -/
theorem valuesIn_eq (store : GraphSeriesStore) (i : ℕ) (samples : List (ℕ × ℕ))
    (hwindow : 0 < store.windowNs) (hafter : ∀ sample ∈ samples, store.originNs ≤ sample.1) :
    valuesIn store i samples = filedAt i (placedOf store samples) := by
  unfold valuesIn filedAt placedOf
  rw [List.filter_map, List.map_map]
  refine congrArg (List.map Prod.snd) (List.filter_congr fun sample hsample => ?_)
  exact decide_eq_decide.mpr (inBin_iff store i sample.1 hwindow (hafter sample hsample))

/-- INTERNAL: what a series keeps is what is filed within its bounds. -/
theorem retained_eq (store : GraphSeriesStore) (series : Series) (samples : List (ℕ × ℕ))
    (hwindow : 0 < store.windowNs) (hafter : ∀ sample ∈ samples, store.originNs ≤ sample.1) :
    retained store series samples =
      filedWithin series.baseIdx series.bins.length (placedOf store samples) := by
  unfold retained filedWithin placedOf
  rw [List.filter_map, List.map_map]
  refine congrArg (List.map Prod.snd) (List.filter_congr fun sample hsample => ?_)
  have horigin := hafter sample hsample
  refine decide_eq_decide.mpr (and_congr ?_ ?_)
  · rw [Nat.le_div_iff_mul_le hwindow]
    omega
  · rw [Nat.div_lt_iff_lt_mul hwindow]
    omega

/-! ## A run of records -/

/-- INTERNAL: the sample is not before the origin, and not before the base of its series. -/
def Admitted (store : GraphSeriesStore) (call : RecordCall) : Prop :=
  (store.anchor call.2.1).originNs ≤ call.2.1 ∧
    (seriesOf store call.1).baseIdx ≤ binOf store call.2.1

/-- INTERNAL: decidable. -/
instance (store : GraphSeriesStore) (call : RecordCall) : Decidable (Admitted store call) :=
  inferInstanceAs (Decidable (_ ∧ _))

/-- INTERNAL: what the records so far leave: the origin half a window before the first sample,
and every series with its own samples. -/
structure Filed (windowNs : ℕ) (calls : List RecordCall) (store : GraphSeriesStore) : Prop where
  window : store.windowNs = windowNs
  unset : calls = [] → store.originNs = 0
  origin : ∀ call ∈ calls.head?, store.originNs = call.2.1 - windowNs / 2
  positive : calls ≠ [] → 0 < store.originNs
  after : ∀ call ∈ calls, store.originNs ≤ call.2.1
  series : ∀ key, SeriesFiled (seriesOf store key) (placedOf store (samplesOf key calls))
  present : ∀ key, key ∈ store.series ↔ samplesOf key calls ≠ []

/-- INTERNAL: the empty store has filed nothing. -/
theorem filed_empty (windowNs : ℕ) : Filed windowNs [] (emptyStore windowNs) where
  window := rfl
  unset _ := rfl
  origin := by simp
  positive h := absurd rfl h
  after := by simp
  series key := by
    have hnone : seriesOf (emptyStore windowNs) key = {} := by simp [seriesOf, emptyStore]
    rw [hnone]
    exact seriesFiled_empty
  present key := by simp [emptyStore, samplesOf]

/-- INTERNAL: a sample that is not before the origin goes to its series.
SRCLINE: graph.rs:246-276 -/
theorem recordStep_after (store : GraphSeriesStore) (call : RecordCall)
    (hwindow : 0 < store.windowNs) (hafter : (store.anchor call.2.1).originNs ≤ call.2.1) :
    recordStep store call =
      ((seriesOf store call.1).record (binOf store call.2.1) call.2.2).map fun series =>
        { store.anchor call.2.1 with
          latestBinIdx := max (store.anchor call.2.1).latestBinIdx (binOf store call.2.1)
          series := store.series.insert call.1 series } := by
  unfold recordStep GraphSeriesStore.record binOf seriesOf
  dsimp only
  rw [if_neg (Nat.not_lt_of_le hafter), anchor_windowNs, if_neg (Nat.ne_of_gt hwindow),
    anchor_series]

/-- INTERNAL: the first sample sets the origin.
SRCLINE: graph.rs:241-245 -/
theorem Filed.anchor_first (windowNs : ℕ) (calls : List RecordCall) (store : GraphSeriesStore)
    (h : Filed windowNs calls store) (tNs : ℕ) (hnil : calls = []) :
    (store.anchor tNs).originNs = tNs - windowNs / 2 := by
  unfold GraphSeriesStore.anchor
  rw [if_pos (h.unset hnil), h.window]

/-- INTERNAL: a later sample leaves it.
SRCLINE: graph.rs:241-245 -/
theorem Filed.anchor_next (windowNs : ℕ) (calls : List RecordCall) (store : GraphSeriesStore)
    (h : Filed windowNs calls store) (tNs : ℕ) (hsome : calls ≠ []) :
    (store.anchor tNs).originNs = store.originNs := by
  unfold GraphSeriesStore.anchor
  rw [if_neg (Nat.ne_of_gt (h.positive hsome))]

/-- INTERNAL: with a first sample after half a window the origin comes after zero. -/
theorem Filed.anchor_positive (windowNs : ℕ) (calls : List RecordCall) (call : RecordCall)
    (store : GraphSeriesStore) (h : Filed windowNs calls store)
    (hfirst : ∀ first ∈ (calls ++ [call]).head?, windowNs / 2 < first.2.1) :
    0 < (store.anchor call.2.1).originNs := by
  by_cases hnil : calls = []
  · rw [h.anchor_first windowNs calls store _ hnil]
    have hhalf := hfirst call (by rw [hnil]; rfl)
    omega
  · rw [h.anchor_next windowNs calls store _ hnil]
    exact h.positive hnil

/-- INTERNAL: **one record files its sample and leaves the others where they are**.
SRCLINE: graph.rs:240-277 -/
theorem filed_record (windowNs : ℕ) (calls : List RecordCall) (call : RecordCall)
    (store : GraphSeriesStore) (hwindow : 0 < windowNs) (h : Filed windowNs calls store)
    (hfirst : ∀ first ∈ (calls ++ [call]).head?, windowNs / 2 < first.2.1)
    (hword : call.2.1 < 2 ^ 64) (hadm : Admitted store call) :
    ∃ store', recordStep store call = some store' ∧ Filed windowNs (calls ++ [call]) store' := by
  obtain ⟨hafter, hbefore⟩ := hadm
  have hpos : 0 < store.windowNs := h.window ▸ hwindow
  have hnew := h.anchor_first windowNs calls store call.2.1
  have hold := h.anchor_next windowNs calls store call.2.1
  have horigin := h.anchor_positive windowNs calls call store hfirst
  -- with an origin after zero no bin index is the largest word
  have hbin : binOf store call.2.1 + 1 < 2 ^ 64 := by
    have hle : binOf store call.2.1 ≤ call.2.1 - (store.anchor call.2.1).originNs :=
      Nat.div_le_self _ _
    omega
  have hrange := (binInRange_iff _ _ (h.series call.1).capped).mpr ⟨hbin, Or.inr hbefore⟩
  obtain ⟨series', hseries⟩ := Option.isSome_iff_exists.mp
    ((series_record_isSome _ _ call.2.2).mpr hrange)
  have hfiled := seriesFiled_record _ _ _ _ _ (h.series call.1) ⟨hbin, Or.inr hbefore⟩ hseries
  refine ⟨_, (recordStep_after store call hpos hafter).trans (by rw [hseries]; rfl), ?_⟩
  have hplaced : ∀ key, (samplesOf key calls).map (fun sample =>
        ((sample.1 - (store.anchor call.2.1).originNs) / store.windowNs, sample.2)) =
      placedOf store (samplesOf key calls) := by
    intro key
    by_cases hnil : calls = []
    · rw [hnil]
      rfl
    · rw [hold hnil]
      rfl
  refine ⟨?_, ?_, ?_, ?_, ?_, ?_, ?_⟩
  · exact (anchor_windowNs store call.2.1).trans h.window
  · intro hnil
    exact absurd hnil (by simp)
  · intro first hhead
    by_cases hnil : calls = []
    · rw [hnil] at hhead
      rw [← Option.some.inj hhead]
      exact hnew hnil
    · rw [List.head?_append_of_ne_nil _ hnil] at hhead
      exact (hold hnil).trans (h.origin first hhead)
  · intro _
    exact horigin
  · intro earlier hearlier
    cases List.mem_append.mp hearlier with
    | inl hcalls =>
      exact (hold (List.ne_nil_of_mem hcalls)).trans_le (h.after earlier hcalls)
    | inr hlast =>
      rw [List.mem_singleton.mp hlast]
      exact hafter
  · intro key
    unfold placedOf seriesOf
    dsimp only
    rw [anchor_windowNs, samplesOf_snoc, ExtTreeMap.getD_insert, List.map_append, hplaced]
    by_cases hkey : call.1 = key
    · subst hkey
      rw [if_pos Std.ReflCmp.compare_self, if_pos rfl]
      unfold binOf at hfiled
      exact hfiled
    · rw [if_neg (fun heq => hkey (Std.LawfulEqCmp.eq_of_compare heq)), if_neg hkey,
        List.map_nil, List.append_nil]
      exact h.series key
  · intro key
    dsimp only
    rw [samplesOf_snoc, ExtTreeMap.mem_insert, h.present key]
    by_cases hkey : call.1 = key
    · subst hkey
      simp
    · rw [if_neg hkey, List.append_nil]
      refine or_iff_right fun heq => hkey (Std.LawfulEqCmp.eq_of_compare heq)

/-- INTERNAL: a run of admitted records goes through and files every sample. -/
theorem filed_run (windowNs : ℕ) (hwindow : 0 < windowNs) (calls : List RecordCall)
    (hfirst : ∀ first ∈ calls.head?, windowNs / 2 < first.2.1)
    (hword : ∀ call ∈ calls, call.2.1 < 2 ^ 64)
    (hadm : RunsUnder recordStep Admitted (emptyStore windowNs) calls) :
    ∃ store, run recordStep (emptyStore windowNs) calls = some store ∧
      Filed windowNs calls store := by
  -- from the back, so that the samples of a state are the records before it
  induction calls using List.reverseRecOn with
  | nil => exact ⟨_, rfl, filed_empty windowNs⟩
  | append_singleton calls call ih =>
    have hearlier : ∀ first ∈ calls.head?, windowNs / 2 < first.2.1 := by
      intro first hhead
      refine hfirst first ?_
      rw [List.head?_append, hhead]
      rfl
    have hcalls := RunsUnder.prefix _ _ _ _ _ hadm
    obtain ⟨store, hrun, hfiled⟩ := ih hearlier
      (fun earlier hmem => hword earlier (List.mem_append_left _ hmem)) hcalls
    have hadmitted : Admitted store call :=
      RunsUnder.at_step _ _ _ store calls [] call hadm hrun
    obtain ⟨store', hstep, hfiled'⟩ := filed_record windowNs calls call store hwindow hfiled hfirst
      (hword call (by simp)) hadmitted
    refine ⟨store', ?_, hfiled'⟩
    rw [run_append, hrun]
    simp [hstep]

/-! ## The samples of a graph -/

/-- INTERNAL: a series with the samples it got: at most 600 bins, up to the largest bin that a
sample fell in, and in every bin from its base on exactly the samples of its stretch. -/
structure HoldsSamples (store : GraphSeriesStore) (series : Series)
    (samples : List (ℕ × ℕ)) : Prop where
  capped : series.bins.length ≤ 600
  nonempty : series.bins ≠ []
  last : IsGreatest {i | ∃ sample ∈ samples, InBin store i sample.1}
    (series.baseIdx + series.bins.length - 1)
  bins : ∀ i, series.baseIdx ≤ i →
    SlotHolds BinHolds (valuesIn store i samples) (slotAt series.baseIdx series.bins i)

/-- INTERNAL: the filed samples of a series are the ones that fall in its bins. -/
theorem holdsSamples_of_filed (store : GraphSeriesStore) (series : Series)
    (samples : List (ℕ × ℕ)) (hwindow : 0 < store.windowNs)
    (hafter : ∀ sample ∈ samples, store.originNs ≤ sample.1) (hsome : samples ≠ [])
    (h : SeriesFiled series (placedOf store samples)) : HoldsSamples store series samples := by
  have hbins : series.bins ≠ [] := by
    intro hnil
    exact hsome (List.map_eq_nil_iff.mp (h.begun hnil))
  refine ⟨h.capped, hbins, ⟨?_, ?_⟩, fun i hi => ?_⟩
  · obtain ⟨p, hp, hlast⟩ := h.reached hbins
    obtain ⟨sample, hsample, hplace⟩ := List.mem_map.mp hp
    refine ⟨sample, hsample, (inBin_iff store _ _ hwindow (hafter sample hsample)).mpr ?_⟩
    rw [← hplace] at hlast
    exact Nat.eq_sub_of_add_eq hlast
  · rintro i ⟨sample, hsample, hin⟩
    have hbin := (inBin_iff store i _ hwindow (hafter sample hsample)).mp hin
    have hwithin := h.within _ (List.mem_map_of_mem hsample)
    dsimp only at hwithin
    omega
  · rw [valuesIn_eq store i samples hwindow hafter]
    exact h.slots i hi

/-- CODE: graph.rs:148-162, 240-277, 359-432 — **the bins of a graph hold exactly the samples
of their stretch of time, and the latency summary of a series is that of the samples in the bins
it keeps**. -/
theorem graph_bins_hold_samples (windowNs : ℕ) (hwindow : 0 < windowNs) (calls : List RecordCall)
    (hfirst : ∀ first ∈ calls.head?, windowNs / 2 < first.2.1)
    (hword : ∀ call ∈ calls, call.2.1 < 2 ^ 64 ∧ call.2.2 < 2 ^ 64)
    (hadm : RunsUnder recordStep Admitted (emptyStore windowNs) calls) :
    ∃ store, run recordStep (emptyStore windowNs) calls = some store ∧
      store.windowNs = windowNs ∧
      (∀ first ∈ calls.head?, store.originNs = first.2.1 - windowNs / 2) ∧
      (∀ key, key ∈ store.series ↔ samplesOf key calls ≠ []) ∧
      (∀ key series, store.series[key]? = some series →
        HoldsSamples store series (samplesOf key calls)) ∧
      ∀ agg metric, metric.isCount = false →
        (store.seriesSummary agg metric).map SeriesSummary.key = store.series.keys ∧
        ∀ summary ∈ store.seriesSummary agg metric,
          ∃ series, store.series[summary.key]? = some series ∧
            Summarises (retained store series (samplesOf summary.key calls)) summary := by
  obtain ⟨store, hrun, hfiled⟩ := filed_run windowNs hwindow calls hfirst
    (fun call hcall => (hword call hcall).1) hadm
  have hpos : 0 < store.windowNs := hfiled.window ▸ hwindow
  have hcall : ∀ key, ∀ sample ∈ samplesOf key calls,
      store.originNs ≤ sample.1 ∧ sample.2 < 2 ^ 64 := by
    intro key sample hsample
    obtain ⟨call, hcalls, hsnd⟩ := List.mem_map.mp hsample
    have hmem := (List.mem_filter.mp hcalls).1
    exact hsnd ▸ ⟨hfiled.after call hmem, (hword call hmem).2⟩
  have hseriesOf : ∀ key series, store.series[key]? = some series →
      SeriesFiled series (placedOf store (samplesOf key calls)) := by
    intro key series hget
    have hown : seriesOf store key = series := by
      unfold seriesOf
      rw [ExtTreeMap.getD_eq_getD_getElem?, hget]
      rfl
    exact hown ▸ hfiled.series key
  refine ⟨store, hrun, hfiled.window, hfiled.origin, hfiled.present, ?_, ?_⟩
  · intro key series hget
    have hsome : samplesOf key calls ≠ [] :=
      (hfiled.present key).mp (ExtTreeMap.mem_iff_isSome_getElem?.mpr (by rw [hget]; rfl))
    exact holdsSamples_of_filed store series _ hpos (fun sample hs => (hcall key sample hs).1)
      hsome (hseriesOf key series hget)
  · intro agg metric hmetric
    have hkeys : ∀ key (series : Series), (series.summary key agg metric).key = key := by
      intro key series
      unfold Series.summary
      simp only [hmetric]
      rfl
    constructor
    · unfold GraphSeriesStore.seriesSummary
      rw [List.map_map, ← ExtTreeMap.map_fst_toList_eq_keys]
      exact List.map_congr_left fun kv _ => hkeys kv.1 kv.2
    · intro summary hsummary
      obtain ⟨kv, hkv, hrow⟩ := List.mem_map.mp hsummary
      have hget := ExtTreeMap.mem_toList_iff_getElem?_eq_some.mp hkv
      subst hrow
      rw [hkeys]
      refine ⟨kv.2, hget, ?_⟩
      rw [retained_eq store kv.2 _ hpos fun sample hs => (hcall kv.1 sample hs).1]
      refine summary_filed kv.2 _ kv.1 agg metric (hseriesOf kv.1 kv.2 hget) ?_ hmetric
      intro p hp
      obtain ⟨sample, hsample, hplace⟩ := List.mem_map.mp hp
      exact hplace ▸ (hcall kv.1 sample hsample).2

/-- INTERNAL: two samples in one bin, a sample of another series, and one 700 bins later. -/
def gapCalls : List RecordCall :=
  [([], 1000, 5), ([], 1003, 7), ([("k", "v")], 1020, 3), ([], 8000, 1)]

/-- CODE: graph.rs:148-162, 240-277, 359-432 — the late sample pushes the bin of the first two
out of their series; the other series keeps its bin. -/
theorem graph_bins_hold_samples_gap :
    ∃ store, run recordStep (emptyStore 10) gapCalls = some store ∧
      (∀ key series, store.series[key]? = some series →
        HoldsSamples store series (samplesOf key gapCalls)) ∧
      ∃ series, store.series[([] : SeriesKey)]? = some series ∧ series.baseIdx = 101 ∧
        retained store series (samplesOf [] gapCalls) = [1] := by
  obtain ⟨store, hrun, -, -, -, hholds, -⟩ := graph_bins_hold_samples 10 (by decide) gapCalls
    (by decide) (by decide) (by decide +kernel)
  have hgap : ((run recordStep (emptyStore 10) gapCalls).bind fun last =>
      last.series[([] : SeriesKey)]?.map fun series =>
        (series.baseIdx, retained last series (samplesOf [] gapCalls))) = some (101, [1]) := by
    decide +kernel
  rw [hrun, Option.bind_some] at hgap
  obtain ⟨series, hget, hread⟩ := Option.map_eq_some_iff.mp hgap
  obtain ⟨hbase, hkept⟩ := Prod.mk.inj hread
  exact ⟨store, hrun, hholds, series, hget, hbase, hkept⟩

end TracingConsole.Analysis
