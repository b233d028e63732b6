import TracingConsole.Analysis.ChartStore
import TracingConsole.Analysis.GraphSamples

/-!
# A store that has dropped nothing

As long as no sample comes before the origin and no bin is given up, the bins of a series add up
to all the samples it was handed: their counts, sums, minima and maxima are those of the values
(`binFigures_whole`).  Without split keys there is one series, so this holds of the whole store.
-/

set_option autoImplicit false

namespace TracingConsole.Analysis

open Std (ExtTreeMap)
open TracingConsole.Library TracingConsole.Model

/-! ## Figures -/

/-- INTERNAL: what a row shows of the self times of its spans.
SRCLINE: state.rs:50-63 -/
structure Figures where
  count : ℕ
  sumNs : ℕ
  minNs : ℕ
  maxNs : ℕ
deriving DecidableEq

/-- INTERNAL: the figures of a list of values. -/
def figuresOf (values : List ℕ) : Figures where
  count := values.length
  sumNs := values.sum
  minNs := values.min?.getD 0
  maxNs := values.max?.getD 0

/-- INTERNAL: the figures that a list of bins adds up to.
SRCLINE: graph.rs:396-428 -/
def binFigures (bins : List Bin) : Figures where
  count := (bins.map Bin.count).sum
  sumNs := (bins.map Bin.sumNs).sum
  minNs := (bins.map Bin.minNs).min?.getD 0
  maxNs := (bins.map Bin.maxNs).max?.getD 0

/-- INTERNAL: the bins of all series. -/
def storedBins (store : GraphSeriesStore) : List Bin :=
  store.series.toList.flatMap fun kv => kv.2.bins.filterMap id

/-- INTERNAL: the least element of a list is that of the elements below all others. -/
theorem min?_of_below (xs ys : List ℕ) (hsub : ∀ x ∈ xs, x ∈ ys)
    (hbelow : ∀ y ∈ ys, ∃ x ∈ xs, x ≤ y) : xs.min? = ys.min? := by
  cases hy : ys.min? with
  | none =>
    rw [List.min?_eq_none_iff] at hy ⊢
    subst hy
    exact List.eq_nil_iff_forall_not_mem.mpr fun x hx => absurd (hsub x hx) List.not_mem_nil
  | some least =>
    obtain ⟨hin, hleast⟩ := List.min?_eq_some_iff.mp hy
    obtain ⟨x, hx, hle⟩ := hbelow least hin
    have hsame : x = least := Nat.le_antisymm hle (hleast x (hsub x hx))
    subst hsame
    exact List.min?_eq_some_iff.mpr ⟨hx, fun b hb => hleast b (hsub b hb)⟩

/-- INTERNAL: the greatest element of a list is that of the elements above all others. -/
theorem max?_of_above (xs ys : List ℕ) (hsub : ∀ x ∈ xs, x ∈ ys)
    (habove : ∀ y ∈ ys, ∃ x ∈ xs, y ≤ x) : xs.max? = ys.max? := by
  cases hy : ys.max? with
  | none =>
    rw [List.max?_eq_none_iff] at hy ⊢
    subst hy
    exact List.eq_nil_iff_forall_not_mem.mpr fun x hx => absurd (hsub x hx) List.not_mem_nil
  | some greatest =>
    obtain ⟨hin, hgreatest⟩ := List.max?_eq_some_iff.mp hy
    obtain ⟨x, hx, hle⟩ := habove greatest hin
    have hsame : x = greatest := Nat.le_antisymm (hgreatest x (hsub x hx)) hle
    subst hsame
    exact List.max?_eq_some_iff.mpr ⟨hx, fun b hb => hgreatest b (hsub b hb)⟩

/-! ## A series that keeps all its samples -/

/-- INTERNAL: the series with its bins filled up to `binIdx`, before any is given up.
SRCLINE: graph.rs:254-263 -/
def filledTo (series : Series) (binIdx : ℕ) : Series :=
  let series := series.start binIdx
  series.fill (binIdx + 1 - series.baseIdx)

/-- INTERNAL: the series has the samples filed under a bin index, and all these bins. -/
structure Whole (series : Series) (placed : List (ℕ × ℕ)) : Prop where
  filed : SeriesFiled series placed
  base : ∀ p ∈ placed, series.baseIdx ≤ p.1

/-- INTERNAL: with room for the new bins nothing is cut. -/
theorem readyFor_of_room (series : Series) (binIdx : ℕ)
    (hroom : (filledTo series binIdx).bins.length ≤ binCap) :
    readyFor series binIdx = filledTo series binIdx := by
  unfold readyFor
  change (filledTo series binIdx).evict = filledTo series binIdx
  unfold Series.evict
  rw [Nat.sub_eq_zero_of_le hroom]
  simp

/-- INTERNAL: **a record that gives up no bin keeps all the samples**.
SRCLINE: graph.rs:254-276 -/
theorem whole_record (series series' : Series) (placed : List (ℕ × ℕ)) (binIdx value : ℕ)
    (h : Whole series placed) (hroom : (filledTo series binIdx).bins.length ≤ binCap)
    (hrec : series.record binIdx value = some series') :
    Whole series' (placed ++ [(binIdx, value)]) := by
  have hrange := (series_record_isSome series binIdx value).mp (by rw [hrec]; rfl)
  have hbefore := (binInRange_iff series binIdx h.filed.capped).mp hrange
  have hbase := (series_record_eq series series' binIdx value hrec).1
  have hslot := hrange.slot
  refine ⟨seriesFiled_record series series' placed binIdx value h.filed hbefore hrec, ?_⟩
  intro p hp
  rw [hbase]
  cases List.mem_append.mp hp with
  | inr hnew =>
    rw [List.mem_singleton.mp hnew]
    exact hslot
  | inl hold =>
    have hnonempty : series.bins ≠ [] := by
      intro hempty
      rw [h.filed.begun hempty] at hold
      exact absurd hold List.not_mem_nil
    have hstart : series.start binIdx = series := by
      unfold Series.start
      rw [if_neg hnonempty]
    rw [readyFor_of_room series binIdx hroom, filledTo, hstart]
    exact h.base p hold

/-- INTERNAL: a series that keeps all its samples has them in its bins. -/
theorem Whole.filedWithin_eq {series : Series} {placed : List (ℕ × ℕ)} (h : Whole series placed) :
    filedWithin series.baseIdx series.bins.length placed = placed.map Prod.snd := by
  unfold filedWithin
  rw [List.filter_eq_self.mpr]
  intro p hp
  exact decide_eq_true ⟨h.base p hp, h.filed.within p hp⟩

/-- INTERNAL: a bin of the series has a value of its samples. -/
theorem Whole.bin_value {series : Series} {placed : List (ℕ × ℕ)} (h : Whole series placed)
    (bin : Bin) (hbin : some bin ∈ series.bins) :
    ∃ values, BinHolds values bin ∧ ∀ v ∈ values, v ∈ placed.map Prod.snd := by
  obtain ⟨k, hk, hget⟩ := List.getElem_of_mem hbin
  have hread : slotAt series.baseIdx series.bins (series.baseIdx + k) = some bin := by
    simp [slotAt, List.getElem?_eq_getElem hk, hget]
  have hslot := h.filed.slots (series.baseIdx + k) (Nat.le_add_right _ _)
  rw [hread] at hslot
  refine ⟨_, hslot, fun v hv => ?_⟩
  obtain ⟨p, hp, hpv⟩ := List.mem_map.mp hv
  exact List.mem_map.mpr ⟨p, List.mem_of_mem_filter hp, hpv⟩

/-- INTERNAL: a sample of the series is among the values of a bin. -/
theorem Whole.value_bin {series : Series} {placed : List (ℕ × ℕ)} (h : Whole series placed)
    (v : ℕ) (hv : v ∈ placed.map Prod.snd) :
    ∃ bin values, some bin ∈ series.bins ∧ BinHolds values bin ∧ v ∈ values := by
  obtain ⟨p, hp, rfl⟩ := List.mem_map.mp hv
  have hfiled : p.2 ∈ filedAt p.1 placed := by
    unfold filedAt
    exact List.mem_map.mpr ⟨p, List.mem_filter.mpr ⟨hp, decide_eq_true rfl⟩, rfl⟩
  have hslot := h.filed.slots p.1 (h.base p hp)
  unfold slotAt at hslot
  cases hread : series.bins[p.1 - series.baseIdx]? with
  | none =>
    rw [hread] at hslot
    have hnil : filedAt p.1 placed = [] := hslot
    rw [hnil] at hfiled
    exact absurd hfiled List.not_mem_nil
  | some slot =>
    rw [hread] at hslot
    cases slot with
    | none =>
      have hnil : filedAt p.1 placed = [] := hslot
      rw [hnil] at hfiled
      exact absurd hfiled List.not_mem_nil
    | some bin => exact ⟨bin, _, List.mem_of_getElem? hread, hslot, hfiled⟩

/-- INTERNAL: **the bins add up to the samples**. -/
theorem binFigures_whole (series : Series) (placed : List (ℕ × ℕ)) (h : Whole series placed) :
    binFigures (series.bins.filterMap id) = figuresOf (placed.map Prod.snd) := by
  have hcount := sum_window BinHolds Bin.count List.length rfl
    (fun values rest => List.length_append) (fun values values' hperm => hperm.length_eq)
    (fun values bin hbin => hbin.count) series.baseIdx series.bins placed h.filed.slots
  have hsum := sum_window BinHolds Bin.sumNs List.sum rfl
    (fun values rest => List.sum_append) (fun values values' hperm => hperm.sum_eq)
    (fun values bin hbin => hbin.sum) series.baseIdx series.bins placed h.filed.slots
  rw [h.filedWithin_eq] at hcount hsum
  have hmem : ∀ bin, bin ∈ series.bins.filterMap id ↔ some bin ∈ series.bins := by
    intro bin
    simp
  have hleast : ((series.bins.filterMap id).map Bin.minNs).min? =
      (placed.map Prod.snd).min? := by
    apply min?_of_below
    · intro x hx
      obtain ⟨bin, hbin, rfl⟩ := List.mem_map.mp hx
      obtain ⟨values, hholds, hsub⟩ := h.bin_value bin ((hmem bin).mp hbin)
      exact hsub _ (List.min?_eq_some_iff.mp hholds.least).1
    · intro v hv
      obtain ⟨bin, values, hbin, hholds, hin⟩ := h.value_bin v hv
      exact ⟨bin.minNs, List.mem_map_of_mem ((hmem bin).mpr hbin),
        (List.min?_eq_some_iff.mp hholds.least).2 v hin⟩
  have hgreatest : ((series.bins.filterMap id).map Bin.maxNs).max? =
      (placed.map Prod.snd).max? := by
    apply max?_of_above
    · intro x hx
      obtain ⟨bin, hbin, rfl⟩ := List.mem_map.mp hx
      obtain ⟨values, hholds, hsub⟩ := h.bin_value bin ((hmem bin).mp hbin)
      exact hsub _ (List.max?_eq_some_iff.mp hholds.greatest).1
    · intro v hv
      obtain ⟨bin, values, hbin, hholds, hin⟩ := h.value_bin v hv
      exact ⟨bin.maxNs, List.mem_map_of_mem ((hmem bin).mpr hbin),
        (List.max?_eq_some_iff.mp hholds.greatest).2 v hin⟩
  simp only [binFigures, figuresOf, hcount, hsum, hleast, hgreatest]

/-! ## The store of a graph without split keys -/

/-- INTERNAL: the record keeps its sample and every bin of its series.
SRCLINE: graph.rs:246-267 -/
def Retains (store : GraphSeriesStore) : Option (SeriesKey × ℕ × ℕ) → Prop
  | none => True
  | some call => (store.anchor call.2.1).originNs ≤ call.2.1 ∧
      (filledTo (seriesOf store call.1) (binOf store call.2.1)).bins.length ≤ binCap

/-- INTERNAL: decidable. -/
instance (store : GraphSeriesStore) (sample : Option (SeriesKey × ℕ × ℕ)) :
    Decidable (Retains store sample) := by
  cases sample with
  | none => exact inferInstanceAs (Decidable True)
  | some call => exact inferInstanceAs (Decidable (_ ∧ _))

/-- INTERNAL: the values of the samples, in order. -/
def valuesOf (samples : List (Option (SeriesKey × ℕ × ℕ))) : List ℕ :=
  samples.filterMap fun sample => sample.map fun call => call.2.2

/-- INTERNAL: the store has the one series without splits, with these values. -/
structure Keeps (store : GraphSeriesStore) (values : List ℕ) : Prop where
  single : ∀ key ∈ store.series, key = []
  whole : ∃ placed, placed.map Prod.snd = values ∧ Whole (seriesOf store []) placed

/-- INTERNAL: a new store keeps nothing. -/
theorem keeps_new (windowSecs : ℚ) : Keeps (GraphSeriesStore.new windowSecs) [] where
  single key hkey := by simp [GraphSeriesStore.new] at hkey
  whole := by
    have hnone : seriesOf (GraphSeriesStore.new windowSecs) [] = {} := by
      simp [seriesOf, GraphSeriesStore.new]
    refine ⟨[], rfl, ?_⟩
    rw [hnone]
    exact ⟨seriesFiled_empty, by simp⟩

/-- INTERNAL: SRCLINE: graph.rs:240-277 -/
theorem keeps_record (store store' : GraphSeriesStore) (values : List ℕ)
    (sample : Option (SeriesKey × ℕ × ℕ)) (h : Keeps store values)
    (hkey : ∀ call ∈ sample, call.1 = []) (hretains : Retains store sample)
    (hrec : Console.recordSample store sample = some store') :
    Keeps store' (values ++ valuesOf [sample]) := by
  cases sample with
  | none =>
    cases hrec
    simpa [valuesOf] using h
  | some call =>
    have hnil : call.1 = [] := hkey call rfl
    obtain ⟨hafter, hroom⟩ := hretains
    have hstep : recordStep store call = some store' := hrec
    have hsafe := (record_isSome store call).mp (by rw [hstep]; rfl)
    obtain ⟨hwindow, -⟩ := hsafe.resolve_left (Nat.not_lt_of_le hafter)
    rw [recordStep_after store call (Nat.pos_of_ne_zero hwindow) hafter] at hstep
    obtain ⟨series, hseries, rfl⟩ := Option.map_eq_some_iff.mp hstep
    rw [hnil] at hroom hseries ⊢
    obtain ⟨placed, hplaced, hwhole⟩ := h.whole
    refine ⟨fun key hin => ?_, placed ++ [(binOf store call.2.1, call.2.2)], ?_, ?_⟩
    · rcases ExtTreeMap.mem_insert.mp hin with hsame | hold
      · exact (Std.LawfulEqCmp.eq_of_compare hsame).symm
      · exact h.single key hold
    · rw [List.map_append, hplaced]
      rfl
    · have hread : seriesOf { store.anchor call.2.1 with
          latestBinIdx := max (store.anchor call.2.1).latestBinIdx (binOf store call.2.1)
          series := store.series.insert [] series } [] = series := by
        simp [seriesOf]
      rw [hread]
      exact whole_record (seriesOf store []) series placed _ _ hwhole hroom hseries

/-- INTERNAL: **a run of records that drops nothing keeps all the values**. -/
theorem keeps_records (samples : List (Option (SeriesKey × ℕ × ℕ)))
    (store store' : GraphSeriesStore) (values : List ℕ) (h : Keeps store values)
    (hkeys : ∀ sample ∈ samples, ∀ call ∈ sample, call.1 = [])
    (hretains : RunsUnder Console.recordSample Retains store samples)
    (hrun : samples.foldlM Console.recordSample store = some store') :
    Keeps store' (values ++ valuesOf samples) := by
  induction samples generalizing store values with
  | nil =>
    cases hrun
    simpa [valuesOf] using h
  | cons sample samples ih =>
    rw [List.foldlM_cons] at hrun
    obtain ⟨store₁, h₁, hrun⟩ := Option.bind_eq_some_iff.mp hrun
    have hnext := keeps_record store store₁ values sample h
      (hkeys sample List.mem_cons_self) hretains.1 h₁
    have hsplit : valuesOf (sample :: samples) = valuesOf [sample] ++ valuesOf samples := by
      unfold valuesOf
      rw [← List.filterMap_append, List.singleton_append]
    rw [hsplit, ← List.append_assoc]
    exact ih store₁ _ hnext (fun later hlater => hkeys later (List.mem_cons_of_mem _ hlater))
      (hretains.2 store₁ h₁) hrun

/-- INTERNAL: with one series all the bins are its own. -/
theorem storedBins_of_single (store : GraphSeriesStore) (h : ∀ key ∈ store.series, key = []) :
    storedBins store = (seriesOf store []).bins.filterMap id := by
  have hall : ∀ kv ∈ store.series.toList, store.series[kv.1]? = some kv.2 ∧ kv.1 = [] := by
    intro kv hkv
    have hget := ExtTreeMap.mem_toList_iff_getElem?_eq_some.mp hkv
    exact ⟨hget, h kv.1 (ExtTreeMap.mem_iff_isSome_getElem?.mpr (by rw [hget]; rfl))⟩
  have hdistinct := ExtTreeMap.distinct_keys_toList (t := store.series)
  unfold storedBins seriesOf
  rw [ExtTreeMap.getD_eq_getD_getElem?]
  cases hlist : store.series.toList with
  | nil =>
    have hnone : store.series[([] : SeriesKey)]? = none := by
      rw [Option.eq_none_iff_forall_ne_some]
      intro series hget
      have hin : (([] : SeriesKey), series) ∈ store.series.toList :=
        ExtTreeMap.mem_toList_iff_getElem?_eq_some.mpr hget
      rw [hlist] at hin
      exact absurd hin List.not_mem_nil
    rw [hnone]
    rfl
  | cons kv rest =>
    rw [hlist] at hall hdistinct
    obtain ⟨hget, hnil⟩ := hall kv List.mem_cons_self
    -- a second series would have the key of the first
    have hrest : rest = [] := by
      rw [List.eq_nil_iff_forall_not_mem]
      intro other hother
      have hne := (List.pairwise_cons.mp hdistinct).1 other hother
      rw [hnil, (hall other (List.mem_cons_of_mem _ hother)).2] at hne
      exact hne Std.ReflCmp.compare_self
    rw [hnil] at hget
    rw [hrest, hget]
    simp

/-- INTERNAL: **what is stored is what was recorded**. -/
theorem storedFigures_eq (store : GraphSeriesStore) (values : List ℕ) (h : Keeps store values) :
    binFigures (storedBins store) = figuresOf values := by
  obtain ⟨placed, hplaced, hwhole⟩ := h.whole
  rw [storedBins_of_single store h.single, binFigures_whole _ placed hwhole, hplaced]

end TracingConsole.Analysis
