import TracingConsole.Library.KeyedTable
import TracingConsole.Library.LinearProbing
import TracingConsole.Model.ChartView

/-!
# The colours of the series

The probe over the flags finds the slot that a probe of the set of taken slots finds
(`probeSlot_eq`), so the assignment gives the keys their places in the table
(`assignSeriesColors_eq`): it never panics, whatever the hash, and no two series share a slot
while there are slots left.
-/

set_option autoImplicit false

namespace TracingConsole.Analysis.Console

open TracingConsole.Library TracingConsole.Model
open Std (ExtTreeMap)

/-! ## The flags as a set -/

/-- INTERNAL: the slots whose flag is set. -/
def takenSlots (occupied : List Bool) : Finset ℕ :=
  (Finset.range occupied.length).filter fun slot => occupied[slot]? = some true

/-- INTERNAL: a slot is taken if it is occupied. -/
theorem mem_takenSlots (occupied : List Bool) (slot : ℕ) :
    slot ∈ takenSlots occupied ↔ occupied[slot]? = some true := by
  unfold takenSlots
  rw [Finset.mem_filter, Finset.mem_range]
  refine and_iff_right_of_imp fun hset => ?_
  exact (List.getElem?_eq_some_iff.mp hset).1

/-- INTERNAL: a slot that is occupied is taken too. -/
theorem takenSlots_set (occupied : List Bool) (slot : ℕ) (hslot : slot < occupied.length) :
    takenSlots (occupied.set slot true) = insert slot (takenSlots occupied) := by
  ext s
  rw [Finset.mem_insert, mem_takenSlots, mem_takenSlots]
  by_cases hsame : slot = s
  · subst hsame
    rw [List.getElem?_set_self hslot]
    simp
  · rw [List.getElem?_set_ne hsame]
    exact (or_iff_right fun heq => hsame heq.symm).symm

/-- INTERNAL: at first no slot is taken. -/
theorem takenSlots_replicate (palette : ℕ) : takenSlots (List.replicate palette false) = ∅ := by
  ext s
  rw [mem_takenSlots, List.getElem?_replicate]
  split <;> simp

/-- INTERNAL: **the probe over the flags** is the probe of the set.
SRCLINE: view/graph.rs:56-62 -/
theorem probeSlot_eq (palette : ℕ) (occupied : List Bool) (hlen : occupied.length = palette)
    (probes slot : ℕ) (hslot : slot < palette) :
    probeSlot palette occupied probes slot =
      some (probe palette (takenSlots occupied) probes slot) := by
  induction probes generalizing slot with
  | zero => rfl
  | succ probes ih =>
    have hget : occupied[slot]? = some occupied[slot] := List.getElem?_eq_getElem (by omega)
    have hin := mem_takenSlots occupied slot
    unfold probeSlot probe
    rw [hget] at hin ⊢
    cases hflag : occupied[slot] with
    | false =>
      rw [if_neg]
      rw [hin, hflag]
      decide
    | true =>
      rw [if_pos (hin.mpr (congrArg some hflag))]
      exact ih _ (Nat.mod_lt _ (by omega))

/-! ## The assignment -/

/-- INTERNAL: SRCLINE: view/graph.rs:54-65 -/
theorem assignFrom_eq (palette : ℕ) (hpalette : 0 < palette) (colorIndexOf : SeriesKey → ℕ)
    (keys : List SeriesKey) (occupied : List Bool) (hlen : occupied.length = palette)
    (assignment : ExtTreeMap SeriesKey ℕ) :
    assignFrom palette colorIndexOf occupied assignment keys =
      some (assignment.insertMany
        (keys.zip (probeAll palette colorIndexOf (takenSlots occupied) keys))) := by
  induction keys generalizing occupied assignment with
  | nil => rfl
  | cons key keys ih =>
    have hpreferred : colorIndexOf key % palette < palette := Nat.mod_lt _ hpalette
    have hslot := probe_lt palette (takenSlots occupied) palette _ hpreferred
    unfold assignFrom probeAll
    rw [if_neg (by omega), probeSlot_eq palette occupied hlen palette _ hpreferred,
      Option.bind_some, if_pos (by omega), ih _ (by rw [List.length_set, hlen]),
      takenSlots_set occupied _ (by omega)]
    rw [List.zip_cons_cons, ExtTreeMap.insertMany_cons]

/-- INTERNAL: **every key gets its place in the table**, whatever the hash.
SRCLINE: view/graph.rs:48-67 -/
theorem assignSeriesColors_eq (palette : ℕ) (hpalette : 0 < palette)
    (colorIndexOf : SeriesKey → ℕ) (keys : List SeriesKey) :
    assignSeriesColors palette colorIndexOf keys =
      some ((∅ : ExtTreeMap SeriesKey ℕ).insertMany (probedSlots palette colorIndexOf keys)) := by
  unfold assignSeriesColors probedSlots
  rw [assignFrom_eq palette hpalette colorIndexOf keys _ List.length_replicate,
    takenSlots_replicate]

section Assigned

variable (palette : ℕ) (hpalette : 0 < palette) (colorIndexOf : SeriesKey → ℕ)
  (keys : List SeriesKey) (hkeys : keys.Nodup) (slots : ExtTreeMap SeriesKey ℕ)
  (h : assignSeriesColors palette colorIndexOf keys = some slots)

include hpalette hkeys h

/-- INTERNAL: what the assignment has for a key is the place of the key. -/
theorem slot_iff_probed (key : SeriesKey) (slot : ℕ) :
    slots[key]? = some slot ↔ (key, slot) ∈ probedSlots palette colorIndexOf keys := by
  rw [assignSeriesColors_eq palette hpalette, Option.some.injEq] at h
  have hnodup : ((probedSlots palette colorIndexOf keys).map Prod.fst).Nodup := by
    rwa [map_fst_probedSlots]
  rw [← h, getElem?_insertMany_iff _ _ hnodup fun kv _ => ExtTreeMap.getElem?_empty,
    ExtTreeMap.getElem?_empty]
  exact or_iff_right fun hnone => Option.some_ne_none slot hnone.symm

/-- INTERNAL: only a key of the list has a slot. -/
theorem key_of_slot (key : SeriesKey) (slot : ℕ) (hslot : slots[key]? = some slot) :
    key ∈ keys := by
  have hprobed := (slot_iff_probed palette hpalette colorIndexOf keys hkeys slots h key slot).mp
    hslot
  rw [← map_fst_probedSlots palette colorIndexOf keys]
  exact List.mem_map_of_mem hprobed

/-- INTERNAL: every key has a slot of the palette. -/
theorem slot_of_key (key : SeriesKey) (hin : key ∈ keys) :
    ∃ slot < palette, slots[key]? = some slot := by
  obtain ⟨slot, hslot⟩ := exists_probedSlots palette colorIndexOf keys key hin
  refine ⟨slot, probedSlots_lt palette colorIndexOf hpalette keys key slot hslot, ?_⟩
  exact (slot_iff_probed palette hpalette colorIndexOf keys hkeys slots h key slot).mpr hslot

/-- INTERNAL: **no two keys share a slot** of a palette that is large enough. -/
theorem slots_injective (hfew : keys.length ≤ palette) (a b : SeriesKey) (ha : a ∈ keys)
    (hsame : slots[a]? = slots[b]?) : a = b := by
  obtain ⟨slot, -, hslot⟩ := slot_of_key palette hpalette colorIndexOf keys hkeys slots h a ha
  have hread := slot_iff_probed palette hpalette colorIndexOf keys hkeys slots h
  exact probedSlots_injective palette colorIndexOf keys hfew a b slot ((hread a slot).mp hslot)
    ((hread b slot).mp (hsame.symm.trans hslot))

/-- INTERNAL: **enough keys use every slot**. -/
theorem slots_covered (hmany : palette ≤ keys.length) (slot : ℕ) (hslot : slot < palette) :
    ∃ key ∈ keys, slots[key]? = some slot := by
  obtain ⟨key, hprobed⟩ := probedSlots_covers palette colorIndexOf keys hmany slot hslot
  have hread := (slot_iff_probed palette hpalette colorIndexOf keys hkeys slots h key slot).mpr
    hprobed
  exact ⟨key, key_of_slot palette hpalette colorIndexOf keys hkeys slots h key slot hread, hread⟩

end Assigned

/-- CODE: view/graph.rs:39-67 — **series colours are distinct while they can be**: for any
palette that is not empty, any hash and any distinct keys the assignment does not panic and
gives slots of the palette to these keys alone; two keys never share a slot if there are at most
as many as slots, and no slot is left if there are at least as many. -/
theorem series_colors_distinct (palette : ℕ) (hpalette : 1 ≤ palette)
    (colorIndexOf : SeriesKey → ℕ) (keys : List SeriesKey) (hkeys : keys.Nodup) :
    ∃ slots, assignSeriesColors palette colorIndexOf keys = some slots ∧
      (∀ key, key ∈ slots ↔ key ∈ keys) ∧
      (∀ key ∈ keys, ∃ slot < palette, slots[key]? = some slot) ∧
      (keys.length ≤ palette → ∀ a ∈ keys, ∀ b ∈ keys, slots[a]? = slots[b]? → a = b) ∧
      (palette ≤ keys.length → ∀ slot < palette, ∃ key ∈ keys, slots[key]? = some slot) := by
  obtain ⟨slots, h⟩ : ∃ slots, assignSeriesColors palette colorIndexOf keys = some slots :=
    ⟨_, assignSeriesColors_eq palette hpalette colorIndexOf keys⟩
  have hslot := slot_of_key palette hpalette colorIndexOf keys hkeys slots h
  refine ⟨slots, h, fun key => ?_, hslot, fun hfew a ha b _ hsame => ?_, fun hmany => ?_⟩
  · rw [← ExtTreeMap.isSome_getElem?_iff_mem, Option.isSome_iff_exists]
    constructor
    · intro hfound
      obtain ⟨slot, hread⟩ := hfound
      exact key_of_slot palette hpalette colorIndexOf keys hkeys slots h key slot hread
    · intro hin
      obtain ⟨slot, -, hread⟩ := hslot key hin
      exact ⟨slot, hread⟩
  · exact slots_injective palette hpalette colorIndexOf keys hkeys slots h hfew a b ha hsame
  · exact slots_covered palette hpalette colorIndexOf keys hkeys slots h hmany

/-- INTERNAL: three series. -/
def threeSeries : List SeriesKey := [[], [("api", "fetch")], [("api", "post")]]

/-- INTERNAL: `series_colors_distinct` for three series that ask for the same slot. -/
theorem series_colors_distinct_three :
    ∃ slots, assignSeriesColors 8 (fun _ => 21) threeSeries = some slots ∧
      (∀ key, key ∈ slots ↔ key ∈ threeSeries) ∧
      (∀ key ∈ threeSeries, ∃ slot < 8, slots[key]? = some slot) ∧
      (threeSeries.length ≤ 8 →
        ∀ a ∈ threeSeries, ∀ b ∈ threeSeries, slots[a]? = slots[b]? → a = b) ∧
      (8 ≤ threeSeries.length → ∀ slot < 8, ∃ key ∈ threeSeries, slots[key]? = some slot) :=
  series_colors_distinct 8 (by decide) (fun _ => 21) threeSeries (by decide)

/-! ## The series of a chart -/

/-- INTERNAL: what a map over a list gives, item by item. -/
theorem forall₂_of_mapM {α β : Type} (f : α → Option β) (l : List α) (ys : List β)
    (h : l.mapM f = some ys) : List.Forall₂ (fun a b => f a = some b) l ys := by
  induction l generalizing ys with
  | nil =>
    rw [List.mapM_nil] at h
    cases h
    exact List.Forall₂.nil
  | cons a l ih =>
    rw [List.mapM_cons] at h
    obtain ⟨b, hb, hrest⟩ := Option.bind_eq_some_iff.mp h
    obtain ⟨zs, hzs, hdone⟩ := Option.bind_eq_some_iff.mp hrest
    cases hdone
    exact List.Forall₂.cons hb (ih zs hzs)

/-- INTERNAL: what is projected is nothing or every series, in the order of the keys.
SRCLINE: model/graph.rs:295-350 -/
theorem project_forall₂ (store : GraphSeriesStore) (agg : AggMode) (metric : Metric)
    (xMaxSecs : WithTop ℚ) (ps : List SeriesProjection)
    (h : store.project agg metric xMaxSecs = some ps) :
    ps = [] ∨ ∃ oldest, List.Forall₂
      (fun kv p => store.projectSeries agg metric oldest kv.1 kv.2 = some p)
      store.series.toList ps := by
  unfold GraphSeriesStore.project at h
  split at h
  · cases h
    exact Or.inl rfl
  · exact Or.inr ⟨_, forall₂_of_mapM _ _ _ h⟩

/-- INTERNAL: a series is drawn under its key. -/
theorem projectSeries_key (store : GraphSeriesStore) (agg : AggMode) (metric : Metric)
    (oldest : ℕ) (kv : SeriesKey × Series) (p : SeriesProjection)
    (h : store.projectSeries agg metric oldest kv.1 kv.2 = some p) : kv.1 = p.key := by
  unfold GraphSeriesStore.projectSeries at h
  split at h
  · cases h
  · cases h
    rfl

/-- INTERNAL: only the keys of the store are drawn. -/
theorem project_keys (store : GraphSeriesStore) (agg : AggMode) (metric : Metric) (xMaxSecs : WithTop ℚ)
    (ps : List SeriesProjection) (h : store.project agg metric xMaxSecs = some ps) :
    (ps.map SeriesProjection.key).Sublist store.series.keys := by
  rcases project_forall₂ store agg metric xMaxSecs ps h with rfl | ⟨oldest, hall⟩
  · exact List.nil_sublist _
  · have hkeys : List.Forall₂ Eq (store.series.toList.map Prod.fst)
        (ps.map SeriesProjection.key) :=
      List.forall₂_map_left_iff.mpr (List.forall₂_map_right_iff.mpr
        (hall.imp (projectSeries_key store agg metric oldest)))
    rw [List.forall₂_eq_eq_eq] at hkeys
    rw [← hkeys, ExtTreeMap.map_fst_toList_eq_keys]

/-- INTERNAL: the palette has no colour twice.
SRCLINE: view/graph.rs:18-37 -/
theorem seriesColor_injective (i j : ℕ) (hi : i < seriesPalette.length)
    (hj : j < seriesPalette.length) (h : seriesColor i true = seriesColor j true) : i = j := by
  have hnodup : seriesPalette.Nodup := by decide
  unfold seriesColor at h
  rw [if_pos rfl, if_pos rfl, Nat.mod_eq_of_lt hi, Nat.mod_eq_of_lt hj,
    List.getD_eq_getElem _ _ hi, List.getD_eq_getElem _ _ hj] at h
  exact (List.Nodup.getElem_inj_iff hnodup).mp h

/-- INTERNAL: **no two lines of a chart have the same colour** while there are colours for all
of the series, hidden ones too.
SRCLINE: view/graph.rs:393-412 -/
theorem chart_colors_nodup (colorIndexOf : List String → SeriesKey → ℕ) (gs : GraphState)
    (chart : Chart) (h : renderGraph colorIndexOf gs true = some chart)
    (hfew : gs.alphaSeriesKeys.length ≤ seriesPalette.length) :
    (chart.series.map Prod.snd).Nodup := by
  obtain ⟨ps, hps, hslots⟩ := Option.bind_eq_some_iff.mp h
  obtain ⟨slots, hassign, rfl⟩ := Option.map_eq_some_iff.mp hslots
  have hkeys := project_keys _ _ _ _ ps hps
  have hall : gs.alphaSeriesKeys.Nodup := keys_nodup gs.store.series
  have hpalette : 0 < seriesPalette.length := by decide
  have hslot := slot_of_key _ hpalette (colorIndexOf gs.lockedStack) _ hall slots hassign
  have hdistinct := slots_injective _ hpalette (colorIndexOf gs.lockedStack) _ hall slots hassign
  have hnodup : (ps.map SeriesProjection.key).Nodup := hall.sublist hkeys
  rw [List.map_map]
  apply List.Nodup.map_on
  · intro p hp q hq hsame
    have hp' := List.mem_of_mem_filter hp
    have hq' := List.mem_of_mem_filter hq
    have hpkey : p.key ∈ gs.alphaSeriesKeys := hkeys.subset (List.mem_map_of_mem hp')
    have hqkey : q.key ∈ gs.alphaSeriesKeys := hkeys.subset (List.mem_map_of_mem hq')
    obtain ⟨i, hi, hpi⟩ := hslot p.key hpkey
    obtain ⟨j, hj, hqj⟩ := hslot q.key hqkey
    simp only [Function.comp_apply, hpi, hqj, Option.getD_some] at hsame
    have hij := seriesColor_injective i j hi hj hsame
    have hkey := hdistinct hfew p.key q.key hpkey (by rw [hpi, hqj, hij])
    exact List.inj_on_of_nodup_map hnodup hp' hq' hkey
  · exact (List.Nodup.of_map _ hnodup).filter _

end TracingConsole.Analysis.Console
