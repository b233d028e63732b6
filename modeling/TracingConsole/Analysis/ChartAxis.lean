import TracingConsole.Library.GridScale
import TracingConsole.Analysis.SeriesColors

/-!
# The y axis of the chart

A nice step is at least four sevenths of what it is asked for (`lt_niceStep`), so the range of
the data is less than seven steps.  The bounds of the axis are the lines of the grid next to the
data, with a billionth of a step as the slack (`niceAxis_eq_scale`); what the loop over the ticks
lists are the lines between them.
-/

set_option autoImplicit false

namespace TracingConsole.Analysis.Console

open TracingConsole.Library TracingConsole.Model

/-! ## The step -/

/-- INTERNAL: a positive number is a fraction from 1 on and below 10 of its power of ten. -/
theorem frac_bounds (raw : ℚ) (hraw : 0 < raw) :
    0 < (10 : ℚ) ^ Int.log 10 raw ∧ 1 ≤ raw / (10 : ℚ) ^ Int.log 10 raw ∧
      raw / (10 : ℚ) ^ Int.log 10 raw < 10 := by
  have hpow : (0 : ℚ) < (10 : ℚ) ^ Int.log 10 raw := zpow_pos (by norm_num) _
  have hle : (10 : ℚ) ^ Int.log 10 raw ≤ raw := by
    exact_mod_cast Int.zpow_log_le_self (b := 10) (by norm_num) hraw
  have hlt : raw < (10 : ℚ) ^ (Int.log 10 raw + 1) := by
    exact_mod_cast Int.lt_zpow_succ_log_self (b := 10) (by norm_num) raw
  rw [zpow_add_one₀ (by norm_num), mul_comm] at hlt
  exact ⟨hpow, (one_le_div hpow).mpr hle, (div_lt_iff₀ hpow).mpr hlt⟩

/-- INTERNAL: what a multiple of the power of ten is to a fraction that is rounded to it. -/
theorem rounded_bounds (pow frac nice lo hi : ℚ) (hpow : 0 < pow) (hnice : 0 < nice)
    (hlo : lo ≤ frac) (hhi : frac < hi) (hbelow : 4 * hi ≤ 7 * nice) (habove : 7 * nice ≤ 10 * lo) :
    0 < nice * pow ∧ 4 * (frac * pow) < 7 * (nice * pow) ∧
      7 * (nice * pow) ≤ 10 * (frac * pow) := by
  have hlow := mul_le_mul_of_nonneg_right (habove.trans (mul_le_mul_of_nonneg_left hlo
    (by norm_num : (0 : ℚ) ≤ 10))) hpow.le
  have hhigh := mul_lt_mul_of_pos_right ((mul_lt_mul_of_pos_left hhi
    (by norm_num : (0 : ℚ) < 4)).trans_le hbelow) hpow
  exact ⟨mul_pos hnice hpow, by linarith, by linarith⟩

/-- INTERNAL: **a nice step is close to what was asked for**.
SRCLINE: view/graph.rs:239-257 -/
theorem niceStep_bounds (raw : ℚ) (hraw : 0 < raw) :
    0 < niceStep raw ∧ 4 * raw < 7 * niceStep raw ∧ 7 * niceStep raw ≤ 10 * raw := by
  obtain ⟨hpow, hone, hten⟩ := frac_bounds raw hraw
  have hfrac : raw / (10 : ℚ) ^ Int.log 10 raw * (10 : ℚ) ^ Int.log 10 raw = raw :=
    div_mul_cancel₀ raw hpow.ne'
  have hround := rounded_bounds ((10 : ℚ) ^ Int.log 10 raw) (raw / (10 : ℚ) ^ Int.log 10 raw)
  rw [hfrac] at hround
  unfold niceStep
  rw [if_neg (not_le.mpr hraw)]
  dsimp only
  split
  · next hlt => exact hround 1 1 (3 / 2) hpow (by norm_num) hone hlt (by norm_num) (by norm_num)
  · next hge =>
    have hlo := not_lt.mp hge
    split
    · next hlt =>
      exact hround 2 (3 / 2) (7 / 2) hpow (by norm_num) hlo hlt (by norm_num) (by norm_num)
    · next hge =>
      have hlo := not_lt.mp hge
      split
      · next hlt =>
        exact hround 5 (7 / 2) (15 / 2) hpow (by norm_num) hlo hlt (by norm_num) (by norm_num)
      · next hge =>
        exact hround 10 (15 / 2) 10 hpow (by norm_num) (not_lt.mp hge) hten (by norm_num)
          (by norm_num)

/-! ## The axis as a scale -/

/-- INTERNAL: the range the step is chosen for.
SRCLINE: view/graph.rs:277-285 -/
def effectiveRange (rawMin rawMax : ℚ) : ℚ :=
  if 0 < rawMax - rawMin then rawMax - rawMin else max (rawMax * (1 / 10)) 1

/-- INTERNAL: the range is positive and holds the data. -/
theorem effectiveRange_bounds (rawMin rawMax : ℚ) :
    0 < effectiveRange rawMin rawMax ∧ rawMax - rawMin ≤ effectiveRange rawMin rawMax := by
  unfold effectiveRange
  split
  · next hrange => exact ⟨hrange, le_rfl⟩
  · next hrange =>
    have hone := le_max_right (rawMax * (1 / 10)) 1
    exact ⟨by linarith, by linarith⟩

/-- INTERNAL: the step of the axis. -/
def axisStep (rawMin rawMax : ℚ) : ℚ := niceStep (effectiveRange rawMin rawMax / 4)

/-- INTERNAL: **the data spans less than seven steps**. -/
theorem axisStep_bounds (rawMin rawMax : ℚ) :
    0 < axisStep rawMin rawMax ∧ rawMax - rawMin < 7 * axisStep rawMin rawMax := by
  obtain ⟨hpos, hrange⟩ := effectiveRange_bounds rawMin rawMax
  obtain ⟨hstep, hlarge, -⟩ := niceStep_bounds (effectiveRange rawMin rawMax / 4) (by linarith)
  exact ⟨hstep, by unfold axisStep; linarith⟩

/-- INTERNAL: `tol`, what the bounds of the axis stay away from the data at least. -/
def axisTol (rawMin rawMax : ℚ) : ℚ := axisStep rawMin rawMax * (1 / 1000000000)

/-- INTERNAL: the lower bound is a line below the data, or zero where the data begins at it. -/
theorem lowest_line (step slack rawMin : ℚ) (hstep : 0 < step) (hslack : 0 ≤ slack)
    (hnonneg : 0 ≤ rawMin) :
    rawMin - step - slack ≤ (max 0 (lineBelow step slack rawMin) : ℤ) * step ∧
      ((max 0 (lineBelow step slack rawMin) : ℤ) * step < rawMin ∨
        (max 0 (lineBelow step slack rawMin) : ℤ) * step = rawMin ∧ rawMin = 0) := by
  obtain ⟨hlt, hnear⟩ := lineBelow_lt step slack rawMin hstep hslack
  rcases le_total 0 (lineBelow step slack rawMin) with hline | hline
  · rw [max_eq_right hline]
    exact ⟨hnear, Or.inl hlt⟩
  · -- the line is below zero, so zero is at most a step and the slack away
    have hneg : (lineBelow step slack rawMin : ℚ) * step ≤ 0 :=
      mul_nonpos_of_nonpos_of_nonneg (by exact_mod_cast hline) hstep.le
    rw [max_eq_left hline, Int.cast_zero, zero_mul]
    refine ⟨hnear.trans hneg, ?_⟩
    rcases hnonneg.lt_or_eq with hpos | hzero
    · exact Or.inl hpos
    · exact Or.inr ⟨hzero, hzero.symm⟩

/-- INTERNAL: **the lines next to the data**, none below zero. -/
def axisScale (rawMin rawMax : ℚ) (hnonneg : 0 ≤ rawMin) (hle : rawMin ≤ rawMax) : Scale ℚ where
  step := axisStep rawMin rawMax
  lo := max 0 (lineBelow (axisStep rawMin rawMax) (axisTol rawMin rawMax) rawMin)
  hi := lineAbove (axisStep rawMin rawMax) (axisTol rawMin rawMax) rawMax
  step_pos := (axisStep_bounds rawMin rawMax).1
  lo_le_hi := by
    have hstep := (axisStep_bounds rawMin rawMax).1
    have htol : 0 ≤ axisTol rawMin rawMax := mul_nonneg hstep.le (by norm_num)
    obtain ⟨-, hlo⟩ := lowest_line _ _ rawMin hstep htol hnonneg
    obtain ⟨hhi, -⟩ := lt_lineAbove _ _ rawMax hstep htol
    have hbelow := hlo.elim le_of_lt fun heq => heq.1.le
    have hlines := hbelow.trans_lt (hle.trans_lt hhi)
    exact_mod_cast (lt_of_mul_lt_mul_right hlines hstep.le).le

/-- INTERNAL: SRCLINE: view/graph.rs:288, view/graph.rs:297-305 -/
theorem lower_bound_eq (step tol rawMin : ℚ) (hstep : 0 < step) (hnonneg : 0 ≤ rawMin) :
    (if rawMin - tol ≤ ⌊rawMin / step⌋ * step then
        if 0 ≤ ⌊rawMin / step⌋ * step - step then ⌊rawMin / step⌋ * step - step
        else ⌊rawMin / step⌋ * step
      else ⌊rawMin / step⌋ * step) = (max 0 (lineBelow step tol rawMin) : ℤ) * step := by
  -- the candidate is not below zero if and only if the line is not the first
  have hcandidate : 0 ≤ ⌊rawMin / step⌋ * step - step ↔ 1 ≤ ⌊rawMin / step⌋ := by
    have hsplit : (⌊rawMin / step⌋ : ℚ) * step - step = (⌊rawMin / step⌋ - 1) * step := by ring
    rw [hsplit, mul_nonneg_iff_of_pos_right hstep, sub_nonneg]
    exact_mod_cast Iff.rfl
  rw [max_lineBelow step tol rawMin hstep hnonneg]
  by_cases hnear : rawMin - tol ≤ ⌊rawMin / step⌋ * step
  · by_cases hone : 1 ≤ ⌊rawMin / step⌋
    · rw [if_pos hnear, if_pos (hcandidate.mpr hone), if_pos ⟨hnear, hone⟩, Int.cast_sub,
        Int.cast_one]
      ring
    · rw [if_pos hnear, if_neg (mt hcandidate.mp hone), if_neg fun hboth => hone hboth.2]
  · rw [if_neg hnear, if_neg fun hboth => hnear hboth.1]

/-- INTERNAL: SRCLINE: view/graph.rs:289, view/graph.rs:306-308 -/
theorem upper_bound_eq (step tol rawMax : ℚ) :
    (if ⌈rawMax / step⌉ * step ≤ rawMax + tol then ⌈rawMax / step⌉ * step + step
      else ⌈rawMax / step⌉ * step) = (lineAbove step tol rawMax : ℤ) * step := by
  unfold lineAbove
  split
  · rw [Int.cast_add, Int.cast_one]
    ring
  · rfl

section Axis

variable (rawMin rawMax : ℚ) (hnonneg : 0 ≤ rawMin) (hle : rawMin ≤ rawMax)

/-- INTERNAL: **the axis is the scale of these lines**.
SRCLINE: view/graph.rs:271-310 -/
theorem niceAxis_eq :
    niceAxis rawMin rawMax =
      ((axisScale rawMin rawMax hnonneg hle).lo * (axisScale rawMin rawMax hnonneg hle).step,
        (axisScale rawMin rawMax hnonneg hle).hi * (axisScale rawMin rawMax hnonneg hle).step,
        (axisScale rawMin rawMax hnonneg hle).step) := by
  have hstep := (axisStep_bounds rawMin rawMax).1
  have hclamp : max rawMin 0 = rawMin := max_eq_left hnonneg
  have horder : max rawMax rawMin = rawMax := max_eq_left hle
  have hlower := lower_bound_eq (axisStep rawMin rawMax) (axisTol rawMin rawMax) rawMin hstep
    hnonneg
  have hupper := upper_bound_eq (axisStep rawMin rawMax) (axisTol rawMin rawMax) rawMax
  unfold niceAxis axisScale
  dsimp only
  rw [hclamp, horder, ← hlower, ← hupper]
  rfl

/-- INTERNAL: the axis is longer than the data, by a step and the slack on each side at most. -/
theorem axisScale_span :
    rawMax - rawMin < ((axisScale rawMin rawMax hnonneg hle).hi -
        (axisScale rawMin rawMax hnonneg hle).lo : ℤ) * axisStep rawMin rawMax ∧
      ((axisScale rawMin rawMax hnonneg hle).hi - (axisScale rawMin rawMax hnonneg hle).lo : ℤ) *
        axisStep rawMin rawMax ≤
          rawMax - rawMin + 2 * (axisStep rawMin rawMax + axisTol rawMin rawMax) := by
  have hstep := (axisStep_bounds rawMin rawMax).1
  have htol : 0 ≤ axisTol rawMin rawMax := mul_nonneg hstep.le (by norm_num)
  obtain ⟨hlo, hbelow⟩ := lowest_line _ _ rawMin hstep htol hnonneg
  obtain ⟨habove, hhi⟩ := lt_lineAbove _ _ rawMax hstep htol
  have hle' := hbelow.elim le_of_lt fun heq => heq.1.le
  unfold axisScale
  rw [Int.cast_sub, sub_mul]
  exact ⟨by linarith, by linarith⟩

/-- INTERNAL: **an axis has nine steps at most**. -/
theorem axisScale_steps :
    (axisScale rawMin rawMax hnonneg hle).hi - (axisScale rawMin rawMax hnonneg hle).lo ≤ 9 := by
  obtain ⟨hstep, hrange⟩ := axisStep_bounds rawMin rawMax
  obtain ⟨-, hspan⟩ := axisScale_span rawMin rawMax hnonneg hle
  have hsmall : 2 * axisTol rawMin rawMax < axisStep rawMin rawMax := by
    unfold axisTol
    linarith
  have hten : ((axisScale rawMin rawMax hnonneg hle).hi -
      (axisScale rawMin rawMax hnonneg hle).lo : ℤ) < ((10 : ℤ) : ℚ) := by
    apply lt_of_mul_lt_mul_right _ hstep.le
    push_cast at hspan ⊢
    linarith
  exact Int.lt_add_one_iff.mp (by exact_mod_cast hten)

end Axis

/-- INTERNAL: **the loop lists the ticks of the scale**.
SRCLINE: view/graph.rs:312-327 -/
theorem axisTicks_eq (s : Scale ℚ) :
    axisTicks (s.lo * s.step) (s.hi * s.step) s.step = s.ticks := by
  unfold axisTicks
  rw [dif_neg (not_le.mpr s.step_pos)]
  apply s.ticks_of_loop
  intro v
  rw [axisTicksFrom, mul_one_div]

/-! ## What an axis owes to the data -/

/-- INTERNAL: **the axis brackets the data**: its bounds are lines of a grid, the upper one
above the data, and the lower one below it, or both at zero. -/
structure Brackets (rawMin rawMax : ℚ) (axis : ℚ × ℚ × ℚ) : Prop where
  step_pos : 0 < axis.2.2
  min_line : ∃ k : ℤ, axis.1 = k * axis.2.2
  max_line : ∃ k : ℤ, axis.2.1 = k * axis.2.2
  above : rawMax < axis.2.1
  below : axis.1 < rawMin ∨ axis.1 = rawMin ∧ rawMin = 0

/-- INTERNAL: **the ticks go from bound to bound**, a step apart, and they are few. -/
structure EvenTicks (axis : ℚ × ℚ × ℚ) (ticks : List ℚ) : Prop where
  first : ticks.head? = some axis.1
  last : ticks.getLast? = some axis.2.1
  apart : ticks.IsChain fun a b => b = a + axis.2.2
  few : ticks.length ≤ 12

/-- INTERNAL: the ticks of an axis. -/
def ticksOf (axis : ℚ × ℚ × ℚ) : List ℚ := axisTicks axis.1 axis.2.1 axis.2.2

section Axis

variable (rawMin rawMax : ℚ) (hnonneg : 0 ≤ rawMin) (hle : rawMin ≤ rawMax)

include hnonneg hle

/-- INTERNAL: the axis holds the data between its ends. -/
theorem niceAxis_brackets : Brackets rawMin rawMax (niceAxis rawMin rawMax) := by
  have hstep := (axisStep_bounds rawMin rawMax).1
  have htol : 0 ≤ axisTol rawMin rawMax := mul_nonneg hstep.le (by norm_num)
  rw [niceAxis_eq rawMin rawMax hnonneg hle]
  exact {
    step_pos := (axisScale rawMin rawMax hnonneg hle).step_pos
    min_line := ⟨_, rfl⟩
    max_line := ⟨_, rfl⟩
    above := (lt_lineAbove _ _ rawMax hstep htol).1
    below := (lowest_line _ _ rawMin hstep htol hnonneg).2 }

/-- INTERNAL: the ticks are those of the grid. -/
theorem ticksOf_niceAxis :
    ticksOf (niceAxis rawMin rawMax) = (axisScale rawMin rawMax hnonneg hle).ticks := by
  rw [niceAxis_eq rawMin rawMax hnonneg hle]
  exact axisTicks_eq _

/-- INTERNAL: they are even. -/
theorem niceAxis_ticks : EvenTicks (niceAxis rawMin rawMax) (ticksOf (niceAxis rawMin rawMax)) := by
  have hcount := (axisScale rawMin rawMax hnonneg hle).length_ticks
  have hsteps := axisScale_steps rawMin rawMax hnonneg hle
  rw [ticksOf_niceAxis rawMin rawMax hnonneg hle, niceAxis_eq rawMin rawMax hnonneg hle]
  exact {
    first := Scale.head?_ticks _
    last := Scale.getLast?_ticks _
    apart := Scale.isChain_ticks _
    few := by omega }

end Axis

/-- CODE: view/graph.rs:235-327 — **chart axes bracket their data**: in exact arithmetic, for
any range of data from zero on, the step is positive, both bounds are multiples of it, the upper
one is above the data and the lower one below, unless both are zero; the loop over the ticks
ends, with twelve ticks at most, a step apart, the first of them at the lower bound and the last
one at the upper bound. -/
theorem axis_brackets_data (rawMin rawMax : ℚ) (hnonneg : 0 ≤ rawMin) (hle : rawMin ≤ rawMax) :
    Brackets rawMin rawMax (niceAxis rawMin rawMax) ∧
      EvenTicks (niceAxis rawMin rawMax) (ticksOf (niceAxis rawMin rawMax)) :=
  ⟨niceAxis_brackets rawMin rawMax hnonneg hle, niceAxis_ticks rawMin rawMax hnonneg hle⟩

/-- INTERNAL: `axis_brackets_data` for a series that is always 50. -/
theorem axis_brackets_constant :
    Brackets 50 50 (niceAxis (50 : ℚ) (50 : ℚ)) ∧
      EvenTicks (niceAxis (50 : ℚ) (50 : ℚ)) (ticksOf (niceAxis (50 : ℚ) (50 : ℚ))) :=
  axis_brackets_data 50 50 (by norm_num) le_rfl

example : niceAxis (96100000 : ℚ) (148100000 : ℚ) = (90000000, 150000000, 10000000) := by
  decide +kernel

/-! ## The points of a chart -/

/-- INTERNAL: the least and the greatest of some values are among them. -/
theorem rawBounds_from (ys : List ℚ) (lo hi : ℚ) :
    ∃ lo' hi' : ℚ, ys.foldl widen ((lo : WithTop ℚ), (hi : WithBot ℚ)) =
        ((lo' : WithTop ℚ), (hi' : WithBot ℚ)) ∧
      lo' ∈ lo :: ys ∧ (∀ y ∈ lo :: ys, lo' ≤ y) ∧ ∀ y ∈ hi :: ys, y ≤ hi' := by
  induction ys generalizing lo hi with
  | nil => exact ⟨lo, hi, rfl, List.mem_singleton_self lo, by simp, by simp⟩
  | cons y ys ih =>
    obtain ⟨lo', hi', hfold, hin, hlo, hhi⟩ := ih (min lo y) (max hi y)
    refine ⟨lo', hi', ?_, ?_, ?_, ?_⟩
    · rw [List.foldl_cons, ← hfold, widen, WithTop.coe_min, WithBot.coe_max]
    · rcases List.mem_cons.mp hin with rfl | hlater
      · rcases min_choice lo y with hmin | hmin
        · rw [hmin]
          exact List.mem_cons_self
        · rw [hmin]
          exact List.mem_cons_of_mem _ List.mem_cons_self
      · exact List.mem_cons_of_mem _ (List.mem_cons_of_mem _ hlater)
    · have hfirst := hlo (min lo y) List.mem_cons_self
      intro z hz
      rcases List.mem_cons.mp hz with rfl | hrest
      · exact hfirst.trans (min_le_left _ _)
      · rcases List.mem_cons.mp hrest with rfl | hlater
        · exact hfirst.trans (min_le_right _ _)
        · exact hlo z (List.mem_cons_of_mem _ hlater)
    · have hfirst := hhi (max hi y) List.mem_cons_self
      intro z hz
      rcases List.mem_cons.mp hz with rfl | hrest
      · exact (le_max_left _ _).trans hfirst
      · rcases List.mem_cons.mp hrest with rfl | hlater
        · exact (le_max_right _ _).trans hfirst
        · exact hhi z (List.mem_cons_of_mem _ hlater)

/-- INTERNAL: **the raw bounds are the least and a greatest of the values**.
SRCLINE: view/graph.rs:415-420 -/
theorem rawBounds_spec (ys : List ℚ) (hys : ys ≠ []) :
    ∃ lo hi : ℚ, rawBounds ys = ((lo : WithTop ℚ), (hi : WithBot ℚ)) ∧ lo ∈ ys ∧
      ∀ y ∈ ys, lo ≤ y ∧ y ≤ hi := by
  cases ys with
  | nil => exact absurd rfl hys
  | cons y ys =>
    obtain ⟨lo, hi, hfold, hin, hlo, hhi⟩ := rawBounds_from ys y y
    refine ⟨lo, hi, ?_, hin, fun z hz => ⟨hlo z hz, hhi z hz⟩⟩
    rw [← hfold]
    rfl

/-- INTERNAL: no point is below zero.
SRCLINE: model/graph.rs:336 -/
theorem project_nonneg (store : GraphSeriesStore) (agg : AggMode) (metric : Metric)
    (xMaxSecs : WithTop ℚ) (ps : List SeriesProjection)
    (h : store.project agg metric xMaxSecs = some ps) :
    ∀ p ∈ ps, ∀ point ∈ p.points, 0 ≤ point.2 := by
  have hseries (oldest : ℕ) (kv : SeriesKey × Series) (p : SeriesProjection)
      (hp : store.projectSeries agg metric oldest kv.1 kv.2 = some p) :
      ∀ point ∈ p.points, 0 ≤ point.2 := by
    unfold GraphSeriesStore.projectSeries at hp
    split at hp
    · cases hp
    · cases hp
      intro point hpoint
      rw [List.mem_insertionSort] at hpoint
      obtain ⟨x, -, hx⟩ := List.mem_filterMap.mp hpoint
      unfold GraphSeriesStore.pointOf at hx
      split at hx
      · cases hx
      · split at hx
        · cases hx
        · obtain ⟨bin, -, rfl⟩ := Option.map_eq_some_iff.mp hx
          exact Nat.cast_nonneg _
  rcases project_forall₂ store agg metric xMaxSecs ps h with rfl | ⟨oldest, hall⟩
  · intro p hp
    cases hp
  · have hboth : List.Forall₂ (fun p kv => (∀ point ∈ p.points, 0 ≤ point.2) ∧
        store.projectSeries agg metric oldest kv.1 kv.2 = some p) ps store.series.toList :=
      List.Forall₂.flip (List.Forall₂.imp (fun kv p hp => ⟨hseries oldest kv p hp, hp⟩) hall)
    exact ((List.forall₂_and_left ps _).mp hboth).1

/-- INTERNAL: the axis of a chart without points.
SRCLINE: view/graph.rs:272-274 -/
theorem emptyAxis_ticks : EvenTicks (niceAxis ⊤ ⊥) (ticksOf (niceAxis ⊤ ⊥)) := by
  -- five quarters
  let quarters : Scale ℚ :=
    { step := 1 / 4, lo := 0, hi := 4, step_pos := by norm_num, lo_le_hi := by decide }
  have haxis : niceAxis ⊤ ⊥ =
      (quarters.lo * quarters.step, quarters.hi * quarters.step, quarters.step) := by
    simp only [quarters]
    norm_num [niceAxis]
  have hticks : ticksOf (niceAxis ⊤ ⊥) = quarters.ticks := by
    rw [haxis]
    exact axisTicks_eq quarters
  have hcount : (quarters.ticks.length : ℤ) = 4 - 0 + 1 := quarters.length_ticks
  rw [hticks, haxis]
  exact {
    first := quarters.head?_ticks
    last := quarters.getLast?_ticks
    apart := quarters.isChain_ticks
    few := by omega }

/-- INTERNAL: **every point of a chart is inside the plot**: below the top, and above the bottom
unless it is at zero; the guides are the ticks of the axis.
SRCLINE: view/graph.rs:398-427 -/
theorem chart_points_inside (colorIndexOf : List String → SeriesKey → ℕ) (gs : GraphState)
    (colorize : Bool) (chart : Chart) (h : renderGraph colorIndexOf gs colorize = some chart) :
    EvenTicks chart.yAxis chart.guides ∧
      ∀ s ∈ chart.series, ∀ point ∈ s.1.points, point.2 < chart.yAxis.2.1 ∧
        (chart.yAxis.1 < point.2 ∨ chart.yAxis.1 = 0 ∧ point.2 = 0) := by
  obtain ⟨ps, hps, hslots⟩ := Option.bind_eq_some_iff.mp h
  obtain ⟨slots, -, rfl⟩ := Option.map_eq_some_iff.mp hslots
  have hnonneg := project_nonneg _ _ _ _ ps hps
  dsimp only
  set series := (ps.filter fun p => p.key ∉ gs.hiddenSeries).map fun p =>
    (p, seriesColor (slots[p.key]?.getD 0) colorize) with hseries
  set ys := series.flatMap fun s => s.1.points.map Prod.snd with hys
  have hy (s : SeriesProjection × Color) (hs : s ∈ series) (point : ℚ × ℚ)
      (hpoint : point ∈ s.1.points) : point.2 ∈ ys :=
    List.mem_flatMap.mpr ⟨s, hs, List.mem_map_of_mem hpoint⟩
  have hpos : ∀ y ∈ ys, 0 ≤ y := by
    intro y hin
    obtain ⟨s, hs, hmap⟩ := List.mem_flatMap.mp hin
    obtain ⟨point, hpoint, rfl⟩ := List.mem_map.mp hmap
    obtain ⟨p, hp, rfl⟩ := List.mem_map.mp hs
    exact hnonneg p (List.mem_of_mem_filter hp) point hpoint
  by_cases hnone : ys = []
  · rw [hnone]
    refine ⟨emptyAxis_ticks, fun s hs point hpoint => ?_⟩
    have hin := hy s hs point hpoint
    rw [hnone] at hin
    cases hin
  · obtain ⟨lo, hi, hbounds, hlo, hbetween⟩ := rawBounds_spec ys hnone
    have hle : lo ≤ hi := (hbetween lo hlo).2
    rw [hbounds]
    have hbrackets := niceAxis_brackets lo hi (hpos lo hlo) hle
    refine ⟨niceAxis_ticks lo hi (hpos lo hlo) hle, fun s hs point hpoint => ?_⟩
    obtain ⟨hmin, hmax⟩ := hbetween point.2 (hy s hs point hpoint)
    refine ⟨hmax.trans_lt hbrackets.above, ?_⟩
    rcases hbrackets.below with hlt | ⟨heq, hzero⟩
    · exact Or.inl (hlt.trans_le hmin)
    · -- the data begins at zero: a point is there or above
      rw [heq, hzero]
      exact (hpos point.2 (hy s hs point hpoint)).lt_or_eq.imp_right fun hpt => ⟨rfl, hpt.symm⟩

end TracingConsole.Analysis.Console
