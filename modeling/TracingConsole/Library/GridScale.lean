import Mathlib

/-!
# Scales on a grid

The lines of a grid are the multiples of its step.  Next to a point the last line below it and
the first line above it are taken, and one line further out if that line is within a slack of
the point: both are on the proper side of it and at most a step and the slack away
(`lineBelow_lt`, `lt_lineAbove`).  A scale runs from one line to another; adding the step up from
its first line, while half a step beyond the last one is not reached, lists its ticks
(`Scale.ticks_of_loop`).
-/

set_option autoImplicit false

namespace TracingConsole.Library

/-! ## The lines next to a point -/

section Lines

variable {F : Type*} [Field F] [LinearOrder F] [IsStrictOrderedRing F] [FloorRing F]

/-- INTERNAL: the last line up to `x`, or the one before if `x` is within `slack` of it. -/
def lineBelow (step slack x : F) : ℤ :=
  if x - slack ≤ ⌊x / step⌋ * step then ⌊x / step⌋ - 1 else ⌊x / step⌋

/-- INTERNAL: the first line from `x` on, or the one after if `x` is within `slack` of it. -/
def lineAbove (step slack x : F) : ℤ :=
  if ⌈x / step⌉ * step ≤ x + slack then ⌈x / step⌉ + 1 else ⌈x / step⌉

/-- INTERNAL: the line below is not above. -/
theorem floor_line_le (step x : F) (hstep : 0 < step) : (⌊x / step⌋ : F) * step ≤ x := by
  have hle := Int.sub_floor_div_mul_nonneg x hstep
  linarith

/-- INTERNAL: and less than a step below. -/
theorem lt_floor_line (step x : F) (hstep : 0 < step) : x - step < (⌊x / step⌋ : F) * step := by
  have hlt := Int.sub_floor_div_mul_lt x hstep
  linarith

/-- INTERNAL: the line above is not below. -/
theorem le_ceil_line (step x : F) (hstep : 0 < step) : x ≤ (⌈x / step⌉ : F) * step :=
  (div_le_iff₀ hstep).mp (Int.le_ceil _)

/-- INTERNAL: and less than a step above. -/
theorem ceil_line_lt (step x : F) (hstep : 0 < step) : (⌈x / step⌉ : F) * step < x + step := by
  have hlt := mul_lt_mul_of_pos_right (Int.ceil_lt_add_one (x / step)) hstep
  rwa [add_mul, div_mul_cancel₀ x hstep.ne', one_mul] at hlt

/-- INTERNAL: **the line below is below**, and at most a step and the slack away. -/
theorem lineBelow_lt (step slack x : F) (hstep : 0 < step) (hslack : 0 ≤ slack) :
    (lineBelow step slack x : F) * step < x ∧
      x - step - slack ≤ (lineBelow step slack x : F) * step := by
  have hle := floor_line_le step x hstep
  have hlt := lt_floor_line step x hstep
  unfold lineBelow
  split
  · next hnear =>
    rw [Int.cast_sub, Int.cast_one, sub_mul, one_mul]
    exact ⟨by linarith, by linarith⟩
  · next hfar => exact ⟨by linarith, by linarith⟩

/-- INTERNAL: **the line above is above**, and at most a step and the slack away. -/
theorem lt_lineAbove (step slack x : F) (hstep : 0 < step) (hslack : 0 ≤ slack) :
    x < (lineAbove step slack x : F) * step ∧
      (lineAbove step slack x : F) * step ≤ x + step + slack := by
  have hle := le_ceil_line step x hstep
  have hlt := ceil_line_lt step x hstep
  unfold lineAbove
  split
  · next hnear =>
    rw [Int.cast_add, Int.cast_one, add_mul, one_mul]
    exact ⟨by linarith, by linarith⟩
  · next hfar => exact ⟨by linarith, by linarith⟩

/-- INTERNAL: no line below zero is needed for a point from zero on. -/
theorem max_lineBelow (step slack x : F) (hstep : 0 < step) (hx : 0 ≤ x) :
    max 0 (lineBelow step slack x) =
      if x - slack ≤ ⌊x / step⌋ * step ∧ 1 ≤ ⌊x / step⌋ then ⌊x / step⌋ - 1 else ⌊x / step⌋ := by
  have hfloor : 0 ≤ ⌊x / step⌋ := Int.floor_nonneg.mpr (div_nonneg hx hstep.le)
  unfold lineBelow
  split
  · next hnear =>
    by_cases hone : 1 ≤ ⌊x / step⌋
    · rw [if_pos ⟨hnear, hone⟩]
      omega
    · rw [if_neg fun hboth => hone hboth.2]
      omega
  · next hfar =>
    rw [if_neg fun hboth => hfar hboth.1]
    exact max_eq_right hfloor

end Lines

/-! ## Scales -/

/-- INTERNAL: the part of a grid from one line to another. -/
structure Scale (F : Type*) [Field F] [LinearOrder F] where
  step : F
  lo : ℤ
  hi : ℤ
  step_pos : 0 < step
  lo_le_hi : lo ≤ hi

namespace Scale

variable {F : Type*} [Field F] [LinearOrder F] (s : Scale F)

/-- INTERNAL: the lines of the scale. -/
def ticks : List F :=
  (List.range (s.hi - s.lo + 1).toNat).map fun i : ℕ => ((s.lo : F) + i) * s.step

/-- INTERNAL: how many ticks there are. -/
theorem length_ticks : (s.ticks.length : ℤ) = s.hi - s.lo + 1 := by
  have hle := s.lo_le_hi
  rw [ticks, List.length_map, List.length_range, Int.toNat_of_nonneg (by omega)]

/-- INTERNAL: the first tick is the line below. -/
theorem head?_ticks : s.ticks.head? = some (s.lo * s.step) := by
  have hle := s.lo_le_hi
  obtain ⟨n, hn⟩ : ∃ n, (s.hi - s.lo + 1).toNat = n + 1 := ⟨(s.hi - s.lo).toNat, by omega⟩
  rw [ticks, hn, List.range_succ_eq_map, List.map_cons, List.head?_cons, Nat.cast_zero, add_zero]

/-- INTERNAL: the last tick is the line above. -/
theorem getLast?_ticks : s.ticks.getLast? = some (s.hi * s.step) := by
  have hle := s.lo_le_hi
  obtain ⟨n, hn⟩ : ∃ n : ℕ, s.hi = s.lo + n := ⟨(s.hi - s.lo).toNat, by omega⟩
  have hcount : (s.hi - s.lo + 1).toNat = n + 1 := by omega
  rw [ticks, hcount, List.range_succ, List.map_append, List.map_singleton, List.getLast?_concat,
    hn, Int.cast_add, Int.cast_natCast]

/-- INTERNAL: **ticks are a step apart**. -/
theorem isChain_ticks : s.ticks.IsChain fun a b => b = a + s.step := by
  rw [ticks, List.isChain_map]
  refine (List.isChain_range _ _).mpr fun i hi => ?_
  rw [Nat.succ_eq_add_one, Nat.cast_add, Nat.cast_one]
  ring

/-- INTERNAL: **the loop that adds the step** lists the ticks. -/
theorem ticks_of_loop [IsStrictOrderedRing F] (loop : F → List F)
    (hloop : ∀ v, loop v = if v ≤ s.hi * s.step + s.step / 2 then v :: loop (v + s.step) else []) :
    loop (s.lo * s.step) = s.ticks := by
  have hpos := s.step_pos
  have hle := s.lo_le_hi
  -- from the line `n` lines before the one behind the last
  have hfrom (n : ℕ) : loop ((s.hi + 1 - n : ℤ) * s.step) =
      (List.range n).map fun i : ℕ => (((s.hi + 1 - n : ℤ) : F) + i) * s.step := by
    induction n with
    | zero =>
      rw [hloop, if_neg]
      · rfl
      · push_cast
        linarith
    | succ n ih =>
      have hn : (0 : F) ≤ (n : F) * s.step := mul_nonneg n.cast_nonneg hpos.le
      have hnext : ((s.hi + 1 - (n + 1 : ℕ) : ℤ) : F) * s.step + s.step =
          ((s.hi + 1 - n : ℤ) : F) * s.step := by
        push_cast
        ring
      rw [hloop, if_pos, hnext, ih, List.range_succ_eq_map, List.map_cons, List.map_map]
      · congr 1
        · push_cast
          ring
        · apply List.map_congr_left
          intro i _
          simp only [Function.comp_apply]
          push_cast
          ring
      · push_cast
        linarith
  have hcount : ((s.hi - s.lo + 1).toNat : ℤ) = s.hi - s.lo + 1 := Int.toNat_of_nonneg (by omega)
  have hlines := hfrom (s.hi - s.lo + 1).toNat
  have hlo : s.hi + 1 - (s.hi - s.lo + 1).toNat = s.lo := by omega
  rw [hlo] at hlines
  exact hlines

end Scale

end TracingConsole.Library
