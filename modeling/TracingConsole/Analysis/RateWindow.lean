import TracingConsole.Model.Console
import TracingConsole.Library.CounterRing

/-!
# The rate window

The tracker keeps nine counters of half a second each and moves its time base along with the
current one.  `Opened` says what the counters hold when the current half-second is the `cur`-th
one after the first record; opening the next half-second keeps it (`opened_advance`), and so
does a count (`opened_count`).  A record opens at most nine half-seconds: after a longer gap
the base stays behind, and `rate_window_exact_iff` says that this, and a counter at its limit,
is all that goes wrong.
-/

set_option autoImplicit false

namespace TracingConsole.Analysis.RateWindow

open TracingConsole.Library
open TracingConsole.Model

/-! ## Half-seconds -/

/-- INTERNAL: 500 ms in nanoseconds. -/
def slotNs : ℕ := 500000000

/-- INTERNAL: the half-second of a time, counted from the first record. -/
def slotOf (t0 t : ℕ) : ℕ := (t - t0) / slotNs

/-- INTERNAL: how many of the times lie in the half-second that is `8 - j` before `cur`. -/
def tally (t0 : ℕ) (times : List ℕ) (cur j : ℕ) : ℕ :=
  times.countP fun t => slotOf t0 t + 8 = cur + j

/-- INTERNAL: one more record counts in its slot. -/
theorem tally_snoc (t0 : ℕ) (times : List ℕ) (t cur j : ℕ) :
    tally t0 (times ++ [t]) cur j =
      tally t0 times cur j + if slotOf t0 t + 8 = cur + j then 1 else 0 := by
  unfold tally
  rw [List.countP_append, List.countP_singleton]
  simp only [decide_eq_true_eq]

/-- INTERNAL: seen from the next half-second every tally is one place older. -/
theorem tally_succ (t0 : ℕ) (times : List ℕ) (cur j : ℕ) :
    tally t0 times (cur + 1) j = tally t0 times cur (j + 1) := by
  unfold tally
  simp only [Nat.add_assoc, Nat.add_comm 1 j]

/-- INTERNAL: nothing is counted in a half-second that has not begun. -/
theorem tally_ahead (t0 : ℕ) (times : List ℕ) (cur j : ℕ) (h : ∀ t ∈ times, slotOf t0 t ≤ cur)
    (hj : 8 < j) : tally t0 times cur j = 0 := by
  unfold tally
  rw [List.countP_eq_zero]
  intro t ht
  have hle := h t ht
  simp only [decide_eq_true_eq]
  omega

/-- INTERNAL: the eight completed half-seconds together. -/
theorem sum_tally (t0 : ℕ) (times : List ℕ) (cur : ℕ) :
    ∑ j ∈ Finset.range 8, tally t0 times cur j =
      times.countP fun t => slotOf t0 t < cur ∧ cur ≤ slotOf t0 t + 8 := by
  induction times with
  | nil => rfl
  | cons t times ih =>
    have hone : ∀ j ∈ Finset.range 8, tally t0 (t :: times) cur j =
        tally t0 times cur j + if j = slotOf t0 t + 8 - cur ∧ cur ≤ slotOf t0 t + 8
          then 1 else 0 := by
      intro j hj
      unfold tally
      rw [List.countP_cons]
      simp only [decide_eq_true_eq]
      congr 1
      exact if_congr (by omega) rfl rfl
    have hspike : (∑ j ∈ Finset.range 8, if j = slotOf t0 t + 8 - cur ∧ cur ≤ slotOf t0 t + 8
        then 1 else 0) = if slotOf t0 t < cur ∧ cur ≤ slotOf t0 t + 8 then 1 else 0 := by
      by_cases hle : cur ≤ slotOf t0 t + 8
      · simp only [hle, and_true, Finset.sum_ite_eq', Finset.mem_range]
        exact if_congr (by omega) rfl rfl
      · simp only [hle, and_false, if_false, Finset.sum_const_zero]
    rw [Finset.sum_congr rfl hone, Finset.sum_add_distrib, ih, hspike, List.countP_cons]
    simp only [decide_eq_true_eq]

/-! ## What the counters hold -/

/-- INTERNAL: a counter saturates at the largest u32. -/
def capped (n : ℕ) : ℕ := min n (2 ^ 32 - 1)

/-- INTERNAL: the current half-second is the `cur`-th one, the counters are the tallies of the
nine half-seconds up to it, and nothing was recorded later. -/
structure Opened (t0 : ℕ) (times : List ℕ) (cur : ℕ) (rate : RateTracker) : Prop where
  head_lt : rate.head < RateTracker.bucketCount
  cells : inOrder rate.buckets rate.head =
    (List.range RateTracker.bucketCount).map fun j => capped (tally t0 times cur j)
  past : ∀ t ∈ times, slotOf t0 t ≤ cur

namespace Opened

variable {t0 : ℕ} {times : List ℕ} {cur : ℕ} {rate : RateTracker}

/-- INTERNAL: the tracker keeps its buckets. -/
theorem length_buckets (h : Opened t0 times cur rate) :
    rate.buckets.length = RateTracker.bucketCount := by
  have hlength := congrArg List.length h.cells
  rwa [length_inOrder, List.length_map, List.length_range] at hlength

/-- INTERNAL: **the next half-second**: its counter starts at zero, every other one is a place
older and the oldest is gone. -/
theorem advance (h : Opened t0 times cur rate) : Opened t0 times (cur + 1) rate.advance := by
  have hlen := h.length_buckets
  have hlt : rate.head < rate.buckets.length := by rw [hlen]; exact h.head_lt
  have hnew : capped (tally t0 times cur 9) = 0 := by
    rw [tally_ahead t0 times cur 9 h.past (by omega)]
    rfl
  refine ⟨Nat.mod_lt _ (by decide), ?_, fun t ht => Nat.le_succ_of_le (h.past t ht)⟩
  have hturn := inOrder_turned rate.buckets rate.head 0 hlt
  rw [hlen] at hturn
  unfold RateTracker.advance
  rw [hturn, h.cells]
  simp only [tally_succ]
  simp only [RateTracker.bucketCount, List.range_succ_eq_map, List.range_zero, List.map_cons,
    List.map_nil, List.tail_cons, List.cons_append, List.nil_append, hnew, Nat.succ_eq_add_one,
    Nat.zero_add, Nat.reduceAdd]

/-- INTERNAL: half-second after half-second. -/
theorem advances (h : Opened t0 times cur rate) (n : ℕ) :
    Opened t0 times (cur + n) (RateTracker.advance^[n] rate) := by
  induction n with
  | zero => exact h
  | succ n ih =>
    rw [Function.iterate_succ_apply']
    exact ih.advance

/-- INTERNAL: the current counter is the last one. -/
theorem getD_head (h : Opened t0 times cur rate) :
    rate.buckets.getD rate.head 0 = capped (tally t0 times cur 8) := by
  have hlt : rate.head < rate.buckets.length := by rw [h.length_buckets]; exact h.head_lt
  have hget := List.getElem?_eq_getElem hlt
  have hlast := congrArg List.getLast? h.cells
  rw [inOrder_current _ _ _ hget, List.getLast?_concat] at hlast
  rw [List.getD_eq_getElem?_getD, hget, hlast]
  rfl

/-- INTERNAL: **one more event** of the current half-second. -/
theorem count (h : Opened t0 times cur rate) (now : ℕ) (start : Option ℕ)
    (hnow : slotOf t0 now = cur) :
    Opened t0 (times ++ [now]) cur { rate with
      bucketStart := start,
      buckets := rate.buckets.set rate.head
        (min (rate.buckets.getD rate.head 0 + 1) (2 ^ 32 - 1)) } := by
  have hlt : rate.head < rate.buckets.length := by rw [h.length_buckets]; exact h.head_lt
  refine ⟨h.head_lt, ?_, ?_⟩
  · have hcurrent : min (capped (tally t0 times cur 8) + 1) (2 ^ 32 - 1) =
        capped (tally t0 times cur 8 + 1) := by
      unfold capped
      omega
    have hplace (j : ℕ) : tally t0 (times ++ [now]) cur j =
        tally t0 times cur j + if j = 8 then 1 else 0 := by
      rw [tally_snoc, hnow]
      exact congrArg _ (if_congr (by omega) rfl rfl)
    rw [inOrder_set _ _ _ hlt, h.getD_head, h.cells, hcurrent]
    simp only [RateTracker.bucketCount, List.range_succ, List.range_zero, List.nil_append,
      List.map_append, List.map_cons, List.map_nil, hplace, if_true, List.append_assoc]
    rfl
  · intro t ht
    rcases List.mem_append.mp ht with hold | hlast
    · exact h.past t hold
    · rw [List.mem_singleton.mp hlast, hnow]

/-- INTERNAL: the sum over the completed half-seconds. -/
theorem completed (h : Opened t0 times cur rate) (start : ℕ)
    (hstart : rate.bucketStart = some start) :
    rate.completed = ∑ j ∈ Finset.range 8, capped (tally t0 times cur j) := by
  have hlt : rate.head < rate.buckets.length := by rw [h.length_buckets]; exact h.head_lt
  unfold RateTracker.completed
  rw [hstart, if_neg (by simp), sum_others _ _ hlt, h.cells, RateTracker.bucketCount,
    List.range_succ, List.map_append, List.map_singleton, List.dropLast_concat]
  rfl

end Opened

/-! ## One record -/

/-- INTERNAL: a record opens the half-seconds that have begun, nine at most, moves the base by
as many and counts. -/
theorem record_eq (rate : RateTracker) (start now : ℕ) (h : rate.bucketStart = some start) :
    rate.record now =
      let a := min ((now - start) / slotNs) RateTracker.bucketCount
      let opened := RateTracker.advance^[a] rate
      { opened with
        bucketStart := some (start + a * slotNs),
        buckets := opened.buckets.set opened.head
          (min (opened.buckets.getD opened.head 0 + 1) (2 ^ 32 - 1)) } := by
  have hslots : (now - start) / 1000000 / 500 = (now - start) / slotNs :=
    Nat.div_div_eq_div_mul _ _ _
  have hns (a : ℕ) : 500 * a * 1000000 = a * slotNs := by
    unfold slotNs
    omega
  unfold RateTracker.record
  simp only [h, hslots, hns]
  by_cases hbegun : 500 ≤ (now - start) / 1000000
  · rw [if_pos hbegun]
  · have hsame : (now - start) / slotNs = 0 := by
      rw [← hslots]
      omega
    rw [if_neg hbegun, hsame, Nat.zero_min, Function.iterate_zero_apply, Nat.zero_mul, h]
    rfl

/-- INTERNAL: the tracker after the first record and those of `seen`. -/
def recorded (t0 : ℕ) (seen : List ℕ) : RateTracker :=
  seen.foldl RateTracker.record (RateTracker.default.record t0)

/-- INTERNAL: the time of the last record. -/
def latest (t0 : ℕ) (seen : List ℕ) : ℕ := seen.getLastD t0

/-- INTERNAL: the counters are open up to the half-second of the last record, whose start is
the base. -/
structure Kept (t0 : ℕ) (seen : List ℕ) (rate : RateTracker) : Prop where
  opened : Opened t0 (t0 :: seen) (slotOf t0 (latest t0 seen)) rate
  base : rate.bucketStart = some (t0 + slotOf t0 (latest t0 seen) * slotNs)

/-- INTERNAL: the first record is in the first slot. -/
theorem slotOf_first (t0 : ℕ) : slotOf t0 t0 = 0 := by
  unfold slotOf
  rw [Nat.sub_self, Nat.zero_div]

/-- INTERNAL: the first record opens the window. -/
theorem kept_first (t0 : ℕ) : Kept t0 [] (RateTracker.default.record t0) := by
  have hfresh : Opened t0 [] 0 RateTracker.default :=
    ⟨by decide, rfl, fun _ ht => absurd ht List.not_mem_nil⟩
  have hlatest : latest t0 [] = t0 := rfl
  have hcount := hfresh.count t0 (some t0) (slotOf_first t0)
  refine ⟨?_, ?_⟩
  · rw [hlatest, slotOf_first]
    exact hcount
  · rw [hlatest, slotOf_first, Nat.zero_mul, Nat.add_zero]
    rfl

/-- INTERNAL: the half-seconds that have begun since the base. -/
theorem begun_eq (t0 cur now : ℕ) : (now - (t0 + cur * slotNs)) / slotNs = slotOf t0 now - cur := by
  rw [Nat.sub_add_eq, Nat.mul_comm, Nat.sub_mul_div]
  rfl

/-- INTERNAL: **the record lemma**: within nine half-seconds of the last record the counters
stay exact. -/
theorem Kept.record (t0 : ℕ) (seen : List ℕ) (rate : RateTracker) (now : ℕ)
    (h : Kept t0 seen rate) (hmono : latest t0 seen ≤ now)
    (hgap : slotOf t0 now ≤ slotOf t0 (latest t0 seen) + 9) :
    Kept t0 (seen ++ [now]) (rate.record now) := by
  have hle : slotOf t0 (latest t0 seen) ≤ slotOf t0 now :=
    Nat.div_le_div_right (Nat.sub_le_sub_right hmono t0)
  have hbegun : min (slotOf t0 now - slotOf t0 (latest t0 seen)) RateTracker.bucketCount =
      slotOf t0 now - slotOf t0 (latest t0 seen) :=
    Nat.min_eq_left (Nat.sub_le_iff_le_add'.mpr hgap)
  have hcur : slotOf t0 (latest t0 seen) + (slotOf t0 now - slotOf t0 (latest t0 seen)) =
      slotOf t0 now := Nat.add_sub_cancel' hle
  have hopened := h.opened.advances (slotOf t0 now - slotOf t0 (latest t0 seen))
  have hlatest : latest t0 (seen ++ [now]) = now := List.getLastD_concat
  rw [hcur] at hopened
  rw [record_eq rate _ now h.base, begun_eq, hbegun]
  refine ⟨?_, ?_⟩
  · rw [hlatest]
    exact hopened.count now _ rfl
  · dsimp only
    rw [hlatest, Nat.add_assoc, ← Nat.add_mul, hcur]

/-! ## The window -/

/-- INTERNAL: the last record lies in the half-second that the base begins, and the completed
counters add up to the events of the eight half-seconds before it. -/
def WindowExact (t0 : ℕ) (seen : List ℕ) (rate : RateTracker) : Prop :=
  ∃ start, rate.bucketStart = some start ∧
    start ≤ latest t0 seen ∧ latest t0 seen < start + slotNs ∧
    rate.completed = (t0 :: seen).countP fun t =>
      slotOf t0 t < slotOf t0 (latest t0 seen) ∧ slotOf t0 (latest t0 seen) ≤ slotOf t0 t + 8

/-- INTERNAL: the next record comes within nine half-seconds of the last one, and no
half-second it finds completed has more events than a u32 counts. -/
def RecordFits (t0 : ℕ) (seen : List ℕ) (now : ℕ) : Prop :=
  slotOf t0 now ≤ slotOf t0 (latest t0 seen) + 9 ∧
    ∀ j < 8, tally t0 (t0 :: seen) (slotOf t0 now) j < 2 ^ 32

/-- INTERNAL: decidable. -/
instance (t0 : ℕ) (seen : List ℕ) (now : ℕ) : Decidable (RecordFits t0 seen now) :=
  inferInstanceAs (Decidable (_ ∧ _))

/-- INTERNAL: with the counters exact, so is the window unless a counter is at its limit. -/
theorem Kept.exact_iff (t0 : ℕ) (seen : List ℕ) (rate : RateTracker) (h : Kept t0 seen rate)
    (hfirst : t0 ≤ latest t0 seen) :
    WindowExact t0 seen rate ↔
      ∀ j < 8, tally t0 (t0 :: seen) (slotOf t0 (latest t0 seen)) j < 2 ^ 32 := by
  have hlow : t0 + slotOf t0 (latest t0 seen) * slotNs ≤ latest t0 seen := by
    have hdiv := Nat.div_mul_le_self (latest t0 seen - t0) slotNs
    unfold slotOf
    omega
  have hhigh : latest t0 seen < t0 + slotOf t0 (latest t0 seen) * slotNs + slotNs := by
    have hdiv := Nat.lt_div_mul_add (a := latest t0 seen - t0) (b := slotNs) (by decide)
    unfold slotOf
    omega
  have hsum := h.opened.completed _ h.base
  have htally := sum_tally t0 (t0 :: seen) (slotOf t0 (latest t0 seen))
  have hcapped := Finset.sum_eq_sum_iff_of_le (s := Finset.range 8)
    (f := fun j => capped (tally t0 (t0 :: seen) (slotOf t0 (latest t0 seen)) j))
    (g := fun j => tally t0 (t0 :: seen) (slotOf t0 (latest t0 seen)) j)
    fun j _ => Nat.min_le_left _ _
  rw [← hsum, htally] at hcapped
  have hcounts : (∀ j ∈ Finset.range 8,
      capped (tally t0 (t0 :: seen) (slotOf t0 (latest t0 seen)) j) =
        tally t0 (t0 :: seen) (slotOf t0 (latest t0 seen)) j) ↔
      ∀ j < 8, tally t0 (t0 :: seen) (slotOf t0 (latest t0 seen)) j < 2 ^ 32 := by
    refine forall_congr' fun j => ?_
    rw [Finset.mem_range]
    unfold capped
    omega
  unfold WindowExact
  rw [← hcounts, ← hcapped]
  constructor
  · intro hwindow
    obtain ⟨start, -, -, -, hcompleted⟩ := hwindow
    exact hcompleted
  · intro hcompleted
    exact ⟨_, h.base, hlow, hhigh, hcompleted⟩

/-- INTERNAL: a record at the newest slot counts there, not before. -/
theorem tally_now (t0 : ℕ) (seen : List ℕ) (now j : ℕ) (hj : j < 8) :
    tally t0 (t0 :: (seen ++ [now])) (slotOf t0 now) j = tally t0 (t0 :: seen) (slotOf t0 now) j := by
  rw [← List.cons_append, tally_snoc, if_neg (by omega), Nat.add_zero]

/-- INTERNAL: **one record on exact counters**: the window is exact after it if and only if the
record fits. -/
theorem Kept.record_exact_iff (t0 : ℕ) (seen : List ℕ) (rate : RateTracker) (now : ℕ)
    (h : Kept t0 seen rate) (hfirst : t0 ≤ latest t0 seen) (hmono : latest t0 seen ≤ now) :
    WindowExact t0 (seen ++ [now]) (rate.record now) ↔ RecordFits t0 seen now := by
  have hlatest : latest t0 (seen ++ [now]) = now := List.getLastD_concat
  by_cases hgap : slotOf t0 now ≤ slotOf t0 (latest t0 seen) + 9
  · have hkept := h.record t0 seen rate now hmono hgap
    rw [hkept.exact_iff t0 _ _ (by rw [hlatest]; omega), hlatest, RecordFits,
      and_iff_right hgap]
    refine forall_congr' fun j => imp_congr_right fun hj => ?_
    rw [tally_now t0 seen now j hj]
  · -- nine half-seconds on, the base is still short of the record
    refine iff_of_false ?_ fun hfits => hgap hfits.1
    intro hwindow
    obtain ⟨start, hstart, -, hlt, -⟩ := hwindow
    have hbegun : min (slotOf t0 now - slotOf t0 (latest t0 seen)) RateTracker.bucketCount = 9 :=
      Nat.min_eq_right (by unfold RateTracker.bucketCount; omega)
    rw [record_eq rate _ now h.base, begun_eq, hbegun] at hstart
    have hbase := Option.some.inj hstart
    have hdiv := Nat.div_mul_le_self (now - t0) slotNs
    have hfar : slotOf t0 (latest t0 seen) + 10 ≤ (now - t0) / slotNs := by
      unfold slotOf at hgap ⊢
      omega
    have hmul := Nat.mul_le_mul_right slotNs hfar
    rw [Nat.add_mul] at hmul
    rw [hlatest] at hlt
    unfold slotNs at hlt hbase hmul hdiv
    omega

/-- INTERNAL: times that do not go back, up to one more record. -/
theorem latest_between (t0 : ℕ) (seen : List ℕ) (now : ℕ)
    (hmono : (t0 :: (seen ++ [now])).Pairwise (· ≤ ·)) :
    t0 ≤ latest t0 seen ∧ latest t0 seen ≤ now := by
  have hlatest : latest t0 seen ∈ t0 :: seen := List.getLastD_mem_cons
  have hahead : latest t0 seen ≤ now := by
    rw [← List.cons_append, List.pairwise_append] at hmono
    exact hmono.2.2 _ hlatest now (List.mem_singleton_self now)
  refine ⟨?_, hahead⟩
  rcases List.mem_cons.mp hlatest with hfirst | hlater
  · exact hfirst.ge
  · exact (List.pairwise_cons.mp hmono).1 _ (List.mem_append_left _ hlater)

/-- INTERNAL: one more time is recorded. -/
theorem recorded_snoc (t0 : ℕ) (seen : List ℕ) (now : ℕ) :
    recorded t0 (seen ++ [now]) = (recorded t0 seen).record now := by
  unfold recorded
  rw [List.foldl_concat]

/-- INTERNAL: records that fit keep the counters exact. -/
theorem kept_of_fits (t0 : ℕ) (seen : List ℕ) (hmono : (t0 :: seen).Pairwise (· ≤ ·))
    (hfits : ∀ before now, before ++ [now] <+: seen → RecordFits t0 before now) :
    Kept t0 seen (recorded t0 seen) := by
  induction seen using List.reverseRecOn with
  | nil => exact kept_first t0
  | append_singleton seen now ih =>
    have hbetween := latest_between t0 seen now hmono
    have hsorted := hmono.sublist ((List.sublist_append_left seen [now]).cons_cons t0)
    have hkept := ih hsorted fun before t hbefore =>
      hfits before t (hbefore.trans (List.prefix_append seen [now]))
    rw [recorded_snoc]
    exact hkept.record t0 seen _ now hbetween.2 (hfits seen now List.prefix_rfl).1

/-- INTERNAL: while the window is exact, every record fits. -/
theorem fits_of_exact (t0 : ℕ) (seen : List ℕ) (hmono : (t0 :: seen).Pairwise (· ≤ ·))
    (hexact : ∀ before, before <+: seen → WindowExact t0 before (recorded t0 before)) :
    ∀ before now, before ++ [now] <+: seen → RecordFits t0 before now := by
  induction seen using List.reverseRecOn with
  | nil =>
    intro before now hnone
    have hnil := List.prefix_nil.mp hnone
    exact absurd hnil (List.append_ne_nil_of_right_ne_nil before (List.cons_ne_nil now []))
  | append_singleton seen last ih =>
    have hsorted := hmono.sublist ((List.sublist_append_left seen [last]).cons_cons t0)
    have hfits := ih hsorted fun before hbefore =>
      hexact before (hbefore.trans (List.prefix_append seen [last]))
    intro before now hbefore
    rcases List.prefix_concat_iff.mp hbefore with hwhole | hearlier
    · obtain ⟨hseen, hnow⟩ := List.append_inj' hwhole rfl
      have hlast : now = last := List.singleton_inj.mp hnow
      have hkept := kept_of_fits t0 seen hsorted hfits
      have hbetween := latest_between t0 seen last hmono
      have hwindow := hexact (seen ++ [last]) List.prefix_rfl
      rw [recorded_snoc] at hwindow
      rw [hseen, hlast]
      exact (hkept.record_exact_iff t0 seen _ last hbetween.1 hbetween.2).mp hwindow
    · exact hfits before now hearlier

/-- CODE: core.rs:98-143 — **the rate window**: for times that do not go back, the window is
exact after every record if and only if every record comes within nine half-seconds of the one
before it and finds no completed half-second with 2^32 events or more. -/
theorem rate_window_exact_iff (t0 : ℕ) (times : List ℕ)
    (hmono : (t0 :: times).Pairwise (· ≤ ·)) :
    (∀ seen, seen <+: times → WindowExact t0 seen (recorded t0 seen)) ↔
      ∀ seen now, seen ++ [now] <+: times → RecordFits t0 seen now := by
  refine ⟨fits_of_exact t0 times hmono, fun hfits seen hseen => ?_⟩
  have hsorted : (t0 :: seen).Pairwise (· ≤ ·) := hmono.sublist (hseen.sublist.cons_cons t0)
  cases seen using List.reverseRecOn with
  | nil =>
    refine ((kept_first t0).exact_iff t0 [] _ le_rfl).mpr fun j hj => ?_
    have hone : tally t0 [t0] (slotOf t0 (latest t0 [])) j ≤ 1 := List.countP_le_length
    omega
  | append_singleton seen now _ =>
    have hbefore : seen <+: times := (List.prefix_append seen [now]).trans hseen
    have hbetween := latest_between t0 seen now hsorted
    have hkept := kept_of_fits t0 seen (hmono.sublist (hbefore.sublist.cons_cons t0))
      fun before t ht => hfits before t (ht.trans hbefore)
    rw [recorded_snoc]
    exact (hkept.record_exact_iff t0 seen _ now hbetween.1 hbetween.2).mpr
      (hfits seen now hseen)

/-- INTERNAL: `rate_window_exact_iff` on a burst, a pause of more than four seconds and one more
event. -/
theorem rate_window_after_pause :
    WindowExact 0 [100000000, 499000000, 1200000000, 5499000000]
      (recorded 0 [100000000, 499000000, 1200000000, 5499000000]) := by
  have hfits : ∀ records ∈ [100000000, 499000000, 1200000000, 5499000000].inits,
      ∀ now ∈ records.getLast?, RecordFits 0 records.dropLast now := by decide
  refine (rate_window_exact_iff 0 [100000000, 499000000, 1200000000, 5499000000]
    (by decide)).mpr (fun seen now h => ?_) _ List.prefix_rfl
  have hlast := hfits (seen ++ [now]) ((List.mem_inits _ _).mpr h) now List.getLast?_concat
  rwa [List.dropLast_concat] at hlast

/-- CODE: core.rs:112-127 — after a pause of five seconds the base is half a second behind: the
record does not lie in the half-second that is said to be current. -/
theorem rate_window_behind :
    ¬ ∀ seen, seen <+: [5000000000] → WindowExact 0 seen (recorded 0 seen) := by
  intro hexact
  obtain ⟨start, hstart, -, hlt, -⟩ := hexact [5000000000] List.prefix_rfl
  have hbase : (recorded 0 [5000000000]).bucketStart = some 4500000000 := rfl
  have hlatest : latest 0 [5000000000] = 5000000000 := rfl
  rw [hbase] at hstart
  have hsame := Option.some.inj hstart
  rw [hlatest, slotNs] at hlt
  omega

end TracingConsole.Analysis.RateWindow
