import TracingConsole.Library.WordMixing
import TracingConsole.Model.Sampling

/-!
# Families in a sample

A record is sampled by the hash of its parent's id, a root by that of its own.  So a child of a
root shares the decision of the root, and a deeper span the one its parent's id would get.  No
two ids have the same hash, so some rate tells a root from any other span of its tree.
-/

set_option autoImplicit false

namespace TracingConsole.Analysis

open TracingConsole.Library TracingConsole.Model

/-! ## Forests of records -/

/-- INTERNAL: the parents of a span lead to this root. -/
inductive RootedAt (spans : List SpanRecord) : SpanRecord → SpanRecord → Prop
  | root (r : SpanRecord) (hr : r ∈ spans) (hnone : r.parentId = none) : RootedAt spans r r
  | child (s p r : SpanRecord) (hs : s ∈ spans) (hparent : s.parentId = some p.id)
      (hp : RootedAt spans p r) : RootedAt spans s r

/-- INTERNAL: a span and its root are in the forest. -/
theorem RootedAt.mem (spans : List SpanRecord) (s r : SpanRecord) (h : RootedAt spans s r) :
    s ∈ spans ∧ r ∈ spans ∧ r.parentId = none := by
  induction h with
  | root r hr hnone => exact ⟨hr, hr, hnone⟩
  | child s p r hs _ _ ih => exact ⟨hs, ih.2⟩

/-- INTERNAL: records with distinct `u64` ids, each leading to a root. -/
structure Forest where
  spans : List SpanRecord
  distinct : (spans.map fun s => s.id).Nodup
  words : ∀ s ∈ spans, s.id < u64Size
  rooted : ∀ s ∈ spans, ∃ r, RootedAt spans s r

/-- INTERNAL: every span gets the decision of its root. -/
def WholeFamilies (f : Forest) (rate : ℚ) : Prop :=
  ∀ s r, RootedAt f.spans s r → samplingPasses s rate = samplingPasses r rate

/-- INTERNAL: the id of every span that has a child hashes to the same side of the rate as the id
of its root. -/
def SameSide (f : Forest) (rate : ℚ) : Prop :=
  ∀ s p r, s ∈ f.spans → s.parentId = some p.id → RootedAt f.spans p r →
    (sampleFrac p.id < rate ↔ sampleFrac r.id < rate)

/-- INTERNAL: no span is more than one level below its root. -/
def Shallow (f : Forest) : Prop :=
  ∀ s ∈ f.spans, ∀ p ∈ f.spans, s.parentId = some p.id → p.parentId = none

/-! ## One rate -/

/-- INTERNAL: between the ends, the hash of the parent decides. -/
theorem samplingPasses_between (record : SpanRecord) (rate : ℚ) (hlow : 0 < rate)
    (hhigh : rate < 1) :
    samplingPasses record rate = decide (sampleFrac (record.parentId.getD record.id) < rate) := by
  unfold samplingPasses
  rw [if_neg (not_le.mpr hhigh), if_neg (not_le.mpr hlow)]

/-- INTERNAL: a rate of 0 keeps nothing, a rate of 1 everything. -/
theorem samplingPasses_ends (record record' : SpanRecord) (rate : ℚ)
    (hends : rate ≤ 0 ∨ 1 ≤ rate) : samplingPasses record rate = samplingPasses record' rate := by
  unfold samplingPasses
  by_cases hone : 1 ≤ rate
  · rw [if_pos hone, if_pos hone]
  · have hzero := hends.resolve_right hone
    rw [if_neg hone, if_neg hone, if_pos hzero, if_pos hzero]

/-- INTERNAL: at one rate: it is trivial, or every span is on its root's side. -/
theorem wholeFamilies_iff (f : Forest) (rate : ℚ) :
    WholeFamilies f rate ↔ rate ≤ 0 ∨ 1 ≤ rate ∨ SameSide f rate := by
  constructor
  · intro hwhole
    by_cases hlow : rate ≤ 0
    · exact Or.inl hlow
    by_cases hhigh : 1 ≤ rate
    · exact Or.inr (Or.inl hhigh)
    refine Or.inr (Or.inr fun s p r hs hparent hp => ?_)
    have hsame := hwhole s r (.child s p r hs hparent hp)
    have hroot := (hp.mem f.spans p r).2.2
    rw [samplingPasses_between s rate (not_le.mp hlow) (not_le.mp hhigh),
      samplingPasses_between r rate (not_le.mp hlow) (not_le.mp hhigh), hparent, hroot] at hsame
    exact decide_eq_decide.mp hsame
  · rintro (hlow | hhigh | hside) s r hrooted
    · exact samplingPasses_ends s r rate (Or.inl hlow)
    · exact samplingPasses_ends s r rate (Or.inr hhigh)
    · by_cases hends : rate ≤ 0 ∨ 1 ≤ rate
      · exact samplingPasses_ends s r rate hends
      have hlow : 0 < rate := not_le.mp fun h => hends (Or.inl h)
      have hhigh : rate < 1 := not_le.mp fun h => hends (Or.inr h)
      cases hrooted with
      | root => rfl
      | child _ p _ hs hparent hp =>
        have hroot := (hp.mem f.spans p r).2.2
        rw [samplingPasses_between s rate hlow hhigh, samplingPasses_between r rate hlow hhigh,
          hparent, hroot]
        exact decide_eq_decide.mpr (hside s p r hs hparent hp)

/-! ## Every rate -/

/-- INTERNAL: **ids have distinct hashes**. -/
theorem sampleHash_injective (i j : ℕ) (hi : i < u64Size) (hj : j < u64Size)
    (h : sampleHash i = sampleHash j) : i = j := by
  have hword := mul_injective 0x9E3779B97F4A7C15#64 0xF1DE83E19937733D#64 (by decide)
    (xorShift_injective 33 (by decide)
      (mul_injective 0xC2B2AE3D27D4EB4F#64 0x0BA79078168D4BAF#64 (by decide)
        (xorShift_injective 29 (by decide) h)))
  have hnat := congrArg BitVec.toNat hword
  rw [BitVec.toNat_ofNat, BitVec.toNat_ofNat] at hnat
  unfold u64Size at hi hj
  omega

/-- INTERNAL: the fraction of an id is between zero and one. -/
theorem sampleFrac_bounds (i : ℕ) : 0 ≤ sampleFrac i ∧ sampleFrac i ≤ 1 := by
  have hlt := (sampleHash i).isLt
  have hle : (sampleHash i).toNat ≤ u64Size - 1 := by
    unfold u64Size
    omega
  have hpos : (0 : ℚ) < (u64Size - 1 : ℕ) := by norm_num [u64Size]
  unfold sampleFrac
  refine ⟨by positivity, ?_⟩
  rw [div_le_one hpos]
  exact_mod_cast hle

/-- INTERNAL: no two ids have one fraction. -/
theorem sampleFrac_injective (i j : ℕ) (hi : i < u64Size) (hj : j < u64Size)
    (h : sampleFrac i = sampleFrac j) : i = j := by
  have hpos : ((u64Size - 1 : ℕ) : ℚ) ≠ 0 := by norm_num [u64Size]
  unfold sampleFrac at h
  rw [div_left_inj' hpos] at h
  exact sampleHash_injective i j hi hj (BitVec.eq_of_toNat_eq (by exact_mod_cast h))

/-- INTERNAL: some rate between 0 and 1 keeps one id and not the other. -/
theorem exists_separating_rate (i j : ℕ) (hi : i < u64Size) (hj : j < u64Size) (hij : i ≠ j) :
    ∃ rate : ℚ, 0 < rate ∧ rate < 1 ∧ ¬ (sampleFrac i < rate ↔ sampleFrac j < rate) := by
  have hne : sampleFrac i ≠ sampleFrac j := fun h => hij (sampleFrac_injective i j hi hj h)
  have hboundsi := sampleFrac_bounds i
  have hboundsj := sampleFrac_bounds j
  refine ⟨(sampleFrac i + sampleFrac j) / 2, ?_⟩
  cases lt_or_gt_of_ne hne with
  | inl hlt =>
    refine ⟨by linarith, by linarith, fun hiff => ?_⟩
    have hback := hiff.mp (by linarith)
    linarith
  | inr hgt =>
    refine ⟨by linarith, by linarith, fun hiff => ?_⟩
    have hback := hiff.mpr (by linarith)
    linarith

/-- INTERNAL: at all rates: no span has a grandparent. -/
theorem wholeFamilies_all_iff (f : Forest) :
    (∀ rate : ℚ, 0 ≤ rate → rate ≤ 1 → WholeFamilies f rate) ↔ Shallow f := by
  constructor
  · intro hall s hs p hp hparent
    by_contra hdeep
    obtain ⟨r, hrooted⟩ := f.rooted p hp
    obtain ⟨-, hr, hroot⟩ := hrooted.mem f.spans p r
    have hids : p.id ≠ r.id := by
      intro heq
      have hsame := List.inj_on_of_nodup_map f.distinct hp hr heq
      exact hdeep (hsame ▸ hroot)
    obtain ⟨rate, hlow, hhigh, hsides⟩ :=
      exists_separating_rate p.id r.id (f.words p hp) (f.words r hr) hids
    have hcases := (wholeFamilies_iff f rate).mp (hall rate hlow.le hhigh.le)
    cases hcases with
    | inl hle => exact absurd hlow (not_lt.mpr hle)
    | inr hcases =>
      cases hcases with
      | inl hge => exact absurd hhigh (not_lt.mpr hge)
      | inr hside => exact hsides (hside s p r hs hparent hrooted)
  · intro hshallow rate _ _
    refine (wholeFamilies_iff f rate).mpr (Or.inr (Or.inr fun s p r hs hparent hp => ?_))
    have hnone := hshallow s hs p (hp.mem f.spans p r).1 hparent
    cases hp with
    | root => exact Iff.rfl
    | child _ q _ _ hq => rw [hnone] at hq; cases hq

/-- CODE: server.rs:343-363 — **when sampling keeps whole families**: a forest has every span
get the decision of its root at every rate from 0 to 1 if and only if no span is more than one level
below its root; at a single rate, if and only if the rate is at an end, or the id of every span with
a child hashes to the same side of the rate as the id of its root. -/
theorem sampling_keeps_families_iff (f : Forest) :
    ((∀ rate : ℚ, 0 ≤ rate → rate ≤ 1 → WholeFamilies f rate) ↔ Shallow f) ∧
    ∀ rate : ℚ, WholeFamilies f rate ↔ rate ≤ 0 ∨ 1 ≤ rate ∨ SameSide f rate :=
  ⟨wholeFamilies_all_iff f, wholeFamilies_iff f⟩

/-- INTERNAL: a span of the chain. -/
def chainSpan (id : ℕ) (parentId : Option ℕ) : SpanRecord where
  id := id
  parentId := parentId
  metadata := { name := "span", target := "app", level := .info }
  fields := []
  events := []
  openedAt := 0
  closedAt := some 1

/-- CODE: server.rs:343-363 — a root, its child and its grandchild at the rate 1/2: the root and
the child are kept, the grandchild is not. -/
theorem sampling_splits_family :
    ∃ (f : Forest) (r s : SpanRecord), RootedAt f.spans s r ∧
      samplingPasses r (1 / 2) = true ∧ samplingPasses s (1 / 2) = false := by
  have hroot : RootedAt [chainSpan 1 none, chainSpan 2 (some 1), chainSpan 3 (some 2)]
      (chainSpan 1 none) (chainSpan 1 none) := .root _ (by simp) rfl
  have hchild : RootedAt [chainSpan 1 none, chainSpan 2 (some 1), chainSpan 3 (some 2)]
      (chainSpan 2 (some 1)) (chainSpan 1 none) := .child _ _ _ (by simp) rfl hroot
  have hgrandchild : RootedAt [chainSpan 1 none, chainSpan 2 (some 1), chainSpan 3 (some 2)]
      (chainSpan 3 (some 2)) (chainSpan 1 none) := .child _ _ _ (by simp) rfl hchild
  refine ⟨⟨[chainSpan 1 none, chainSpan 2 (some 1), chainSpan 3 (some 2)], by decide, by decide,
    ?_⟩, _, _, hgrandchild, by decide +kernel, by decide +kernel⟩
  intro s hs
  simp only [List.mem_cons, List.not_mem_nil, or_false] at hs
  rcases hs with rfl | rfl | rfl
  · exact ⟨_, hroot⟩
  · exact ⟨_, hchild⟩
  · exact ⟨_, hgrandchild⟩

end TracingConsole.Analysis
