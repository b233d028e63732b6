import TracingConsole.Analysis.Sidecar

/-!
# The scheme of tracing ids

An id made of a shard and a slab index decodes to them (`encode_decode_round_trip`).  The
decoder also accepts ids that were made of nothing: it compares the slab index with no capacity,
and with a single lane the shift reserves the top bit of an id while the mask drops it.
`decode_in_scheme_iff` says which ids it treats as the scheme would.
-/

set_option autoImplicit false

namespace TracingConsole.Analysis

open TracingConsole.Library TracingConsole.Model

/-- INTERNAL: the lanes of a new cache.
SRCLINE: cache.rs:131-170 -/
theorem withConfig_layout (capacity : ℕ) (config : CacheConfig) (c : SpanCache)
    (h : SpanCache.withConfig capacity config = some c) :
    c.inFlight.length = SpanCache.normalizedLanes config := by
  unfold SpanCache.withConfig at h
  simp only [Option.ite_none_right_eq_some, Option.some.injEq] at h
  obtain ⟨-, rfl⟩ := h
  exact List.length_replicate

/-! ## Round trip -/

/-- CODE: cache.rs:131-137, 228-246, id_encoding.rs:1-38 — **tracing ids round-trip**: on a
cache of any configuration, every shard and every slab index that fits below it decode from
their id, which is a `u64`, neither 0 nor the disabled id, and the id of no other pair. -/
theorem encode_decode_round_trip (capacity : ℕ) (config : CacheConfig) (c : SpanCache)
    (hcache : SpanCache.withConfig capacity config = some c) (shard slabIdx : ℕ)
    (hshard : shard < SpanCache.normalizedLanes config)
    (hidx : slabIdx + 2 < 2 ^ c.shardShift) :
    c.decodeTracingId (c.encodeTracingId shard slabIdx) = some (shard, slabIdx) ∧
      c.encodeTracingId shard slabIdx < 2 ^ 64 ∧
      c.encodeTracingId shard slabIdx ≠ 0 ∧ c.encodeTracingId shard slabIdx ≠ disabledId ∧
      ∀ shard' slabIdx' : ℕ, shard' < SpanCache.normalizedLanes config →
        slabIdx' + 2 < 2 ^ c.shardShift →
        c.encodeTracingId shard' slabIdx' = c.encodeTracingId shard slabIdx →
        (shard', slabIdx') = (shard, slabIdx) := by
  have hshape := shape_withConfig capacity config c hcache
  rw [← withConfig_layout capacity config c hcache] at *
  obtain ⟨bits, hbits, hlanes, -, hshift⟩ := hshape.lanes
  have hround : ∀ s i : ℕ, s < c.inFlight.length → i + 2 < 2 ^ c.shardShift →
      c.decodeTracingId (c.encodeTracingId s i) = some (s, i) := hshape.decode_of_encode c
  have henc := hshape.encode_eq c shard slabIdx hshard hidx
  refine ⟨hround shard slabIdx hshard hidx, ?_, ?_, ?_, ?_⟩
  · have hpow : 2 ^ c.shardShift * 2 ^ bits ≤ 2 ^ 64 := by
      rw [← Nat.pow_add]
      exact Nat.pow_le_pow_right (by decide) (by omega)
    have hle : 2 ^ c.shardShift * (shard + 1) ≤ 2 ^ c.shardShift * 2 ^ bits :=
      Nat.mul_le_mul_left _ (by omega)
    rw [Nat.mul_add, Nat.mul_one] at hle
    omega
  · omega
  · rw [henc, disabledId]
    omega
  · intro shard' slabIdx' hshard' hidx' heq
    have hsame := hround shard' slabIdx' hshard' hidx'
    rw [heq, hround shard slabIdx hshard hidx] at hsame
    exact (Option.some.inj hsame).symm

/-- CODE: cache.rs:131-137, 228-246 — a single lane and its last index but one. -/
theorem encode_decode_round_trip_single :
    ∃ c, SpanCache.withConfig 4 { laneCount := 1, pendingBatch := 8 } = some c ∧
      c.decodeTracingId (c.encodeTracingId 0 (2 ^ 63 - 4)) = some (0, 2 ^ 63 - 4) := by
  refine ⟨_, rfl, ?_⟩
  exact (encode_decode_round_trip 4 { laneCount := 1, pendingBatch := 8 } _ rfl 0 (2 ^ 63 - 4)
    (by decide) (by decide)).1

/-! ## Any id -/

/-- INTERNAL: **an id decodes to the slot it was made of, and to nothing if it was made of
none**.
SRCLINE: cache.rs:233-235 -/
def DecodesInScheme (c : SpanCache) (id : ℕ) : Prop :=
  ∀ shard slabIdx : ℕ, c.decodeTracingId id = some (shard, slabIdx) ↔
    shard < c.inFlight.length ∧ slabIdx < c.shardCapacity ∧ c.encodeTracingId shard slabIdx = id

/-- INTERNAL: **no call that is given the id indexes a lane or a sidecar out of bounds**.
SRCLINE: cache.rs:261-265, 389-401, 452-498, 523-567 -/
structure StaysInBounds (c : SpanCache) (id : ℕ) : Prop where
  actual : c.actualIdFor id ≠ .panicked
  child : ∀ attrs top, attrs.parent = .explicit id → c.resolveParent attrs top ≠ .panicked
  event : ∀ top, c.eventParent (some id) top ≠ .panicked
  entered : c.enteredSpan id ≠ .panicked
  recorded : ∀ values, c.record id values ≠ .panicked
  closed : ∀ now, c.tryClose id now ≠ .panicked

/-- INTERNAL: **the id is of the scheme, or visibly not**: its low part is one of the two
reserved values, or a slab index within the capacity; then the top bit is clear if there is a
single lane. -/
def Scheme (c : SpanCache) (id : ℕ) : Prop :=
  id % 2 ^ c.shardShift < 2 ∨
    (id % 2 ^ c.shardShift < c.shardCapacity + 2 ∧ (c.inFlight.length = 1 → id < 2 ^ 63))

/-- INTERNAL: an id decodes right exactly when it is of the scheme.
SRCLINE: cache.rs:228-246 -/
theorem decodesInScheme_iff (c : SpanCache) (h : Shape c) (id : ℕ) (hid : id < 2 ^ 64) :
    DecodesInScheme c id ↔ Scheme c id := by
  obtain ⟨bits, hbits, hlanes, hmask, hshift⟩ := h.lanes
  have hdecode := h.decode_eq c id
  have hlanespos : 0 < c.inFlight.length := by
    rw [hlanes]
    exact Nat.two_pow_pos bits
  have hparts := Nat.div_add_mod id (2 ^ c.shardShift)
  have hlow : id % 2 ^ c.shardShift < 2 ^ c.shardShift := Nat.mod_lt _ (Nat.two_pow_pos _)
  have hback : ∀ shard slabIdx : ℕ, shard < c.inFlight.length → slabIdx < c.shardCapacity →
      c.decodeTracingId (c.encodeTracingId shard slabIdx) = some (shard, slabIdx) :=
    fun shard slabIdx hshard hidx => h.decode_encode c (shard, slabIdx) ⟨hshard, hidx⟩
  by_cases hres : id % 2 ^ c.shardShift < 2
  · -- a reserved value is the id of no slot
    rw [if_pos hres] at hdecode
    refine ⟨fun _ => Or.inl hres, fun _ shard slabIdx => ?_⟩
    rw [hdecode]
    refine ⟨fun hfalse => (by cases hfalse), ?_⟩
    rintro ⟨hshard, hidx, rfl⟩
    rw [hback shard slabIdx hshard hidx] at hdecode
    cases hdecode
  · rw [if_neg hres] at hdecode
    set shard := id / 2 ^ c.shardShift % c.inFlight.length with hshard
    have hlt : shard < c.inFlight.length := Nat.mod_lt _ hlanespos
    have henc : c.encodeTracingId shard (id % 2 ^ c.shardShift - 2) =
        2 ^ c.shardShift * shard + id % 2 ^ c.shardShift := by
      rw [h.encode_eq c shard _ hlt (by omega)]
      omega
    constructor
    · intro hscheme
      obtain ⟨-, hcap, hsame⟩ := (hscheme shard _).mp hdecode
      refine Or.inr ⟨by omega, fun hone => ?_⟩
      have hzero : shard = 0 := by omega
      rw [henc, hzero, Nat.mul_zero, Nat.zero_add] at hsame
      have hpow : 2 ^ c.shardShift ≤ 2 ^ 63 := Nat.pow_le_pow_right (by decide) (by omega)
      omega
    · intro hcond
      obtain ⟨hcap, htop⟩ := hcond.resolve_left hres
      -- the quotient is a shard, so nothing of the id is dropped
      have hquot : id / 2 ^ c.shardShift < c.inFlight.length := by
        rw [Nat.div_lt_iff_lt_mul (Nat.two_pow_pos _), hlanes, ← Nat.pow_add, hshift]
        by_cases hzero : bits = 0
        · subst hzero
          exact htop hlanes
        · have hfull : bits + (64 - max bits 1) = 64 := by omega
          rw [hfull]
          exact hid
      rw [Nat.mod_eq_of_lt hquot] at hshard
      intro shard' slabIdx'
      rw [hdecode, Option.some.injEq, Prod.mk.injEq]
      constructor
      · rintro ⟨rfl, rfl⟩
        refine ⟨hlt, by omega, ?_⟩
        rw [henc, hshard]
        exact hparts
      · rintro ⟨hshard', hidx', hsame⟩
        have hround := hback shard' slabIdx' hshard' hidx'
        rw [hsame, hdecode] at hround
        exact Prod.mk.inj (Option.some.inj hround)

/-- INTERNAL: an id that decodes right is not indexed out of bounds.
SRCLINE: cache.rs:248-265, 373-567 -/
theorem staysInBounds_of_decodes (c : SpanCache) (h : Shape c) (id : ℕ)
    (hscheme : DecodesInScheme c id) : StaysInBounds c id := by
  have hload : ∀ slot, c.decodeTracingId id = some slot →
      ∃ actual, c.loadActualId slot.1 slot.2 = .value actual := by
    intro slot hslot
    obtain ⟨hshard, hidx, -⟩ := (hscheme slot.1 slot.2).mp hslot
    obtain ⟨actual, -, hvalue⟩ := loadActualId_of_inRange c h slot ⟨hshard, hidx⟩
    exact ⟨actual, hvalue⟩
  cases hdecode : c.decodeTracingId id with
  | none =>
    refine ⟨?_, ?_, ?_, ?_, ?_, ?_⟩
    · simp [SpanCache.actualIdFor, hdecode]
    · intro attrs top hparent
      simp [SpanCache.resolveParent, hparent, hdecode]
    · intro top hpanic
      simp only [SpanCache.eventParent, hdecode] at hpanic
      split at hpanic <;> cases hpanic
    · simp [SpanCache.enteredSpan, hdecode]
    · intro values
      simp [SpanCache.record, hdecode]
    · intro now
      simp [SpanCache.tryClose, hdecode]
  | some slot =>
    obtain ⟨actual, hvalue⟩ := hload slot hdecode
    have hlane := List.getElem?_eq_getElem ((hscheme slot.1 slot.2).mp hdecode).1
    refine ⟨?_, ?_, ?_, ?_, ?_, ?_⟩
    · simp [SpanCache.actualIdFor, hdecode, hvalue]
    · intro attrs top hparent
      simp [SpanCache.resolveParent, hparent, hdecode, hvalue, Outcome.map]
    · intro top hpanic
      simp only [SpanCache.eventParent, hdecode, hvalue] at hpanic
      split at hpanic <;> cases hpanic
    · simp [SpanCache.enteredSpan, hdecode, hvalue, Outcome.map]
    · intro values
      simp [SpanCache.record, hdecode, hlane]
    · intro now
      simp [SpanCache.tryClose, hdecode, hlane]

section Runs

variable {T : Type} [DecidableEq T]

/-- INTERNAL: every cache a run reaches has the shape of a new one. -/
theorem run_placed (cache : SpanCache) (capacity : ℕ) (config : CacheConfig)
    (hcache : SpanCache.withConfig capacity config = some cache) (key : ℕ) (keys : T → ℕ)
    (steps : List (CacheStep T)) (w : World T)
    (hrun : run World.step (World.start cache key keys) steps = some w) : Placed w :=
  run_invariant World.step Placed
    (fun w a w' h hstep => h.move w w' a (step_moves w w' h a hstep))
    (World.start cache key keys) steps w (placed_start capacity config cache hcache key keys) hrun

/-- CODE: cache.rs:131-161, 228-265, 373-567 — **exactly which ids the decoder treats as the
scheme does**, on a cache of any configuration and in any state: the ids of slots, the ids
whose low part is 0 or 1, and no other. -/
theorem decode_in_scheme_iff (capacity : ℕ) (config : CacheConfig) (cache : SpanCache)
    (hcache : SpanCache.withConfig capacity config = some cache) (key : ℕ) (keys : T → ℕ)
    (steps : List (CacheStep T)) (w : World T)
    (hrun : run World.step (World.start cache key keys) steps = some w)
    (id : ℕ) (hid : id < 2 ^ 64) :
    DecodesInScheme w.cache id ∧ StaysInBounds w.cache id ↔ Scheme w.cache id := by
  have hshape := (run_placed cache capacity config hcache key keys steps w hrun).shape
  constructor
  · rintro ⟨hscheme, -⟩
    exact (decodesInScheme_iff w.cache hshape id hid).mp hscheme
  · intro hcond
    have hscheme := (decodesInScheme_iff w.cache hshape id hid).mpr hcond
    exact ⟨hscheme, staysInBounds_of_decodes w.cache hshape id hscheme⟩

end Runs

/-- CODE: cache.rs:228-265 — the id of a span in use. -/
theorem decode_in_scheme_iff_reuse :
    ∃ w, run World.step (World.start oneSlot 0 fun _ => 0) (openRoot false) = some w ∧
      (DecodesInScheme w.cache 2 ∧ StaysInBounds w.cache 2 ↔ Scheme w.cache 2) :=
  ⟨_, rfl, decode_in_scheme_iff 1 { laneCount := 1, pendingBatch := 8 } oneSlot (by decide) 0
    (fun _ => 0) (openRoot false) _ rfl 2 (by decide)⟩

/-- CODE: cache.rs:233-265 — with a single slot, the id 1000 decodes to the slab index 998,
which is past the end of the sidecar, and an id with the top bit set decodes to the slot of
another id. -/
theorem decoder_leaves_scheme :
    SpanCache.withConfig 1 { laneCount := 1, pendingBatch := 8 } = some oneSlot ∧
      oneSlot.decodeTracingId 1000 = some (0, 998) ∧ oneSlot.actualIdFor 1000 = .panicked ∧
      oneSlot.decodeTracingId (2 ^ 63 + 2) = some (0, 0) ∧ oneSlot.encodeTracingId 0 0 = 2 ∧
      ¬ (DecodesInScheme oneSlot 1000 ∧ StaysInBounds oneSlot 1000) := by
  refine ⟨by decide, by decide, by decide, by decide, by decide, ?_⟩
  rintro ⟨-, hbounds⟩
  exact hbounds.actual (by decide)

end TracingConsole.Analysis
