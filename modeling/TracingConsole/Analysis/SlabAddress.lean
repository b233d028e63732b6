import TracingConsole.Model.SpanCache

/-!
# Slab addresses

What holds of every cache `withConfig` returns and is kept by every method: the number of
lanes is a power of two up to 256, a slab address fits below the shard bits of an id, and
no slab has more slots than its sidecar (`Shape`).  So an id decodes to the address it was
made of (`decode_encode`).

`recordAt` and `idAt` read a cache by slab address; every operation on the lanes is
described by what it does to these two views.
-/

set_option autoImplicit false

namespace TracingConsole.Analysis

open TracingConsole.Library TracingConsole.Model

/-- INTERNAL: the record in a slot.
SRCLINE: cache.rs:37-47 -/
def recordAt (c : SpanCache) (slot : ℕ × ℕ) : Option SpanRecord :=
  (c.inFlight[slot.1]?).bind fun lane => lane.slab.get slot.2

/-- INTERNAL: the span id in a slot's sidecar.
SRCLINE: cache.rs:37-47 -/
def idAt (c : SpanCache) (slot : ℕ × ℕ) : Option ℕ :=
  (c.inFlight[slot.1]?).bind fun lane => lane.actualIds[slot.2]?

/-- INTERNAL: the constants and the bounds of a cache.
SRCLINE: cache.rs:131-170 -/
structure Shape (c : SpanCache) : Prop where
  lanes : ∃ bits ≤ 8, c.inFlight.length = 2 ^ bits ∧ c.shardMask = 2 ^ bits - 1 ∧
    c.shardShift = 64 - max bits 1
  fits : c.inFlight.length * (8 * c.shardCapacity) ≤ 2 ^ 64
  slots : ∀ lane ∈ c.inFlight, lane.slab.entries.length ≤ c.shardCapacity
  sidecar : ∀ lane ∈ c.inFlight, lane.actualIds.length = c.shardCapacity

/-- INTERNAL: a slot of the cache. -/
def InRange (c : SpanCache) (slot : ℕ × ℕ) : Prop :=
  slot.1 < c.inFlight.length ∧ slot.2 < c.shardCapacity

/-! ## Construction -/

/-- INTERNAL: the number of lanes is a power of two up to 256. -/
theorem normalizedLanes_eq (config : CacheConfig) :
    ∃ bits ≤ 8, SpanCache.normalizedLanes config = 2 ^ bits := by
  unfold SpanCache.normalizedLanes nextPowerOfTwo
  have hclamp : max 1 (min config.laneCount 256) ≤ 256 := by omega
  generalize max 1 (min config.laneCount 256) = n at hclamp
  by_cases hn : n ≤ 1
  · exact ⟨0, by omega, by rw [if_pos hn, Nat.pow_zero]⟩
  · have hlog : Nat.log2 (n - 1) < 8 := by
      rw [Nat.log2_lt (by omega)]
      omega
    exact ⟨Nat.log2 (n - 1) + 1, by omega, by rw [if_neg hn]⟩

/-- INTERNAL: the exponent of a power of two is read off. -/
theorem trailingZeros_two_pow (bits : ℕ) (h : bits ≤ 8) : trailingZeros (2 ^ bits) = bits := by
  interval_cases bits <;> decide

/-- INTERNAL: a new cache has the shape. -/
theorem shape_withConfig (capacity : ℕ) (config : CacheConfig) (c : SpanCache)
    (h : SpanCache.withConfig capacity config = some c) : Shape c := by
  obtain ⟨bits, hbits, hlanes⟩ := normalizedLanes_eq config
  unfold SpanCache.withConfig at h
  simp only [hlanes, trailingZeros_two_pow bits hbits, Option.ite_none_right_eq_some,
    Option.some.injEq] at h
  obtain ⟨hfits, rfl⟩ := h
  refine ⟨⟨bits, hbits, by simp⟩, by simpa using hfits, ?_, ?_⟩
  · intro lane hlane
    rw [(List.mem_replicate.mp hlane).2]
    exact Nat.zero_le _
  · intro lane hlane
    rw [(List.mem_replicate.mp hlane).2]
    simp

/-- INTERNAL: a new cache holds no record. -/
theorem recordAt_withConfig (capacity : ℕ) (config : CacheConfig) (c : SpanCache)
    (h : SpanCache.withConfig capacity config = some c) (slot : ℕ × ℕ) :
    recordAt c slot = none := by
  unfold SpanCache.withConfig at h
  simp only [Option.ite_none_right_eq_some, Option.some.injEq] at h
  obtain ⟨-, rfl⟩ := h
  rw [recordAt, Option.bind_eq_none_iff]
  intro lane hlane
  rw [List.eq_of_mem_replicate (List.mem_of_getElem? hlane)]
  exact Slab.get_empty slot.2

/-! ## Ids -/

/-- INTERNAL: **shift and mask are a quotient and a remainder**.
SRCLINE: cache.rs:228-246 -/
theorem Shape.decode_eq (c : SpanCache) (h : Shape c) (id : ℕ) :
    c.decodeTracingId id =
      if id % 2 ^ c.shardShift < 2 then none
      else some (id / 2 ^ c.shardShift % c.inFlight.length, id % 2 ^ c.shardShift - 2) := by
  obtain ⟨bits, hbits, hlanes, hmask, hshift⟩ := h.lanes
  have hsmall : 2 ^ 1 ≤ 2 ^ c.shardShift := Nat.pow_le_pow_right (by decide) (by omega)
  have hlow : 2 ^ c.shardShift ≤ 2 ^ 63 := Nat.pow_le_pow_right (by decide) (by omega)
  have hslabMask : (1 <<< c.shardShift) % u64Size - 1 = 2 ^ c.shardShift - 1 := by
    rw [u64Size, Nat.shiftLeft_eq, Nat.one_mul, Nat.mod_eq_of_lt (by omega)]
  unfold SpanCache.decodeTracingId
  rw [hslabMask, hmask, hlanes]
  simp only [Nat.and_two_pow_sub_one_eq_mod, Nat.shiftRight_eq_div_pow, slabOffset]
  by_cases hdis : id = disabledId
  · -- the disabled id is below the offset
    have hlt : id % 2 ^ c.shardShift < 2 := by
      rw [hdis, disabledId, Nat.mod_eq_of_lt (by omega)]
      omega
    rw [if_pos hdis, if_pos hlt]
  · rw [if_neg hdis]

/-- INTERNAL: **an id is a multiple of the shift and a rest**.
SRCLINE: cache.rs:228-231 -/
theorem Shape.encode_eq (c : SpanCache) (h : Shape c) (shard slabIdx : ℕ)
    (hshard : shard < c.inFlight.length) (hidx : slabIdx + 2 < 2 ^ c.shardShift) :
    c.encodeTracingId shard slabIdx = 2 ^ c.shardShift * shard + (slabIdx + 2) := by
  obtain ⟨bits, hbits, hlanes, -, hshift⟩ := h.lanes
  have hpow : 2 ^ bits * 2 ^ c.shardShift ≤ 2 ^ 64 := by
    rw [← Nat.pow_add]
    exact Nat.pow_le_pow_right (by decide) (by omega)
  have hlow : 2 ^ c.shardShift ≤ 2 ^ 63 := Nat.pow_le_pow_right (by decide) (by omega)
  rw [hlanes] at hshard
  have hhigh : shard * 2 ^ c.shardShift < 2 ^ 64 :=
    lt_of_lt_of_le (Nat.mul_lt_mul_of_pos_right hshard (Nat.two_pow_pos _)) hpow
  -- the shard and the index do not overlap
  rw [SpanCache.encodeTracingId, u64Size, slabOffset, Nat.shiftLeft_eq, Nat.mod_eq_of_lt hhigh,
    Nat.mod_eq_of_lt (by omega), Nat.mul_comm, Nat.two_pow_add_eq_or_of_lt hidx]

/-- INTERNAL: **an id decodes to the address it was made of**.
SRCLINE: cache.rs:228-246 -/
theorem Shape.decode_of_encode (c : SpanCache) (h : Shape c) (shard slabIdx : ℕ)
    (hshard : shard < c.inFlight.length) (hidx : slabIdx + 2 < 2 ^ c.shardShift) :
    c.decodeTracingId (c.encodeTracingId shard slabIdx) = some (shard, slabIdx) := by
  have hrest : (2 ^ c.shardShift * shard + (slabIdx + 2)) % 2 ^ c.shardShift = slabIdx + 2 := by
    rw [Nat.mul_add_mod, Nat.mod_eq_of_lt hidx]
  have htop : (2 ^ c.shardShift * shard + (slabIdx + 2)) / 2 ^ c.shardShift = shard := by
    rw [Nat.mul_add_div (Nat.two_pow_pos _), Nat.div_eq_of_lt hidx, Nat.add_zero]
  rw [h.decode_eq, h.encode_eq c shard slabIdx hshard hidx, hrest, htop,
    Nat.mod_eq_of_lt hshard, if_neg (by omega), Nat.add_sub_cancel]

/-- INTERNAL: every slot of a cache fits into an id. -/
theorem Shape.decode_encode (c : SpanCache) (h : Shape c) (slot : ℕ × ℕ) (hslot : InRange c slot) :
    c.decodeTracingId (c.encodeTracingId slot.1 slot.2) = some slot := by
  refine h.decode_of_encode c slot.1 slot.2 hslot.1 ?_
  obtain ⟨bits, hbits, hlanes, -, hshift⟩ := h.lanes
  have hidx := hslot.2
  -- `2 ^ bits` sidecars of eight bytes a slot are at most `2 ^ 64` bytes
  have hfits := h.fits
  rw [hlanes] at hfits
  rw [hshift]
  interval_cases bits <;> simp at hfits ⊢ <;> omega

/-- INTERNAL: no slot has the address of a disabled span. -/
theorem Shape.encode_ne_disabled (c : SpanCache) (h : Shape c) (slot : ℕ × ℕ)
    (hslot : InRange c slot) : c.encodeTracingId slot.1 slot.2 ≠ disabledId := by
  intro heq
  have hdecode := h.decode_encode c slot hslot
  rw [heq, SpanCache.decodeTracingId, if_pos rfl] at hdecode
  cases hdecode

/-- INTERNAL: a thread's shard is a lane. -/
theorem Shape.pickShard_lt (c : SpanCache) (h : Shape c) (key : ℕ) :
    c.pickShard key < c.inFlight.length := by
  obtain ⟨bits, -, hlanes, hmask, -⟩ := h.lanes
  rw [SpanCache.pickShard, hmask, hlanes, Nat.and_two_pow_sub_one_eq_mod]
  exact Nat.mod_lt _ (Nat.two_pow_pos _)

/-- INTERNAL: so is the shard of an id. -/
theorem Shape.decode_lt (c : SpanCache) (h : Shape c) (id : ℕ) (slot : ℕ × ℕ)
    (hdecode : c.decodeTracingId id = some slot) : slot.1 < c.inFlight.length := by
  obtain ⟨bits, -, hlanes, hmask, -⟩ := h.lanes
  simp only [SpanCache.decodeTracingId, Option.ite_none_left_eq_some, Option.some.injEq]
    at hdecode
  obtain ⟨-, -, rfl⟩ := hdecode
  rw [hlanes, hmask, Nat.and_two_pow_sub_one_eq_mod]
  exact Nat.mod_lt _ (Nat.two_pow_pos _)

/-! ## Reading and writing lanes -/

/-- INTERNAL: an occupied slot is read. -/
theorem loadActualId_eq (c : SpanCache) (slot : ℕ × ℕ) (id : ℕ) (h : idAt c slot = some id) :
    c.loadActualId slot.1 slot.2 = .value id := by
  rw [SpanCache.loadActualId]
  rw [idAt] at h
  rw [h]

/-- INTERNAL: a slot in range has a sidecar word. -/
theorem Shape.idAt_isSome (c : SpanCache) (h : Shape c) (slot : ℕ × ℕ) (hslot : InRange c slot) :
    ∃ id, idAt c slot = some id := by
  obtain ⟨hshard, hidx⟩ := hslot
  have hlane := List.getElem?_eq_getElem hshard
  have hlen := h.sidecar _ (List.getElem_mem hshard)
  rw [← hlen] at hidx
  exact ⟨_, by rw [idAt, hlane, Option.bind_some, List.getElem?_eq_getElem hidx]⟩

/-- INTERNAL: two caches of the same size and constants. -/
structure SameLayout (c c' : SpanCache) : Prop where
  lanes : c'.inFlight.length = c.inFlight.length
  capacity : c'.shardCapacity = c.shardCapacity
  mask : c'.shardMask = c.shardMask
  shift : c'.shardShift = c.shardShift

/-- INTERNAL: a cache is laid out as itself. -/
theorem sameLayout_refl (c : SpanCache) : SameLayout c c := ⟨rfl, rfl, rfl, rfl⟩

/-- INTERNAL: a lane that is written leaves the layout. -/
theorem sameLayout_setLane (c : SpanCache) (shard : ℕ) (lane : ShardLane) :
    SameLayout c (c.setLane shard lane) :=
  ⟨by simp [SpanCache.setLane], rfl, rfl, rfl⟩

/-- INTERNAL: the layout is all an address needs. -/
theorem SameLayout.encode_eq (c c' : SpanCache) (h : SameLayout c c') (shard slabIdx : ℕ) :
    c'.encodeTracingId shard slabIdx = c.encodeTracingId shard slabIdx := by
  rw [SpanCache.encodeTracingId, SpanCache.encodeTracingId, h.shift]

/-- INTERNAL: so it is for reading one. -/
theorem SameLayout.decode_eq (c c' : SpanCache) (h : SameLayout c c') (id : ℕ) :
    c'.decodeTracingId id = c.decodeTracingId id := by
  rw [SpanCache.decodeTracingId, SpanCache.decodeTracingId, h.shift, h.mask]

/-- INTERNAL: and for the range of the slots. -/
theorem SameLayout.inRange_iff (c c' : SpanCache) (h : SameLayout c c') (slot : ℕ × ℕ) :
    InRange c' slot ↔ InRange c slot := by
  rw [InRange, InRange, h.lanes, h.capacity]

/-- INTERNAL: writing a lane whose slots and sidecar are within the bounds. -/
theorem Shape.setLane (c : SpanCache) (h : Shape c) (shard : ℕ) (lane : ShardLane)
    (hslots : lane.slab.entries.length ≤ c.shardCapacity)
    (hsidecar : lane.actualIds.length = c.shardCapacity) : Shape (c.setLane shard lane) := by
  have hlen : (c.setLane shard lane).inFlight.length = c.inFlight.length := by
    simp [SpanCache.setLane]
  refine ⟨by rw [hlen]; exact h.lanes, by rw [hlen]; exact h.fits, ?_, ?_⟩
  · intro other hother
    rcases List.mem_or_eq_of_mem_set hother with hmem | rfl
    · exact h.slots other hmem
    · exact hslots
  · intro other hother
    rcases List.mem_or_eq_of_mem_set hother with hmem | rfl
    · exact h.sidecar other hmem
    · exact hsidecar

/-- INTERNAL: reading a record after writing a lane. -/
theorem recordAt_setLane (c : SpanCache) (shard : ℕ) (lane : ShardLane) (slot : ℕ × ℕ)
    (hshard : shard < c.inFlight.length) :
    recordAt (c.setLane shard lane) slot =
      if slot.1 = shard then lane.slab.get slot.2 else recordAt c slot := by
  unfold recordAt SpanCache.setLane
  by_cases h : slot.1 = shard
  · rw [if_pos h, h, List.getElem?_set_self hshard, Option.bind_some]
  · rw [if_neg h, List.getElem?_set_ne fun heq => h heq.symm]

/-- INTERNAL: reading a sidecar word after writing a lane. -/
theorem idAt_setLane (c : SpanCache) (shard : ℕ) (lane : ShardLane) (slot : ℕ × ℕ)
    (hshard : shard < c.inFlight.length) :
    idAt (c.setLane shard lane) slot =
      if slot.1 = shard then lane.actualIds[slot.2]? else idAt c slot := by
  unfold idAt SpanCache.setLane
  by_cases h : slot.1 = shard
  · rw [if_pos h, h, List.getElem?_set_self hshard, Option.bind_some]
  · rw [if_neg h, List.getElem?_set_ne fun heq => h heq.symm]

/-! ## The operations -/

/-- INTERNAL: the slot an insertion takes was vacant and is in range; it alone changes. -/
theorem insertRecord_spec (c c' : SpanCache) (h : Shape c) (shard slabIdx : ℕ) (r : SpanRecord)
    (htakes : ∀ lane ∈ c.inFlight[shard]?, lane.slab.Takes slabIdx)
    (hins : c.insertRecord shard slabIdx r = .value c') :
    Shape c' ∧ SameLayout c c' ∧ InRange c (shard, slabIdx) ∧
    recordAt c (shard, slabIdx) = none ∧
    (∀ slot, recordAt c' slot = if slot = (shard, slabIdx) then some r else recordAt c slot) ∧
    ∀ slot, idAt c' slot = idAt c slot := by
  unfold SpanCache.insertRecord at hins
  cases hlane : c.inFlight[shard]? with
  | none =>
    rw [hlane] at hins
    cases hins
  | some lane =>
    simp only [hlane] at hins
    have htake : lane.slab.Takes slabIdx := htakes lane hlane
    split at hins
    · cases hins
    · next hroom =>
      obtain rfl := Outcome.value.inj hins
      have hroom : lane.slab.len < c.shardCapacity := Nat.lt_of_not_le hroom
      have hmem : lane ∈ c.inFlight := List.mem_of_getElem? hlane
      have hslots := h.slots lane hmem
      have hshard := (List.getElem?_eq_some_iff.mp hlane).1
      refine ⟨h.setLane c shard _ (Slab.length_insert_le _ _ _ r htake hslots hroom)
          (h.sidecar lane hmem), sameLayout_setLane c shard _,
        ⟨hshard, Slab.lt_of_takes _ _ _ htake hslots hroom⟩, ?_, ?_, ?_⟩
      · rw [recordAt, hlane, Option.bind_some]
        exact Slab.get_of_takes _ _ htake
      · intro slot
        rw [recordAt_setLane c shard _ slot hshard, Slab.get_insert _ _ _ r htake]
        by_cases hs : slot.1 = shard
        · by_cases hi : slot.2 = slabIdx
          · rw [if_pos hs, if_pos hi, if_pos (Prod.ext hs hi)]
          · rw [if_pos hs, if_neg hi, if_neg fun heq => hi (congrArg Prod.snd heq), recordAt, hs,
              hlane, Option.bind_some]
        · rw [if_neg hs, if_neg fun heq => hs (congrArg Prod.fst heq)]
      · intro slot
        rw [idAt_setLane c shard _ slot hshard]
        by_cases hs : slot.1 = shard
        · rw [if_pos hs, idAt, hs, hlane, Option.bind_some]
        · rw [if_neg hs]

/-- INTERNAL: an insertion does not panic on a lane. -/
theorem insertRecord_ne_panicked (c : SpanCache) (shard slabIdx : ℕ) (r : SpanRecord)
    (hshard : shard < c.inFlight.length) : c.insertRecord shard slabIdx r ≠ .panicked := by
  rw [SpanCache.insertRecord, List.getElem?_eq_getElem hshard]
  show (if _ then _ else _) ≠ _
  split
  · intro hfalse
    cases hfalse
  · intro hfalse
    cases hfalse

/-- INTERNAL: the sidecar store goes through in range and changes one word. -/
theorem storeActualId_spec (c : SpanCache) (h : Shape c) (shard slabIdx id : ℕ)
    (hslot : InRange c (shard, slabIdx)) :
    ∃ c', c.storeActualId shard slabIdx id = .value c' ∧ Shape c' ∧ SameLayout c c' ∧
    (∀ slot, recordAt c' slot = recordAt c slot) ∧
    ∀ slot, idAt c' slot = if slot = (shard, slabIdx) then some id else idAt c slot := by
  obtain ⟨hshard, hidx⟩ := hslot
  have hlane := List.getElem?_eq_getElem hshard
  have hmem := List.getElem_mem hshard
  generalize c.inFlight[shard] = lane at hlane hmem
  have hlen : slabIdx < lane.actualIds.length := by
    rw [h.sidecar lane hmem]
    exact hidx
  refine ⟨c.setLane shard { lane with actualIds := lane.actualIds.set slabIdx id }, ?_,
    h.setLane c shard _ (h.slots lane hmem) ?_, sameLayout_setLane c shard _, ?_, ?_⟩
  · simp only [SpanCache.storeActualId, hlane, if_pos hlen]
  · rw [List.length_set]
    exact h.sidecar lane hmem
  · intro slot
    rw [recordAt_setLane c shard _ slot hshard]
    by_cases hs : slot.1 = shard
    · rw [if_pos hs, recordAt, hs, hlane, Option.bind_some]
    · rw [if_neg hs]
  · intro slot
    rw [idAt_setLane c shard _ slot hshard]
    by_cases hs : slot.1 = shard
    · rw [if_pos hs, List.getElem?_set]
      by_cases hi : slabIdx = slot.2
      · rw [if_pos hi, if_pos (Prod.ext hs hi.symm), if_pos hlen]
      · rw [if_neg hi, if_neg fun heq => hi (congrArg Prod.snd heq).symm, idAt, hs, hlane,
          Option.bind_some]
    · rw [if_neg hs, if_neg fun heq => hs (congrArg Prod.fst heq)]

/-- INTERNAL: closing an id that is no address does nothing. -/
theorem tryClose_of_none (c : SpanCache) (id now : ℕ) (hdecode : c.decodeTracingId id = none) :
    c.tryClose id now = .value (none, c) := by
  rw [SpanCache.tryClose, hdecode]

/-- INTERNAL: closing an address takes out what is stored there and vacates it. -/
theorem tryClose_spec (c : SpanCache) (h : Shape c) (id now : ℕ) (slot : ℕ × ℕ)
    (hdecode : c.decodeTracingId id = some slot) :
    ∃ c', c.tryClose id now =
        .value ((recordAt c slot).map fun r => { r with closedAt := some now }, c') ∧
    Shape c' ∧ SameLayout c c' ∧
    (∀ other, recordAt c' other = if other = slot then none else recordAt c other) ∧
    ∀ other, idAt c' other = idAt c other := by
  have hshard := h.decode_lt c id slot hdecode
  have hlane := List.getElem?_eq_getElem hshard
  have hmem := List.getElem_mem hshard
  generalize c.inFlight[slot.1] = lane at hlane hmem
  have hread : recordAt c slot = lane.slab.get slot.2 := by
    rw [recordAt, hlane, Option.bind_some]
  have hslab : (lane.slab.tryRemove slot.2).1 = lane.slab.get slot.2 ∧
      (∀ j, (lane.slab.tryRemove slot.2).2.get j =
        if j = slot.2 then none else lane.slab.get j) ∧
      (lane.slab.tryRemove slot.2).2.entries.length = lane.slab.entries.length := by
    unfold Slab.tryRemove
    cases hget : lane.slab.get slot.2 with
    | some r => exact ⟨rfl, fun j => Slab.get_remove _ _ j, Slab.length_remove _ _⟩
    | none =>
      refine ⟨rfl, fun j => ?_, rfl⟩
      by_cases hj : j = slot.2
      · rw [if_pos hj, hj, hget]
      · rw [if_neg hj]
  obtain ⟨hremoved, hget, hlength⟩ := hslab
  refine ⟨c.setLane slot.1 { lane with slab := (lane.slab.tryRemove slot.2).2 }, ?_,
    h.setLane c slot.1 _ (by rw [hlength]; exact h.slots lane hmem) (h.sidecar lane hmem),
    sameLayout_setLane c slot.1 _, ?_, ?_⟩
  · rw [SpanCache.tryClose, hdecode]
    simp only [hlane]
    rw [hremoved, hread]
  · intro other
    rw [recordAt_setLane c slot.1 _ other hshard, hget]
    by_cases hs : other.1 = slot.1
    · by_cases hi : other.2 = slot.2
      · rw [if_pos hs, if_pos hi, if_pos (Prod.ext hs hi)]
      · rw [if_pos hs, if_neg hi, if_neg fun heq => hi (congrArg Prod.snd heq), recordAt, hs,
          hlane, Option.bind_some]
    · rw [if_neg hs, if_neg fun heq => hs (congrArg Prod.fst heq)]
  · intro other
    rw [idAt_setLane c slot.1 _ other hshard]
    by_cases hs : other.1 = slot.1
    · rw [if_pos hs, idAt, hs, hlane, Option.bind_some]
    · rw [if_neg hs]

end TracingConsole.Analysis
