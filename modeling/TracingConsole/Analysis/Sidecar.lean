import TracingConsole.Analysis.CacheMoves
import TracingConsole.Analysis.RecordIds
import TracingConsole.Library.Tenancy

/-!
# Sidecar and slab agree

A slot has one owner at a time: the thread that inserted a record and has not returned its
id, and then the id, until it is closed (`holding`).  As long as no id is closed twice,
owners are tenants of their slots, so the slot of an owner is occupied by its own record
and nobody else stores into the sidecar word of that slot.  `sidecar_agrees` is the result.
-/

set_option autoImplicit false

namespace TracingConsole.Analysis

open TracingConsole.Library TracingConsole.Model

variable {T : Type} [DecidableEq T]

/-! ## Who owns a slot -/

/-- INTERNAL: the slot of a `new_span` call; before its sidecar store only when `early`.
SRCLINE: cache.rs:425-450 -/
def heldByCall (early : Bool) : Call → Option ((ℕ × ℕ) × SpanRecord)
  | .inserted r shard slabIdx => if early then some ((shard, slabIdx), r) else none
  | .stored r shard slabIdx => some ((shard, slabIdx), r)
  | _ => none

/-- INTERNAL: the slot of an id that was not closed. -/
def heldById (c : SpanCache) (sp : Returned) : Option ((ℕ × ℕ) × SpanRecord) :=
  if sp.closed then none
  else sp.record.bind fun r => (c.decodeTracingId sp.tracingId).map fun slot => (slot, r)

/-- INTERNAL: the slots of the threads and of the ids; those of threads that have not
stored into the sidecar yet only when `early`. -/
def holding (early : Bool) (w : World T) : T ⊕ ℕ → Option ((ℕ × ℕ) × SpanRecord) :=
  perOwner (heldByCall early) (heldById w.cache) w

/-- INTERNAL: threads and ids as tenants of the slabs. -/
def tenancy (w : World T) : Tenancy (T ⊕ ℕ) (ℕ × ℕ) SpanRecord where
  holds := holding true w
  memory := recordAt w.cache

omit [DecidableEq T] in
/-- INTERNAL: the lanes are written, and ids decode as before. -/
theorem holding_congr (early : Bool) (w w' : World T) (hcall : w'.call = w.call)
    (hspans : w'.spans = w.spans)
    (hdecode : ∀ id, w'.cache.decodeTracingId id = w.cache.decodeTracingId id) :
    holding early w' = holding early w := by
  have hid : heldById w'.cache = heldById w.cache := by
    funext sp
    rw [heldById, heldById, hdecode]
  rw [holding, hid]
  exact perOwner_congr _ _ w w' hcall hspans

/-- INTERNAL: a call that holds the same slot. -/
theorem holding_setCall_same (early : Bool) (w : World T) (t : T) (call : Call)
    (hcall : heldByCall early call = heldByCall early (w.call t)) :
    holding early (w.setCall t call) = holding early w :=
  perOwner_setCall_same _ _ w t call hcall

/-- INTERNAL: a call returns the disabled id. -/
theorem holding_reject (early : Bool) (w : World T) (t : T) (hcall : Unslotted (w.call t)) :
    holding early (w.reject t) = holding early w := by
  apply perOwner_giveOut_same
  · cases hc : w.call t with
    | inserted r shard slabIdx => rw [hc] at hcall; exact hcall.elim
    | stored r shard slabIdx => rw [hc] at hcall; exact hcall.elim
    | _ => rfl
  · rfl

omit [DecidableEq T] in
/-- INTERNAL: a span that is marked closed holds no slot. -/
theorem holding_markClosed [DecidableEq T] (early : Bool) (w : World T) (n : ℕ)
    (hn : n < w.spans.length) :
    holding early (w.markClosed n) = Function.update (holding early w) (.inr n) none :=
  perOwner_markClosed _ _ w n none (fun _ _ => rfl) hn

/-! ## The invariant -/

/-- INTERNAL: owners are tenants, and past its sidecar store an owner's word is its span's
id. -/
structure Agrees (w : World T) : Prop where
  placed : Placed w
  sound : (tenancy w).Sound
  published : ∀ o slot r, holding false w o = some (slot, r) → idAt w.cache slot = some r.id

omit [DecidableEq T] in
/-- INTERNAL: what is held late is held early. -/
theorem holding_early (w : World T) (o : T ⊕ ℕ) (x : (ℕ × ℕ) × SpanRecord)
    (h : holding false w o = some x) : holding true w o = some x := by
  cases o with
  | inl t =>
    rw [holding, perOwner] at h ⊢
    cases hc : w.call t with
    | inserted r shard slabIdx =>
      rw [hc] at h
      cases h
    | _ =>
      rw [hc] at h
      exact h
  | inr n => exact h

omit [DecidableEq T] in
/-- INTERNAL: no slot is held at the start. -/
theorem agrees_start (capacity : ℕ) (config : CacheConfig) (c : SpanCache)
    (hcache : SpanCache.withConfig capacity config = some c) (key : ℕ) (keys : T → ℕ) :
    Agrees (World.start c key keys) := by
  have hnone : ∀ early, holding early (World.start c key keys) = fun _ => none := by
    intro early
    funext o
    cases o with
    | inl t => rfl
    | inr n => rfl
  refine ⟨placed_start capacity config c hcache key keys, ?_, ?_⟩
  · rw [tenancy, hnone]
    exact Tenancy.sound_empty _
  · intro o slot r h
    rw [hnone] at h
    cases h

omit [DecidableEq T] in
/-- INTERNAL: the slots and the sidecar are as they were. -/
theorem Agrees.of_same (w w' : World T) (h : Agrees w) (hplaced : Placed w')
    (hholding : ∀ early, holding early w' = holding early w)
    (hcache : w'.cache = w.cache) : Agrees w' where
  placed := hplaced
  sound := by
    rw [tenancy, hholding, hcache]
    exact h.sound
  published := by
    intro o slot r ho
    rw [hholding] at ho
    rw [hcache]
    exact h.published o slot r ho

/-- INTERNAL: each id returned for a record is closed at most once; the disabled id, which
many spans share, may be closed freely. -/
def ClosesOnce (w : World T) : CacheStep T → Prop
  | .tryClose _ n _ => ∀ sp ∈ w.spans[n]?, sp.record.isSome → sp.closed = false
  | _ => True

/-- INTERNAL: decidable, so that it can be tested on a run. -/
instance (w : World T) : ∀ a : CacheStep T, Decidable (ClosesOnce w a)
  | .tryClose _ n _ =>
    inferInstanceAs (Decidable (∀ sp ∈ w.spans[n]?, sp.record.isSome → sp.closed = false))
  | .newSpan .. => inferInstanceAs (Decidable True)
  | .predicate .. => inferInstanceAs (Decidable True)
  | .allocate .. => inferInstanceAs (Decidable True)
  | .pickShard .. => inferInstanceAs (Decidable True)
  | .insert .. => inferInstanceAs (Decidable True)
  | .store .. => inferInstanceAs (Decidable True)
  | .finish .. => inferInstanceAs (Decidable True)
  | .enter .. => inferInstanceAs (Decidable True)
  | .exit .. => inferInstanceAs (Decidable True)
  | .event .. => inferInstanceAs (Decidable True)

/-- INTERNAL: an insertion makes its thread the tenant of the slot. -/
theorem Agrees.insert (w w' : World T) (h : Agrees w) (hplaced : Placed w') (t : T)
    (r : SpanRecord) (slot : ℕ × ℕ)
    (hcall : w'.call = (w.setCall t (.inserted r slot.1 slot.2)).call)
    (hspans : w'.spans = w.spans)
    (hlayout : SameLayout w.cache w'.cache) (hvacant : recordAt w.cache slot = none)
    (hrecord : ∀ s, recordAt w'.cache s = if s = slot then some r else recordAt w.cache s)
    (hids : ∀ s, idAt w'.cache s = idAt w.cache s) : Agrees w' := by
  have hholding : ∀ early, holding early w' =
      Function.update (holding early w) (.inl t)
        (heldByCall early (.inserted r slot.1 slot.2)) := by
    intro early
    rw [holding_congr early (w.setCall t (.inserted r slot.1 slot.2)) w' hcall hspans
      (SameLayout.decode_eq w.cache w'.cache hlayout)]
    exact perOwner_setCall _ _ w t _
  refine ⟨hplaced, ?_, ?_⟩
  · have hmemory : recordAt w'.cache = Function.update (recordAt w.cache) slot (some r) := by
      funext s
      rw [hrecord, Function.update_apply]
    have htake := h.sound.take _ (.inl t) slot r hvacant
    rw [tenancy, hholding, hmemory]
    exact htake
  · intro p s r' hp
    rw [hholding] at hp
    rw [hids]
    rcases Tenancy.held_update { holds := holding false w, memory := recordAt w.cache } _ _ p s r'
      hp with ⟨-, hnow⟩ | ⟨-, hold⟩
    · cases hnow
    · exact h.published p s r' hold

/-- INTERNAL: the sidecar store of a tenant changes no other tenant's word. -/
theorem Agrees.store (w w' : World T) (h : Agrees w) (hplaced : Placed w') (t : T)
    (r : SpanRecord) (slot : ℕ × ℕ) (hcall : w.call t = .inserted r slot.1 slot.2)
    (hcall' : w'.call = (w.setCall t (.stored r slot.1 slot.2)).call)
    (hspans : w'.spans = w.spans)
    (hlayout : SameLayout w.cache w'.cache)
    (hrecord : ∀ s, recordAt w'.cache s = recordAt w.cache s)
    (hids : ∀ s, idAt w'.cache s = if s = slot then some r.id else idAt w.cache s) :
    Agrees w' := by
  have hholding : ∀ early, holding early w' =
      Function.update (holding early w) (.inl t) (some (slot, r)) := by
    intro early
    rw [holding_congr early (w.setCall t (.stored r slot.1 slot.2)) w' hcall' hspans
      (SameLayout.decode_eq w.cache w'.cache hlayout)]
    exact perOwner_setCall _ _ w t _
  have howner : holding true w (.inl t) = some (slot, r) := by
    rw [holding, perOwner, hcall]
    rfl
  refine ⟨hplaced, ?_, ?_⟩
  · have hmemory : recordAt w'.cache = recordAt w.cache := funext hrecord
    have hsame : Function.update (holding true w) (.inl t) (some (slot, r)) = holding true w := by
      rw [← howner]
      exact Function.update_eq_self (.inl t) (holding true w)
    rw [tenancy, hholding, hsame, hmemory]
    exact h.sound
  · intro p s r' hp
    rw [hholding] at hp
    rw [hids]
    rcases Tenancy.held_update { holds := holding false w, memory := recordAt w.cache } _ _ p s r'
      hp with ⟨-, hnow⟩ | ⟨hpt, hold⟩
    · cases hnow
      rw [if_pos rfl]
    · have hne : s ≠ slot := by
        rintro rfl
        exact hpt (h.sound.exclusive p (.inl t) s r' r (holding_early w p _ hold) howner)
      rw [if_neg hne]
      exact h.published p s r' hold

/-- INTERNAL: the return passes the slot from the thread to the id. -/
theorem Agrees.finish (w : World T) (h : Agrees w) (t : T) (r : SpanRecord) (slot : ℕ × ℕ)
    (hcall : w.call t = .stored r slot.1 slot.2)
    (hplaced : Placed (w.giveOut t (w.cache.encodeTracingId slot.1 slot.2) (some r))) :
    Agrees (w.giveOut t (w.cache.encodeTracingId slot.1 slot.2) (some r)) := by
  have hslot : InRange w.cache slot := by
    have hrange := h.placed.calls t
    rw [hcall] at hrange
    exact hrange
  have hheld : heldById w.cache
      { tracingId := w.cache.encodeTracingId slot.1 slot.2, record := some r, closed := false } =
      some (slot, r) := by
    simp [heldById, h.placed.shape.decode_encode w.cache slot hslot]
  have howner : ∀ early, holding early w (.inl t) = some (slot, r) := by
    intro early
    rw [holding, perOwner, hcall]
    rfl
  have hafter : ∀ early, holding early
      (w.giveOut t (w.cache.encodeTracingId slot.1 slot.2) (some r)) =
      Function.update (Function.update (holding early w) (.inl t) none) (.inr w.spans.length)
        (some (slot, r)) := by
    intro early
    rw [← hheld]
    exact perOwner_giveOut _ _ w t _ _
  refine ⟨hplaced, ?_, ?_⟩
  · have htransfer := h.sound.transfer _ (.inl t) (.inr w.spans.length) slot r (howner true)
    rw [tenancy, hafter]
    exact htransfer
  · intro p s r' hp
    show idAt w.cache s = some r'.id
    rw [hafter] at hp
    rcases Tenancy.held_update
      { holds := Function.update (holding false w) (.inl t) none, memory := recordAt w.cache }
      _ _ p s r' hp with ⟨-, hnow⟩ | ⟨-, hold⟩
    · cases hnow
      exact h.published (.inl t) slot r (howner false)
    · rcases Tenancy.held_update { holds := holding false w, memory := recordAt w.cache } _ _ p s
        r' hold with ⟨-, hnow⟩ | ⟨-, hold⟩
      · cases hnow
      · exact h.published p s r' hold

/-- INTERNAL: closing an id that holds a slot empties it. -/
theorem Agrees.close (w w' : World T) (h : Agrees w) (hplaced : Placed w') (n : ℕ)
    (sp : Returned) (slot : ℕ × ℕ) (hsp : w.spans[n]? = some sp)
    (hopen : sp.record.isSome → sp.closed = false)
    (hdecode : w.cache.decodeTracingId sp.tracingId = some slot)
    (hcall : w'.call = w.call) (hspans : w'.spans = (w.markClosed n).spans)
    (hlayout : SameLayout w.cache w'.cache)
    (hrecord : ∀ s, recordAt w'.cache s = if s = slot then none else recordAt w.cache s)
    (hids : ∀ s, idAt w'.cache s = idAt w.cache s) : Agrees w' := by
  have hholding : ∀ early, holding early w' =
      Function.update (holding early w) (.inr n) none := by
    intro early
    rw [holding_congr early (w.markClosed n) w' hcall hspans
      (SameLayout.decode_eq w.cache w'.cache hlayout)]
    exact holding_markClosed early w n (List.getElem?_eq_some_iff.mp hsp).1
  have hissued := h.placed.spans sp (List.mem_of_getElem? hsp)
  obtain ⟨r, hr⟩ : ∃ r, sp.record = some r := by
    cases hr : sp.record with
    | some r => exact ⟨r, rfl⟩
    | none =>
      -- the disabled id is no address
      rw [Issued, hr] at hissued
      rw [hissued, SpanCache.decodeTracingId, if_pos rfl] at hdecode
      cases hdecode
  have howner : holding true w (.inr n) = some (slot, r) := by
    rw [holding, perOwner, hsp, Option.bind_some, heldById, hopen (by rw [hr]; rfl), hr]
    simp [hdecode]
  refine ⟨hplaced, ?_, ?_⟩
  · have hmemory : recordAt w'.cache = Function.update (recordAt w.cache) slot none := by
      funext s
      rw [hrecord, Function.update_apply]
    have hleave := h.sound.leave _ (.inr n) slot r howner
    rw [tenancy, hholding, hmemory]
    exact hleave
  · intro p s r' hp
    rw [hholding] at hp
    rw [hids]
    rcases Tenancy.held_update { holds := holding false w, memory := recordAt w.cache } _ _ p s r'
      hp with ⟨-, hnow⟩ | ⟨-, hold⟩
    · cases hnow
    · exact h.published p s r' hold

/-- INTERNAL: **moves keep owners in their slots**, as long as no id is closed twice. -/
theorem Agrees.move (w w' : World T) (h : Agrees w) (a : CacheStep T) (honce : ClosesOnce w a)
    (hmove : Move w a w') : Agrees w' := by
  have hplaced := h.placed.move w w' a hmove
  cases hmove with
  | drop => exact h
  | reject _ t hcall =>
    exact h.of_same w _ hplaced (fun early => holding_reject early w t hcall) rfl
  | resolve _ t o hcall =>
    exact h.of_same w _ hplaced
      (fun early => holding_setCall_same early w t _ (by rw [hcall]; rfl)) rfl
  | accept _ t o hcall =>
    exact h.of_same w _ hplaced
      (fun early => holding_setCall_same early w t _ (by rw [hcall]; rfl)) rfl
  | reserve _ t o hcall =>
    exact h.of_same w _ hplaced (fun early => holding_congr early w _ rfl rfl fun _ => rfl) rfl
  | build _ t o id now hcall =>
    refine h.of_same w _ hplaced (fun early => ?_) rfl
    rw [← holding_setCall_same early w t (.built o _) (by rw [hcall]; rfl)]
    exact holding_congr early _ _ rfl rfl fun _ => rfl
  | pick _ t o r shard key keys hcall =>
    refine h.of_same w _ hplaced (fun early => ?_) rfl
    rw [← holding_setCall_same early w t (.picked o r shard) (by rw [hcall]; rfl)]
    exact holding_congr early _ _ rfl rfl fun _ => rfl
  | insert _ t o r slot c' _ _ hlayout _ hvacant hrecord hids =>
    exact h.insert w _ hplaced t r slot rfl rfl hlayout hvacant hrecord hids
  | store _ t r slot c' hcall _ hlayout hrecord hids =>
    exact h.store w _ hplaced t r slot hcall rfl rfl hlayout hrecord hids
  | finish _ t r slot hcall => exact h.finish w t r slot hcall hplaced
  | enter _ t sp entry =>
    exact h.of_same w _ hplaced (fun early => holding_congr early w _ rfl rfl fun _ => rfl) rfl
  | exit _ t =>
    exact h.of_same w _ hplaced (fun early => holding_congr early w _ rfl rfl fun _ => rfl) rfl
  | event _ call t msg =>
    exact h.of_same w _ hplaced (fun early => holding_congr early w _ rfl rfl fun _ => rfl) rfl
  | closeDisabled t n now sp hsp hdis =>
    refine h.of_same w _ hplaced (fun early => ?_) rfl
    have hnone : holding early w (.inr n) = none := by
      rw [holding, perOwner, hsp, Option.bind_some, heldById, hdis, SpanCache.decodeTracingId,
        if_pos rfl]
      cases sp.record <;> simp
    rw [holding_markClosed early w n (List.getElem?_eq_some_iff.mp hsp).1, ← hnone]
    exact Function.update_eq_self (.inr n) (holding early w)
  | close t n now sp slot c' hsp hdecode _ hlayout hrecord hids =>
    exact h.close w _ hplaced n sp slot hsp (honce sp hsp) hdecode rfl rfl hlayout hrecord hids

/-! ## Every interleaving -/

/-- INTERNAL: what a run keeps whose ids are closed at most once. -/
theorem run_agrees (cache : SpanCache) (capacity : ℕ) (config : CacheConfig)
    (hcache : SpanCache.withConfig capacity config = some cache) (key : ℕ) (keys : T → ℕ)
    (steps : List (CacheStep T)) (w : World T)
    (honce : RunsUnder World.step ClosesOnce (World.start cache key keys) steps)
    (hrun : run World.step (World.start cache key keys) steps = some w) :
    Agrees w ∧ Numbered w ∧ w.cache.shardCapacity = cache.shardCapacity := by
  refine run_invariant_under World.step ClosesOnce
    (fun w => Agrees w ∧ Numbered w ∧ w.cache.shardCapacity = cache.shardCapacity)
    ?_ (World.start cache key keys) steps w ?_ honce hrun
  · intro w a w' h hok hstep
    have hmove := step_moves w w' h.1.placed a hstep
    exact ⟨h.1.move w w' a hok hmove, h.2.1.move w w' a hmove,
      (hmove.sameLayout w w' a).capacity.trans h.2.2⟩
  · exact ⟨agrees_start capacity config cache hcache key keys, numbered_start cache key keys, rfl⟩

/-- INTERNAL: whoever names the id `tracingId` gets the span of the record `r`.
SRCLINE: cache.rs:248-265, cache.rs:373-402, cache.rs:471-498, cache.rs:523-536 -/
structure AttributedTo (c : SpanCache) (tracingId : ℕ) (r : SpanRecord) : Prop where
  loaded : ∃ shard slabIdx, c.decodeTracingId tracingId = some (shard, slabIdx) ∧
    c.loadActualId shard slabIdx = .value r.id ∧ recordAt c (shard, slabIdx) = some r
  entered : c.enteredSpan tracingId = .value { tracingId := tracingId, actualId := r.id }
  child : ∀ attrs top, attrs.parent = .explicit tracingId →
    c.resolveParent attrs top = .value (some r.id)
  event : ∀ top, c.eventParent (some tracingId) top = .value r.id

/-- INTERNAL: `n` is an id returned for the record `r` and not closed yet. -/
def Live (w : World T) (n : ℕ) (sp : Returned) (r : SpanRecord) : Prop :=
  w.spans[n]? = some sp ∧ sp.record = some r ∧ sp.closed = false

omit [DecidableEq T] in
/-- INTERNAL: a live id holds the slot it is the address of. -/
theorem Live.holding (w : World T) (h : Placed w) (n : ℕ) (sp : Returned) (r : SpanRecord)
    (hlive : Live w n sp r) :
    ∃ slot, w.cache.decodeTracingId sp.tracingId = some slot ∧ sp.tracingId ≠ disabledId ∧
      ∀ early, holding early w (.inr n) = some (slot, r) := by
  obtain ⟨hsp, hr, hopen⟩ := hlive
  have hissued := h.spans sp (List.mem_of_getElem? hsp)
  rw [Issued, hr] at hissued
  obtain ⟨slot, hslot, hid⟩ := hissued
  have hdecode : w.cache.decodeTracingId sp.tracingId = some slot := by
    rw [hid]
    exact h.shape.decode_encode w.cache slot hslot
  refine ⟨slot, hdecode, ?_, fun early => ?_⟩
  · rw [hid]
    exact h.shape.encode_ne_disabled w.cache slot hslot
  · rw [Analysis.holding, perOwner, hsp, Option.bind_some, heldById, hopen, hr]
    simp [hdecode]

omit [DecidableEq T] in
/-- INTERNAL: a live id is attributed to its span. -/
theorem Agrees.attributed (w : World T) (h : Agrees w) (n : ℕ) (sp : Returned) (r : SpanRecord)
    (hlive : Live w n sp r) : AttributedTo w.cache sp.tracingId r := by
  obtain ⟨slot, hdecode, hne, hholds⟩ := hlive.holding w h.placed n sp r
  have hload := loadActualId_eq w.cache slot r.id (h.published (.inr n) slot r (hholds false))
  refine ⟨⟨slot.1, slot.2, hdecode, hload, h.sound.occupied (.inr n) slot r (hholds true)⟩,
    ?_, ?_, ?_⟩
  · simp only [SpanCache.enteredSpan, hdecode, hload, Outcome.map]
  · intro attrs top hparent
    simp only [SpanCache.resolveParent, hparent, hdecode, hload, Outcome.map]
  · intro top
    simp only [SpanCache.eventParent, if_neg hne, hdecode, hload]

/-- CODE: cache.rs:368-450, cache.rs:523-567 — **sidecar and slab agree**: in every
interleaving in which each returned id is closed at most once, no lane holds more than
`shard_capacity` records or a record at an index from `shard_capacity` on, no index is out
of bounds, and an id returned and not closed yet is attributed to its own span and to no
other. -/
theorem sidecar_agrees (cache : SpanCache) (capacity : ℕ) (config : CacheConfig)
    (hcache : SpanCache.withConfig capacity config = some cache) (key : ℕ) (keys : T → ℕ)
    (steps : List (CacheStep T)) (w : World T)
    (honce : RunsUnder World.step ClosesOnce (World.start cache key keys) steps)
    (hrun : run World.step (World.start cache key keys) steps = some w) :
    (∀ lane ∈ w.cache.inFlight, lane.slab.len ≤ cache.shardCapacity ∧
      lane.actualIds.length = cache.shardCapacity ∧
      ∀ slabIdx r, lane.slab.get slabIdx = some r → slabIdx < cache.shardCapacity) ∧
    (∀ t, w.call t ≠ .panicked) ∧
    (∀ n sp r, Live w n sp r → AttributedTo w.cache sp.tracingId r) ∧
    ∀ n m sp sp' r r', Live w n sp r → Live w m sp' r' → n ≠ m →
      sp.tracingId ≠ sp'.tracingId ∧ (w.ids.reserved < u64Size → r.id ≠ r'.id) := by
  obtain ⟨hagrees, hnumbered, hcapacity⟩ :=
    run_agrees cache capacity config hcache key keys steps w honce hrun
  rw [← hcapacity]
  refine ⟨?_, ?_, fun n sp r => hagrees.attributed w n sp r, ?_⟩
  · intro lane hlane
    have hslots := hagrees.placed.shape.slots lane hlane
    refine ⟨le_trans lane.slab.len_le hslots, hagrees.placed.shape.sidecar lane hlane, ?_⟩
    intro slabIdx r hget
    exact lt_of_lt_of_le (lane.slab.lt_of_get slabIdx r hget) hslots
  · intro t hpanic
    have hrange := hagrees.placed.calls t
    rw [hpanic] at hrange
    exact hrange
  · intro n m sp sp' r r' hlive hlive' hne
    refine ⟨fun heq => ?_, fun hlast heq => ?_⟩
    · obtain ⟨slot, hdecode, -, hholds⟩ := hlive.holding w hagrees.placed n sp r
      obtain ⟨slot', hdecode', -, hholds'⟩ := hlive'.holding w hagrees.placed m sp' r'
      rw [heq, hdecode'] at hdecode
      obtain rfl := Option.some.inj hdecode
      have howner := hagrees.sound.exclusive (.inr n) (.inr m) slot' r r' (hholds true)
        (hholds' true)
      exact hne (Sum.inr.inj howner)
    · have hid : perOwner builtId returnedId w (.inr n) = some (r.id, ()) := by
        rw [perOwner, hlive.1, Option.bind_some, returnedId, hlive.2.1, Option.map_some]
      have hid' : perOwner builtId returnedId w (.inr m) = some (r.id, ()) := by
        rw [perOwner, hlive'.1, Option.bind_some, returnedId, hlive'.2.1, Option.map_some, heq]
      have howner := (hnumbered.sound hlast).exclusive (.inr n) (.inr m) r.id () () hid hid'
      exact hne (Sum.inr.inj howner)

/-! A cache with one slot: a span is opened and closed, and another thread's span takes its
slot and so its id. -/

/-- INTERNAL: one lane with one slot. -/
def oneSlot : SpanCache where
  inFlight := [{ slab := Slab.empty, actualIds := [0] }]
  shardCapacity := 1
  pendingBatch := 8
  shardMask := 0
  shardShift := 63

/-- INTERNAL: one lane with two slots. -/
def twoSlots : SpanCache where
  inFlight := [{ slab := Slab.empty, actualIds := [0, 0] }]
  shardCapacity := 2
  pendingBatch := 8
  shardMask := 0
  shardShift := 63

/-- INTERNAL: the steps of a call that opens a root span in slot 0. -/
def openRoot (t : Bool) : List (CacheStep Bool) :=
  [.newSpan t .root { name := "root", target := "app", level := .info } [], .predicate t true,
    .allocate t 0, .allocate t 0, .pickShard t, .insert t 0, .store t, .finish t]

/-- INTERNAL: the steps of a call that opens a child of the innermost span in slot 1, in a thread
that has ids. -/
def openChild (t : Bool) : List (CacheStep Bool) :=
  [.newSpan t .contextual { name := "child", target := "app", level := .info } [],
    .predicate t true, .allocate t 1, .pickShard t, .insert t 1, .store t, .finish t]

/-- CODE: cache.rs:368-450 — the second span is attributed its own id, not that of the span
whose slot it took. -/
theorem sidecar_agrees_reuse :
    ∃ w sp r, run World.step (World.start oneSlot 0 fun _ => 0)
        (openRoot false ++ [.tryClose false 0 5] ++ openRoot true) = some w ∧
      Live w 1 sp r ∧ sp.tracingId = 2 ∧ r.id = 2048 ∧ AttributedTo w.cache 2 r :=
  ⟨_, _, _, rfl, ⟨rfl, rfl, rfl⟩, rfl, rfl,
    (sidecar_agrees oneSlot 1 { laneCount := 1, pendingBatch := 8 } (by decide) 0 (fun _ => 0)
      (openRoot false ++ [.tryClose false 0 5] ++ openRoot true) _ (by decide) rfl).2.2.1
      1 _ _ ⟨rfl, rfl, rfl⟩⟩

end TracingConsole.Analysis
