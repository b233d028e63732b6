import TracingConsole.Analysis.SlabAddress
import TracingConsole.Library.Runs
import TracingConsole.Model.CacheThreads

/-!
# What an atomic step of the cache does

`Move` lists the effects a step can have on a well-placed world, with everything the code
has checked by then; `Placed` is the part of the state the effects rely on: the cache has
its shape, the slots threads are about to use are in range, and ids are addresses in range
or the disabled id.  `step_moves` is the only place where the step function is taken
apart, and no panic is among the effects.
-/

set_option autoImplicit false

namespace TracingConsole.Analysis

open TracingConsole.Library TracingConsole.Model

variable {T : Type} [DecidableEq T]

/-! ## Worlds whose addresses are in range -/

/-- INTERNAL: an id is the disabled one or the address of a slot. -/
def Addressed (c : SpanCache) (id : ℕ) : Prop :=
  id = disabledId ∨ ∃ slot, InRange c slot ∧ id = c.encodeTracingId slot.1 slot.2

/-- INTERNAL: an id given out for a record is the address of a slot, any other is the
disabled one. -/
def Issued (c : SpanCache) (sp : Returned) : Prop :=
  match sp.record with
  | none => sp.tracingId = disabledId
  | some _ => ∃ slot, InRange c slot ∧ sp.tracingId = c.encodeTracingId slot.1 slot.2

/-- INTERNAL: a span that was given out is addressed. -/
theorem Issued.addressed (c : SpanCache) (sp : Returned) (h : Issued c sp) :
    Addressed c sp.tracingId := by
  unfold Issued at h
  split at h
  · exact Or.inl h
  · exact Or.inr h

/-- INTERNAL: what a thread is about to use is in range. -/
def CallInRange (c : SpanCache) : Call → Prop
  | .picked _ _ shard => shard < c.inFlight.length
  | .inserted _ shard slabIdx => InRange c (shard, slabIdx)
  | .stored _ shard slabIdx => InRange c (shard, slabIdx)
  | .panicked => False
  | _ => True

/-- INTERNAL: every address in use is in range and no thread has panicked. -/
structure Placed (w : World T) : Prop where
  shape : Shape w.cache
  calls : ∀ t, CallInRange w.cache (w.call t)
  spans : ∀ sp ∈ w.spans, Issued w.cache sp

omit [DecidableEq T] in
/-- INTERNAL: so is every span of a placed world. -/
theorem Placed.addressed (w : World T) (h : Placed w) (sp : Returned) (hsp : sp ∈ w.spans) :
    Addressed w.cache sp.tracingId := Issued.addressed w.cache sp (h.spans sp hsp)

omit [DecidableEq T] in
/-- INTERNAL: the world starts placed. -/
theorem placed_start (capacity : ℕ) (config : CacheConfig) (c : SpanCache)
    (hcache : SpanCache.withConfig capacity config = some c) (key : ℕ) (keys : T → ℕ) :
    Placed (World.start c key keys) where
  shape := shape_withConfig capacity config c hcache
  calls := fun _ => trivial
  spans := fun _ hsp => by cases hsp

/-- INTERNAL: an id in use is not an address, and then it is the disabled one, or it is
that of a slot in range. -/
theorem Addressed.decode (c : SpanCache) (h : Shape c) (id : ℕ) (hid : Addressed c id) :
    (id = disabledId ∧ c.decodeTracingId id = none) ∨
    (id ≠ disabledId ∧ ∃ slot, InRange c slot ∧ c.decodeTracingId id = some slot) := by
  rcases hid with rfl | ⟨slot, hslot, rfl⟩
  · exact Or.inl ⟨rfl, by rw [SpanCache.decodeTracingId, if_pos rfl]⟩
  · exact Or.inr ⟨h.encode_ne_disabled c slot hslot, slot, hslot, h.decode_encode c slot hslot⟩

/-- INTERNAL: what was given out depends on the layout alone. -/
theorem Issued.congr (c c' : SpanCache) (h : SameLayout c c') (sp : Returned)
    (hsp : Issued c sp) : Issued c' sp := by
  unfold Issued at hsp ⊢
  cases hr : sp.record with
  | none =>
    rw [hr] at hsp
    exact hsp
  | some r =>
    rw [hr] at hsp
    obtain ⟨slot, hslot, heq⟩ := hsp
    exact ⟨slot, (h.inRange_iff c c' slot).mpr hslot, heq.trans (h.encode_eq c c' _ _).symm⟩

/-- INTERNAL: so does the range of a call. -/
theorem CallInRange.congr (c c' : SpanCache) (h : SameLayout c c') (call : Call)
    (hcall : CallInRange c call) : CallInRange c' call := by
  cases call with
  | picked o r shard =>
    show shard < c'.inFlight.length
    rw [h.lanes]
    exact hcall
  | inserted r shard slabIdx => exact (h.inRange_iff c c' _).mpr hcall
  | stored r shard slabIdx => exact (h.inRange_iff c c' _).mpr hcall
  | panicked => exact hcall
  | idle => trivial
  | resolved o => trivial
  | enabled o => trivial
  | built o r => trivial

/-! ## The effects -/

/-- INTERNAL: a thread is not in the part of a call that owns a slot. -/
def Unslotted : Call → Prop
  | .inserted .. => False
  | .stored .. => False
  | _ => True

/-- INTERNAL: what a close hands to the buffer of its thread. -/
def handedOver (t : T) (now : ℕ) (removed : Option SpanRecord) : List (T × SpanRecord) :=
  (removed.map fun r => { r with closedAt := some now }).toList.map fun r => (t, r)

/-- INTERNAL: the effects of a step on a world whose addresses are in range. -/
inductive Move (w : World T) : CacheStep T → World T → Prop
  /-- a call, past the slot or not, changes nothing: an event is dropped -/
  | drop (a : CacheStep T) : Move w a w
  /-- `new_span` returns the disabled id -/
  | reject (a : CacheStep T) (t : T) (hcall : Unslotted (w.call t)) : Move w a (w.reject t)
  | resolve (a : CacheStep T) (t : T) (o : Opening) (hcall : w.call t = .idle)
      (htop : o.top = w.stackTop t)
      (hparent : w.cache.resolveParent o.attrs o.top = .value o.parentActualId)
      (hissued : ∀ id, o.attrs.parent = .explicit id → ∃ sp ∈ w.spans, sp.tracingId = id) :
      Move w a (w.setCall t (.resolved o))
  | accept (a : CacheStep T) (t : T) (o : Opening) (hcall : w.call t = .resolved o) :
      Move w a (w.setCall t (.enabled o))
  /-- the `fetch_add` of an allocation -/
  | reserve (a : CacheStep T) (t : T) (o : Opening) (hcall : w.call t = .enabled o)
      (hid : (w.ids.ids.advance t).2 = none) :
      Move w a { w with ids := w.ids.advance t }
  | build (a : CacheStep T) (t : T) (o : Opening) (id now : ℕ) (hcall : w.call t = .enabled o)
      (hid : (w.ids.ids.advance t).2 = some id) :
      Move w a ({ w with ids := w.ids.advance t }.setCall t
        (.built o (SpanCache.buildRecord o.attrs id o.parentActualId now)))
  | pick (a : CacheStep T) (t : T) (o : Opening) (r : SpanRecord) (shard key : ℕ) (keys : T → ℕ)
      (hcall : w.call t = .built o r) (hshard : shard < w.cache.inFlight.length) :
      Move w a ({ w with nextThreadKey := key, threadShardKey := keys }.setCall t
        (.picked o r shard))
  | insert (a : CacheStep T) (t : T) (o : Opening) (r : SpanRecord) (slot : ℕ × ℕ)
      (c' : SpanCache) (hcall : w.call t = .picked o r slot.1) (hshape : Shape c')
      (hlayout : SameLayout w.cache c') (hslot : InRange w.cache slot)
      (hvacant : recordAt w.cache slot = none)
      (hrecord : ∀ s, recordAt c' s = if s = slot then some r else recordAt w.cache s)
      (hids : ∀ s, idAt c' s = idAt w.cache s) :
      Move w a { w.setCall t (.inserted r slot.1 slot.2) with
        cache := c', inserted := w.inserted ++ [(o, r)] }
  | store (a : CacheStep T) (t : T) (r : SpanRecord) (slot : ℕ × ℕ) (c' : SpanCache)
      (hcall : w.call t = .inserted r slot.1 slot.2) (hshape : Shape c')
      (hlayout : SameLayout w.cache c')
      (hrecord : ∀ s, recordAt c' s = recordAt w.cache s)
      (hids : ∀ s, idAt c' s = if s = slot then some r.id else idAt w.cache s) :
      Move w a { w.setCall t (.stored r slot.1 slot.2) with cache := c' }
  | finish (a : CacheStep T) (t : T) (r : SpanRecord) (slot : ℕ × ℕ)
      (hcall : w.call t = .stored r slot.1 slot.2) :
      Move w a (w.giveOut t (w.cache.encodeTracingId slot.1 slot.2) (some r))
  | enter (a : CacheStep T) (t : T) (sp : Returned) (entry : StackedSpan) (hsp : sp ∈ w.spans)
      (hentry : w.cache.enteredSpan sp.tracingId = .value entry) :
      Move w a { w with spanStack := Function.update w.spanStack t (entry :: w.spanStack t) }
  | exit (a : CacheStep T) (t : T) : Move w a (w.exit t)
  | event (a : CacheStep T) (call : EventCall) (t : T) (msg : EventMessage)
      (htop : call.top = w.stackTop t)
      (hparent : w.cache.eventParent call.parent call.top = .value msg.parentActualId)
      (hissued : ∀ id, call.parent = some id → ∃ sp ∈ w.spans, sp.tracingId = id) :
      Move w a { w with events := w.events ++ [(call, msg)] }
  /-- `try_close` of the disabled id -/
  | closeDisabled (t : T) (n now : ℕ) (sp : Returned) (hsp : w.spans[n]? = some sp)
      (hdisabled : sp.tracingId = disabledId) :
      Move w (.tryClose t n now) (w.markClosed n)
  | close (t : T) (n now : ℕ) (sp : Returned) (slot : ℕ × ℕ) (c' : SpanCache)
      (hsp : w.spans[n]? = some sp) (hdecode : w.cache.decodeTracingId sp.tracingId = some slot)
      (hshape : Shape c') (hlayout : SameLayout w.cache c')
      (hrecord : ∀ s, recordAt c' s = if s = slot then none else recordAt w.cache s)
      (hids : ∀ s, idAt c' s = idAt w.cache s) :
      Move w (.tryClose t n now)
        ({ w with
            cache := c'
            closed := w.closed ++ handedOver t now (recordAt w.cache slot) }.markClosed n)

/-! ## The resolutions do not panic -/

/-- INTERNAL: an address in range is read. -/
theorem loadActualId_of_inRange (c : SpanCache) (h : Shape c) (slot : ℕ × ℕ)
    (hslot : InRange c slot) :
    ∃ id, idAt c slot = some id ∧ c.loadActualId slot.1 slot.2 = .value id := by
  obtain ⟨id, hid⟩ := h.idAt_isSome c slot hslot
  exact ⟨id, hid, loadActualId_eq c slot id hid⟩

/-- INTERNAL: what an entered id is found to be. -/
theorem enteredSpan_cases (c : SpanCache) (h : Shape c) (id : ℕ) (hid : Addressed c id) :
    (id = disabledId ∧ c.enteredSpan id = .value { tracingId := id, actualId := 0 }) ∨
    ∃ slot actual, InRange c slot ∧ c.decodeTracingId id = some slot ∧
      idAt c slot = some actual ∧
      c.enteredSpan id = .value { tracingId := id, actualId := actual } := by
  rcases hid.decode c h id with ⟨hdis, hdecode⟩ | ⟨-, slot, hslot, hdecode⟩
  · exact Or.inl ⟨hdis, by rw [SpanCache.enteredSpan, hdecode]⟩
  · obtain ⟨actual, hactual, hload⟩ := loadActualId_of_inRange c h slot hslot
    refine Or.inr ⟨slot, actual, hslot, hdecode, hactual, ?_⟩
    rw [SpanCache.enteredSpan, hdecode]
    simp only [hload, Outcome.map]

/-- INTERNAL: what an explicit parent resolves to. -/
theorem explicitParent_cases (c : SpanCache) (h : Shape c) (attrs : Attributes)
    (top : Option StackedSpan) (id : ℕ) (hparent : attrs.parent = .explicit id)
    (hid : Addressed c id) :
    (id = disabledId ∧ c.resolveParent attrs top = .disabled) ∨
    ∃ slot actual, InRange c slot ∧ c.decodeTracingId id = some slot ∧
      idAt c slot = some actual ∧ c.resolveParent attrs top = .value (some actual) := by
  rcases hid.decode c h id with ⟨hdis, hdecode⟩ | ⟨-, slot, hslot, hdecode⟩
  · exact Or.inl ⟨hdis, by simp only [SpanCache.resolveParent, hparent, hdecode]⟩
  · obtain ⟨actual, hactual, hload⟩ := loadActualId_of_inRange c h slot hslot
    refine Or.inr ⟨slot, actual, hslot, hdecode, hactual, ?_⟩
    simp only [SpanCache.resolveParent, hparent, hdecode, hload, Outcome.map]

/-- INTERNAL: what the explicit parent of an event resolves to. -/
theorem eventParent_cases (c : SpanCache) (h : Shape c) (top : Option StackedSpan) (id : ℕ)
    (hid : Addressed c id) :
    (id = disabledId ∧ c.eventParent (some id) top = .disabled) ∨
    ∃ slot actual, InRange c slot ∧ c.decodeTracingId id = some slot ∧
      idAt c slot = some actual ∧ c.eventParent (some id) top = .value actual := by
  rcases hid.decode c h id with ⟨hdis, hdecode⟩ | ⟨hne, slot, hslot, hdecode⟩
  · exact Or.inl ⟨hdis, by rw [SpanCache.eventParent]; exact if_pos hdis⟩
  · obtain ⟨actual, hactual, hload⟩ := loadActualId_of_inRange c h slot hslot
    refine Or.inr ⟨slot, actual, hslot, hdecode, hactual, ?_⟩
    simp only [SpanCache.eventParent, if_neg hne, hdecode, hload]

/-- INTERNAL: resolving a parent does not panic. -/
theorem resolveParent_ne_panicked (c : SpanCache) (h : Shape c) (attrs : Attributes)
    (top : Option StackedSpan) (hissued : ∀ id, attrs.parent = .explicit id → Addressed c id) :
    c.resolveParent attrs top ≠ .panicked := by
  intro hpanic
  cases hparent : attrs.parent with
  | contextual =>
    simp only [SpanCache.resolveParent, hparent] at hpanic
    cases top with
    | none => cases hpanic
    | some e =>
      simp only at hpanic
      split at hpanic <;> cases hpanic
  | root =>
    simp only [SpanCache.resolveParent, hparent] at hpanic
    split at hpanic <;> cases hpanic
  | explicit id =>
    rcases explicitParent_cases c h attrs top id hparent (hissued id hparent) with
      ⟨-, hvalue⟩ | ⟨_, _, -, -, -, hvalue⟩ <;> rw [hvalue] at hpanic <;> cases hpanic

/-- INTERNAL: resolving the span of an event does not panic. -/
theorem eventParent_ne_panicked (c : SpanCache) (h : Shape c) (parent : Option ℕ)
    (top : Option StackedSpan) (hissued : ∀ id, parent = some id → Addressed c id) :
    c.eventParent parent top ≠ .panicked := by
  intro hpanic
  cases parent with
  | none =>
    simp only [SpanCache.eventParent] at hpanic
    cases top with
    | none => cases hpanic
    | some e =>
      simp only at hpanic
      split at hpanic <;> cases hpanic
  | some id =>
    rcases eventParent_cases c h top id (hissued id rfl) with
      ⟨-, hvalue⟩ | ⟨_, _, -, -, -, hvalue⟩ <;> rw [hvalue] at hpanic <;> cases hpanic

/-! ## Every step is a move -/

/-- INTERNAL: `new_span` up to the parent. -/
theorem newSpan_moves (w : World T) (h : Placed w) (a : CacheStep T) (t : T)
    (attrs : Attributes) (hcall : w.call t = .idle)
    (hissued : ∀ id, attrs.parent = .explicit id → ∃ sp ∈ w.spans, sp.tracingId = id) :
    Move w a (w.newSpan t attrs) := by
  unfold World.newSpan
  cases hparent : w.cache.resolveParent attrs (w.stackTop t) with
  | value p =>
    exact .resolve a t { attrs := attrs, top := w.stackTop t, parentActualId := p } hcall rfl
      hparent hissued
  | disabled => exact .reject a t (by rw [hcall]; trivial)
  | panicked =>
    refine absurd hparent (resolveParent_ne_panicked w.cache h.shape attrs _ fun id hid => ?_)
    obtain ⟨sp, hsp, rfl⟩ := hissued id hid
    exact h.addressed w sp hsp

/-- INTERNAL: the first access of a call reserves an id. -/
theorem allocate_moves (w : World T) (a : CacheStep T) (t : T) (o : Opening) (now : ℕ)
    (hcall : w.call t = .enabled o) : Move w a (w.allocate t o now) := by
  unfold World.allocate
  cases hid : (w.ids.ids.advance t).2 with
  | none => exact .reserve a t o hcall hid
  | some id => exact .build a t o id now hcall hid

/-- INTERNAL: the second picks the lane. -/
theorem pickShard_moves (w : World T) (h : Placed w) (a : CacheStep T) (t : T) (o : Opening)
    (r : SpanRecord) (hcall : w.call t = .built o r) : Move w a (w.pickShard t o r) := by
  unfold World.pickShard
  split
  · exact .pick a t o r _ _ _ hcall (h.shape.pickShard_lt w.cache _)
  · exact .pick a t o r _ w.nextThreadKey w.threadShardKey hcall (h.shape.pickShard_lt w.cache _)

/-- INTERNAL: the third puts the record into a slot. -/
theorem insert_moves (w : World T) (h : Placed w) (a : CacheStep T) (t : T) (o : Opening)
    (r : SpanRecord) (shard slabIdx : ℕ) (hcall : w.call t = .picked o r shard)
    (htakes : ∀ lane ∈ w.cache.inFlight[shard]?, lane.slab.Takes slabIdx) :
    Move w a (w.insert t o r shard slabIdx) := by
  have hshard : shard < w.cache.inFlight.length := by
    have hrange := h.calls t
    rw [hcall] at hrange
    exact hrange
  unfold World.insert
  cases hins : w.cache.insertRecord shard slabIdx r with
  | value c' =>
    obtain ⟨hshape, hlayout, hslot, hvacant, hrecord, hids⟩ :=
      insertRecord_spec w.cache c' h.shape shard slabIdx r htakes hins
    exact .insert a t o r (shard, slabIdx) c' hcall hshape hlayout hslot hvacant hrecord hids
  | disabled => exact .reject a t (by rw [hcall]; trivial)
  | panicked => exact absurd hins (insertRecord_ne_panicked w.cache shard slabIdx r hshard)

/-- INTERNAL: the fourth publishes its id. -/
theorem store_moves (w : World T) (h : Placed w) (a : CacheStep T) (t : T) (r : SpanRecord)
    (shard slabIdx : ℕ) (hcall : w.call t = .inserted r shard slabIdx) :
    Move w a (w.store t r shard slabIdx) := by
  have hslot : InRange w.cache (shard, slabIdx) := by
    have hrange := h.calls t
    rw [hcall] at hrange
    exact hrange
  obtain ⟨c', hstore, hshape, hlayout, hrecord, hids⟩ :=
    storeActualId_spec w.cache h.shape shard slabIdx r.id hslot
  simp only [World.store, hstore]
  exact .store a t r (shard, slabIdx) c' hcall hshape hlayout hrecord hids

/-- INTERNAL: entering a span pushes it. -/
theorem enter_moves (w : World T) (h : Placed w) (a : CacheStep T) (t : T) (sp : Returned)
    (hsp : sp ∈ w.spans) : Move w a (w.enter t sp.tracingId) := by
  unfold World.enter
  rcases enteredSpan_cases w.cache h.shape sp.tracingId (h.addressed w sp hsp) with
    ⟨-, hentry⟩ | ⟨_, _, -, -, -, hentry⟩
  · rw [hentry]
    exact .enter a t sp _ hsp hentry
  · rw [hentry]
    exact .enter a t sp _ hsp hentry

/-- INTERNAL: an event is sent, or ignored. -/
theorem event_moves (w : World T) (h : Placed w) (a : CacheStep T) (t : T) (parent : Option ℕ)
    (record : EventRecord) (hissued : ∀ id, parent = some id → ∃ sp ∈ w.spans, sp.tracingId = id) :
    Move w a (w.event t parent record) := by
  unfold World.event
  cases hparent : w.cache.eventParent parent (w.stackTop t) with
  | value p =>
    exact .event a { parent := parent, top := w.stackTop t } t
      { parentActualId := p, record := record } rfl hparent hissued
  | disabled => exact .drop a
  | panicked =>
    refine absurd hparent (eventParent_ne_panicked w.cache h.shape parent _ fun id hid => ?_)
    obtain ⟨sp, hsp, rfl⟩ := hissued id hid
    exact h.addressed w sp hsp

/-- INTERNAL: what `try_close` of a returned id does: nothing for the disabled id, and
otherwise it empties the slot the id is the address of. -/
theorem tryClose_effect (w : World T) (h : Placed w) (t : T) (n now : ℕ) (sp : Returned)
    (hsp : w.spans[n]? = some sp) :
    (sp.tracingId = disabledId ∧ w.tryClose t sp.tracingId now = w) ∨
    ∃ slot c', sp.tracingId ≠ disabledId ∧ w.cache.decodeTracingId sp.tracingId = some slot ∧
      Shape c' ∧ SameLayout w.cache c' ∧
      (∀ s, recordAt c' s = if s = slot then none else recordAt w.cache s) ∧
      (∀ s, idAt c' s = idAt w.cache s) ∧
      w.tryClose t sp.tracingId now =
        { w with cache := c', closed := w.closed ++ handedOver t now (recordAt w.cache slot) } := by
  rcases (h.addressed w sp (List.mem_of_getElem? hsp)).decode w.cache h.shape sp.tracingId with
    ⟨hdis, hdecode⟩ | ⟨hne, slot, -, hdecode⟩
  · refine Or.inl ⟨hdis, ?_⟩
    rw [World.tryClose, tryClose_of_none w.cache _ now hdecode]
    simp
  · obtain ⟨c', hclose, hshape, hlayout, hrecord, hids⟩ :=
      tryClose_spec w.cache h.shape sp.tracingId now slot hdecode
    refine Or.inr ⟨slot, c', hne, hdecode, hshape, hlayout, hrecord, hids, ?_⟩
    rw [World.tryClose, hclose]
    rfl

/-- INTERNAL: a handle is dropped. -/
theorem tryClose_moves (w : World T) (h : Placed w) (t : T) (n now : ℕ) (sp : Returned)
    (hsp : w.spans[n]? = some sp) :
    Move w (.tryClose t n now) ((w.tryClose t sp.tracingId now).markClosed n) := by
  rcases tryClose_effect w h t n now sp hsp with
    ⟨hdis, hsame⟩ | ⟨slot, c', -, hdecode, hshape, hlayout, hrecord, hids, hclose⟩
  · rw [hsame]
    exact .closeDisabled t n now sp hsp hdis
  · rw [hclose]
    exact .close t n now sp slot c' hsp hdecode hshape hlayout hrecord hids

/-- INTERNAL: **every step of a well-placed world is one of the moves**. -/
theorem step_moves (w w' : World T) (h : Placed w) (a : CacheStep T)
    (hstep : w.step a = some w') : Move w a w' := by
  cases a with
  | newSpan t parent metadata values =>
    simp only [World.step] at hstep
    split at hstep
    · next kind hcall hkind =>
      obtain rfl := Option.some.inj hstep
      refine newSpan_moves w h _ t _ hcall fun id hid => ?_
      change kind = .explicit id at hid
      cases parent with
      | contextual =>
        cases hkind
        cases hid
      | root =>
        cases hkind
        cases hid
      | span n =>
        obtain ⟨sp, hsp, hexplicit⟩ := Option.map_eq_some_iff.mp hkind
        rw [← hexplicit] at hid
        exact ⟨sp, List.mem_of_getElem? hsp, ParentKind.explicit.inj hid⟩
    · cases hstep
  | predicate t accepts =>
    simp only [World.step] at hstep
    split at hstep
    · next o hcall =>
      obtain rfl := Option.some.inj hstep
      cases accepts with
      | true => exact .accept _ t o hcall
      | false => exact .reject _ t (by rw [hcall]; trivial)
    · cases hstep
  | allocate t now =>
    simp only [World.step] at hstep
    split at hstep
    · next o hcall =>
      obtain rfl := Option.some.inj hstep
      exact allocate_moves w _ t o now hcall
    · cases hstep
  | pickShard t =>
    simp only [World.step] at hstep
    split at hstep
    · next o r hcall =>
      obtain rfl := Option.some.inj hstep
      exact pickShard_moves w h _ t o r hcall
    · cases hstep
  | insert t slabIdx =>
    simp only [World.step] at hstep
    split at hstep
    · next o r shard hcall =>
      simp only [Option.ite_none_right_eq_some, Option.some.injEq] at hstep
      obtain ⟨htakes, rfl⟩ := hstep
      exact insert_moves w h _ t o r shard slabIdx hcall htakes
    · cases hstep
  | store t =>
    simp only [World.step] at hstep
    split at hstep
    · next r shard slabIdx hcall =>
      obtain rfl := Option.some.inj hstep
      exact store_moves w h _ t r shard slabIdx hcall
    · cases hstep
  | finish t =>
    simp only [World.step] at hstep
    split at hstep
    · next r shard slabIdx hcall =>
      obtain rfl := Option.some.inj hstep
      exact .finish _ t r (shard, slabIdx) hcall
    · cases hstep
  | enter t n =>
    simp only [World.step] at hstep
    split at hstep
    · next sp hcall hsp =>
      obtain rfl := Option.some.inj hstep
      exact enter_moves w h _ t sp (List.mem_of_getElem? hsp)
    · cases hstep
  | exit t =>
    simp only [World.step] at hstep
    split at hstep
    · obtain rfl := Option.some.inj hstep
      exact .exit _ t
    · cases hstep
  | event t parent metadata values now =>
    cases parent with
    | none =>
      simp only [World.step] at hstep
      split at hstep
      · obtain rfl := Option.some.inj hstep
        exact event_moves w h _ t none _ fun id hid => by cases hid
      · cases hstep
    | some n =>
      simp only [World.step] at hstep
      split at hstep
      · next sp hcall hsp =>
        obtain rfl := Option.some.inj hstep
        refine event_moves w h _ t (some sp.tracingId) _ fun id hid => ?_
        exact ⟨sp, List.mem_of_getElem? hsp, Option.some.inj hid⟩
      · cases hstep
  | tryClose t n now =>
    simp only [World.step] at hstep
    split at hstep
    · next sp hcall hsp =>
      obtain rfl := Option.some.inj hstep
      exact tryClose_moves w h t n now sp hsp
    · cases hstep

/-! ## Worlds stay well-placed -/

/-- INTERNAL: a thread's call is written for it alone. -/
@[simp] theorem setCall_call (w : World T) (t u : T) (call : Call) :
    (w.setCall t call).call u = if u = t then call else w.call u :=
  Function.update_apply w.call t call u

omit [DecidableEq T] in
/-- INTERNAL: ids given out and closed are addressed as they were. -/
theorem Placed.of_frame (w w' : World T) (h : Placed w) (hshape : Shape w'.cache)
    (hlayout : SameLayout w.cache w'.cache)
    (hcalls : ∀ t, w'.call t = w.call t ∨ CallInRange w.cache (w'.call t))
    (hspans : ∀ sp ∈ w'.spans,
      (∃ old ∈ w.spans, old.tracingId = sp.tracingId ∧ old.record = sp.record) ∨
        Issued w.cache sp) :
    Placed w' where
  shape := hshape
  calls := by
    intro t
    apply CallInRange.congr w.cache w'.cache hlayout
    rcases hcalls t with heq | hrange
    · rw [heq]
      exact h.calls t
    · exact hrange
  spans := by
    intro sp hsp
    apply Issued.congr w.cache w'.cache hlayout
    rcases hspans sp hsp with ⟨old, hold, hid, hrecord⟩ | hissued
    · have hbefore := h.spans old hold
      unfold Issued at hbefore ⊢
      rw [← hrecord, ← hid]
      exact hbefore
    · exact hissued

/-- INTERNAL: one thread goes on to a call whose slot is in range. -/
theorem setCall_frame (w : World T) (t : T) (call : Call) (c : SpanCache)
    (hcall : CallInRange c call) (u : T) :
    (w.setCall t call).call u = w.call u ∨ CallInRange c ((w.setCall t call).call u) := by
  rw [setCall_call]
  by_cases hu : u = t
  · rw [if_pos hu]
    exact Or.inr hcall
  · rw [if_neg hu]
    exact Or.inl rfl

/-- INTERNAL: the ids given out, before and after one more. -/
theorem giveOut_frame (w : World T) (t : T) (id : ℕ) (r : Option SpanRecord)
    (hid : Issued w.cache { tracingId := id, record := r, closed := false }) (sp : Returned)
    (hsp : sp ∈ (w.giveOut t id r).spans) :
    (∃ old ∈ w.spans, old.tracingId = sp.tracingId ∧ old.record = sp.record) ∨
      Issued w.cache sp := by
  rcases List.mem_append.mp hsp with hold | hnew
  · exact Or.inl ⟨sp, hold, rfl, rfl⟩
  · rw [List.mem_singleton.mp hnew]
    exact Or.inr hid

/-- INTERNAL: closing marks one of the ids given out. -/
theorem mem_modify_closed (spans : List Returned) (n : ℕ) (sp : Returned)
    (hsp : sp ∈ spans.modify n fun sp => { sp with closed := true }) :
    ∃ old ∈ spans, old.tracingId = sp.tracingId ∧ old.record = sp.record := by
  obtain ⟨i, hi⟩ := List.mem_iff_getElem?.mp hsp
  rw [List.getElem?_modify] at hi
  obtain ⟨old, hold, heq⟩ := Option.map_eq_some_iff.mp hi
  refine ⟨old, List.mem_of_getElem? hold, ?_⟩
  rw [← heq]
  split
  · exact ⟨rfl, rfl⟩
  · exact ⟨rfl, rfl⟩

omit [DecidableEq T] in
/-- INTERNAL: marking a span closed adds none. -/
theorem markClosed_frame (w w' : World T) (n : ℕ) (hsame : w'.spans = w.spans) (sp : Returned)
    (hsp : sp ∈ (w'.markClosed n).spans) :
    (∃ old ∈ w.spans, old.tracingId = sp.tracingId ∧ old.record = sp.record) ∨
      Issued w.cache sp := by
  obtain ⟨old, hold, heq⟩ := mem_modify_closed w'.spans n sp hsp
  exact Or.inl ⟨old, hsame ▸ hold, heq⟩

/-- INTERNAL: **moves keep a world well-placed**. -/
theorem Placed.move (w w' : World T) (h : Placed w) (a : CacheStep T) (hmove : Move w a w') :
    Placed w' := by
  have hrefl := sameLayout_refl w.cache
  have hold : ∀ sp ∈ w.spans,
      (∃ old ∈ w.spans, old.tracingId = sp.tracingId ∧ old.record = sp.record) ∨
        Issued w.cache sp :=
    fun sp hsp => Or.inl ⟨sp, hsp, rfl, rfl⟩
  have hsame : ∀ t, w.call t = w.call t ∨ CallInRange w.cache (w.call t) := fun t => Or.inl rfl
  cases hmove with
  | drop => exact h
  | reject _ t hcall =>
    exact h.of_frame w _ h.shape hrefl (setCall_frame w t .idle w.cache trivial)
      (giveOut_frame w t disabledId none rfl)
  | resolve _ t o =>
    exact h.of_frame w _ h.shape hrefl (setCall_frame w t (.resolved o) w.cache trivial) hold
  | accept _ t o =>
    exact h.of_frame w _ h.shape hrefl (setCall_frame w t (.enabled o) w.cache trivial) hold
  | reserve _ t o => exact h.of_frame w _ h.shape hrefl hsame hold
  | build _ t o id now =>
    exact h.of_frame w _ h.shape hrefl (setCall_frame w t (.built o _) w.cache trivial) hold
  | pick _ t o r shard key keys _ hshard =>
    exact h.of_frame w _ h.shape hrefl (setCall_frame w t (.picked o r shard) w.cache hshard) hold
  | insert _ t o r slot c' _ hshape hlayout hslot =>
    exact h.of_frame w _ hshape hlayout
      (setCall_frame w t (.inserted r slot.1 slot.2) w.cache hslot) hold
  | store _ t r slot c' hcall hshape hlayout =>
    have hslot : InRange w.cache slot := by
      have hrange := h.calls t
      rw [hcall] at hrange
      exact hrange
    exact h.of_frame w _ hshape hlayout
      (setCall_frame w t (.stored r slot.1 slot.2) w.cache hslot) hold
  | finish _ t r slot hcall =>
    have hslot : InRange w.cache slot := by
      have hrange := h.calls t
      rw [hcall] at hrange
      exact hrange
    exact h.of_frame w _ h.shape hrefl (setCall_frame w t .idle w.cache trivial)
      (giveOut_frame w t _ (some r) ⟨slot, hslot, rfl⟩)
  | enter _ t sp entry => exact h.of_frame w _ h.shape hrefl hsame hold
  | exit _ t => exact h.of_frame w _ h.shape hrefl hsame hold
  | event _ call t msg => exact h.of_frame w _ h.shape hrefl hsame hold
  | closeDisabled t n now sp hsp =>
    exact h.of_frame w _ h.shape hrefl hsame (markClosed_frame w w n rfl)
  | close t n now sp slot c' _ _ hshape hlayout =>
    exact h.of_frame w _ hshape hlayout hsame (markClosed_frame w _ n rfl)

/-- INTERNAL: no move changes the layout of the cache. -/
theorem Move.sameLayout (w w' : World T) (a : CacheStep T) (hmove : Move w a w') :
    SameLayout w.cache w'.cache := by
  cases hmove with
  | insert _ _ _ _ _ _ _ _ hlayout => exact hlayout
  | store _ _ _ _ _ _ _ hlayout => exact hlayout
  | close _ _ _ _ _ _ _ _ _ hlayout => exact hlayout
  | _ => exact sameLayout_refl w.cache

/-! ## What threads and ids own -/

section Owners

variable {X : Type} (f : Call → Option X) (g : Returned → Option X)

/-- INTERNAL: a table over the threads, read off their calls, and over the ids returned. -/
def perOwner (w : World T) : T ⊕ ℕ → Option X
  | .inl t => f (w.call t)
  | .inr n => (w.spans[n]?).bind g

omit [DecidableEq T] in
/-- INTERNAL: a sum over the owners is one over the calls and the spans. -/
theorem perOwner_congr (w w' : World T) (hcall : w'.call = w.call) (hspans : w'.spans = w.spans) :
    perOwner f g w' = perOwner f g w := by
  funext o
  cases o with
  | inl t => rw [perOwner, perOwner, hcall]
  | inr n => rw [perOwner, perOwner, hspans]

/-- INTERNAL: a thread goes on. -/
theorem perOwner_setCall (w : World T) (t : T) (call : Call) :
    perOwner f g (w.setCall t call) = Function.update (perOwner f g w) (.inl t) (f call) := by
  funext o
  cases o with
  | inl u =>
    rw [perOwner, setCall_call]
    by_cases hu : u = t
    · subst hu
      rw [if_pos rfl, Function.update_self]
    · rw [if_neg hu, Function.update_of_ne fun heq => hu (Sum.inl.inj heq)]
      rfl
  | inr n =>
    rw [Function.update_of_ne Sum.inr_ne_inl]
    rfl

/-- INTERNAL: a thread goes on and owns what it owned. -/
theorem perOwner_setCall_same (w : World T) (t : T) (call : Call) (hcall : f call = f (w.call t)) :
    perOwner f g (w.setCall t call) = perOwner f g w := by
  rw [perOwner_setCall, hcall]
  exact Function.update_eq_self (.inl t) (perOwner f g w)

/-- INTERNAL: a call returns an id. -/
theorem perOwner_giveOut (w : World T) (t : T) (id : ℕ) (r : Option SpanRecord) :
    perOwner f g (w.giveOut t id r) =
      Function.update (Function.update (perOwner f g w) (.inl t) (f .idle))
        (.inr w.spans.length) (g { tracingId := id, record := r, closed := false }) := by
  funext o
  cases o with
  | inl u =>
    rw [Function.update_of_ne Sum.inl_ne_inr]
    exact congrFun (perOwner_setCall f g w t .idle) (.inl u)
  | inr n =>
    show ((w.spans ++ [_])[n]?).bind g = _
    by_cases hn : n = w.spans.length
    · subst hn
      rw [Function.update_self, List.getElem?_concat_length, Option.bind_some]
    · rw [Function.update_of_ne fun heq => hn (Sum.inr.inj heq),
        Function.update_of_ne Sum.inr_ne_inl,
        perOwner]
      by_cases hlt : n < w.spans.length
      · rw [List.getElem?_append_left hlt]
      · rw [List.getElem?_eq_none (by simp; omega), List.getElem?_eq_none (by omega)]

omit [DecidableEq T] in
/-- INTERNAL: past the last id there is none to own anything. -/
theorem perOwner_length (w : World T) : perOwner f g w (.inr w.spans.length) = none := by
  rw [perOwner, List.getElem?_eq_none (le_refl _)]
  rfl

/-- INTERNAL: a call that owns nothing returns an id that owns nothing. -/
theorem perOwner_giveOut_same (w : World T) (t : T) (id : ℕ) (r : Option SpanRecord)
    (hcall : f (w.call t) = f .idle)
    (hid : g { tracingId := id, record := r, closed := false } = none) :
    perOwner f g (w.giveOut t id r) = perOwner f g w := by
  rw [perOwner_giveOut, hid, ← hcall, ← perOwner_length f g w]
  have hself : Function.update (perOwner f g w) (.inl t) (f (w.call t)) = perOwner f g w :=
    Function.update_eq_self (.inl t) (perOwner f g w)
  rw [hself]
  exact Function.update_eq_self (.inr w.spans.length) (perOwner f g w)

omit [DecidableEq T] in
/-- INTERNAL: one span is marked. -/
theorem getElem?_markClosed (w : World T) (n m : ℕ) :
    (w.markClosed n).spans[m]? =
      if m = n then (w.spans[m]?).map fun sp => { sp with closed := true } else w.spans[m]? := by
  show (w.spans.modify n _)[m]? = _
  rw [List.getElem?_modify]
  by_cases h : m = n
  · simp [h]
  · rw [if_neg h]
    cases w.spans[m]? <;> simp [Ne.symm h]

/-- INTERNAL: an id is closed; `rest` is what it owns then. -/
theorem perOwner_markClosed (w : World T) (n : ℕ) (rest : Option X)
    (hrest : ∀ sp ∈ w.spans[n]?, g { sp with closed := true } = rest) (hn : n < w.spans.length) :
    perOwner f g (w.markClosed n) = Function.update (perOwner f g w) (.inr n) rest := by
  funext o
  cases o with
  | inl t =>
    rw [Function.update_of_ne Sum.inl_ne_inr]
    rfl
  | inr m =>
    show ((w.markClosed n).spans[m]?).bind g = _
    rw [getElem?_markClosed]
    by_cases hm : m = n
    · subst hm
      have hget := List.getElem?_eq_getElem hn
      rw [if_pos rfl, Function.update_self, hget, Option.map_some, Option.bind_some]
      exact hrest _ hget
    · rw [if_neg hm, Function.update_of_ne fun heq => hm (Sum.inr.inj heq)]
      rfl

end Owners

end TracingConsole.Analysis
