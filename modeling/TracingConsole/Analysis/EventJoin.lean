import TracingConsole.Model.Driver

/-!
# Conservation of events

Every event the driver has received is in one place: on the span it belongs to, in the side
buffer, or in a bucket that was discarded.  For each parent id this is one equation between
lists, `received = discarded ++ parked`, and a span that takes the parked events moves the
equation to the events received after it.
-/

set_option autoImplicit false

namespace TracingConsole.Analysis

open Std (ExtTreeMap)
open TracingConsole.Library TracingConsole.Model TracingConsole.Model.Driver

/-! ## The events of one parent -/

/-- INTERNAL: the events received for a parent, oldest first. -/
def eventsFor (parent : ℕ) (received : List EventMessage) : List EventRecord :=
  (received.filter fun msg => msg.parentActualId = parent).map fun msg => msg.record

/-- INTERNAL: the events of the discarded buckets of a parent, oldest first. -/
def discardedFor (parent : ℕ) (discarded : List (ℕ × List EventRecord)) : List EventRecord :=
  (discarded.filter fun bucket => bucket.1 = parent).flatMap fun bucket => bucket.2

/-- INTERNAL: the events parked for a parent. -/
def parkedFor (parent : ℕ) (side : SideEvents) : List EventRecord :=
  (side[parent]?).getD []

/-- INTERNAL: the spans of the batches, in order. -/
def spansOf (batches : List DriverBatch) : List SpanRecord :=
  batches.flatMap fun batch =>
    match batch with
    | .events _ => []
    | .spans batch => batch

/-- INTERNAL: the events of the batches, in order. -/
def eventsOf (batches : List DriverBatch) : List EventMessage :=
  batches.flatMap fun batch =>
    match batch with
    | .events batch => batch
    | .spans _ => []

/-- INTERNAL: the events for a span, in two batches. -/
theorem eventsFor_append (parent : ℕ) (l₁ l₂ : List EventMessage) :
    eventsFor parent (l₁ ++ l₂) = eventsFor parent l₁ ++ eventsFor parent l₂ := by
  simp [eventsFor]

/-- INTERNAL: the events for a span, in one message. -/
theorem eventsFor_single (parent : ℕ) (msg : EventMessage) :
    eventsFor parent [msg] = if msg.parentActualId = parent then [msg.record] else [] := by
  by_cases h : msg.parentActualId = parent <;> simp [eventsFor, h]

/-- INTERNAL: the events thrown away for a span, in two lists. -/
theorem discardedFor_append (parent : ℕ) (l₁ l₂ : List (ℕ × List EventRecord)) :
    discardedFor parent (l₁ ++ l₂) = discardedFor parent l₁ ++ discardedFor parent l₂ := by
  simp [discardedFor]

/-- INTERNAL: the events thrown away for a span, in one bucket. -/
theorem discardedFor_single (parent : ℕ) (bucket : ℕ × List EventRecord) :
    discardedFor parent [bucket] = if bucket.1 = parent then bucket.2 else [] := by
  by_cases h : bucket.1 = parent <;> simp [discardedFor, h]

/-- INTERNAL: what is parked for a span after a bucket is written. -/
theorem parkedFor_insert (parent key : ℕ) (side : SideEvents) (events : List EventRecord) :
    parkedFor parent (side.insert key events) =
      if parent = key then events else parkedFor parent side := by
  unfold parkedFor
  rw [getElem?_insert_eq]
  split <;> rfl

/-- INTERNAL: what is parked for a span after a bucket is taken. -/
theorem parkedFor_erase (parent key : ℕ) (side : SideEvents) :
    parkedFor parent (side.erase key) = if parent = key then [] else parkedFor parent side := by
  unfold parkedFor
  rw [getElem?_erase_eq]
  split <;> rfl

/-! ## One event -/

/-- INTERNAL: making room discards a whole bucket and touches no other one. -/
theorem makeRoom_spec (capacity : ℕ) (side : SideEvents) (msg : EventMessage) (parent : ℕ)
    (hnew : side[msg.parentActualId]? = none) :
    discardedFor parent (evictedBy capacity side msg).toList ++
      parkedFor parent (makeRoom side capacity) = parkedFor parent side := by
  simp only [evictedBy, hnew, makeRoom]
  by_cases hfull : capacity ≤ side.size
  · rw [if_pos hfull, if_pos hfull]
    cases hpop : popFirst side with
    | none => rfl
    | some entry =>
      obtain ⟨key, events, rest⟩ := entry
      have hrest := popFirst_eq_some side rest key events hpop
      have hkey : parkedFor key side = events := by
        unfold parkedFor
        rw [hrest.1]
        rfl
      simp only [Option.map_some, Option.toList_some]
      rw [hrest.2.1, discardedFor_single, parkedFor_erase]
      by_cases hparent : key = parent
      · rw [if_pos hparent, if_pos hparent.symm, List.append_nil, ← hkey, hparent]
      · rw [if_neg hparent, if_neg (Ne.symm hparent)]
        rfl
  · rw [if_neg hfull, if_neg hfull]
    rfl

/-- INTERNAL: a parent that is new stays new when room is made. -/
theorem makeRoom_none (capacity : ℕ) (side : SideEvents) (parent : ℕ)
    (hnew : side[parent]? = none) : (makeRoom side capacity)[parent]? = none := by
  unfold makeRoom
  split
  · cases hpop : popFirst side with
    | none => exact hnew
    | some entry =>
      obtain ⟨key, events, rest⟩ := entry
      show rest[parent]? = none
      rw [(popFirst_eq_some side rest key events hpop).2.1, getElem?_erase_eq, hnew]
      split <;> rfl
  · exact hnew

/-- INTERNAL: **one event is conserved**: what is discarded for it and what is parked after it
are what was parked before and the event. -/
theorem parkEvent_conserves (capacity : ℕ) (side : SideEvents) (msg : EventMessage) (parent : ℕ) :
    discardedFor parent (evictedBy capacity side msg).toList ++
        parkedFor parent (parkEvent capacity side msg) =
      parkedFor parent side ++ eventsFor parent [msg] := by
  rw [eventsFor_single]
  cases hside : side[msg.parentActualId]? with
  | some events =>
    have hkept : parkedFor msg.parentActualId side = events := by
      unfold parkedFor
      rw [hside]
      rfl
    simp only [evictedBy, hside, parkEvent, Option.toList_none]
    rw [parkedFor_insert]
    by_cases hparent : msg.parentActualId = parent
    · rw [if_pos hparent.symm, if_pos hparent, ← hparent, hkept]
      rfl
    · rw [if_neg (Ne.symm hparent), if_neg hparent, List.append_nil]
      rfl
  | none =>
    have hroom := makeRoom_spec capacity side msg parent hside
    have hpark : parkEvent capacity side msg =
        (makeRoom side capacity).insert msg.parentActualId [msg.record] := by
      simp only [parkEvent, hside]
    rw [hpark, parkedFor_insert]
    by_cases hparent : msg.parentActualId = parent
    · have hnone : parkedFor parent (makeRoom side capacity) = [] := by
        unfold parkedFor
        rw [makeRoom_none capacity side parent (hparent ▸ hside)]
        rfl
      rw [hnone, List.append_nil] at hroom
      rw [if_pos hparent.symm, if_pos hparent, hroom]
    · rw [if_neg (Ne.symm hparent), if_neg hparent, List.append_nil, hroom]

/-- INTERNAL: the buffer after making room has a place left, unless its capacity is zero. -/
theorem makeRoom_size (capacity : ℕ) (side : SideEvents) (hbound : side.size ≤ max 1 capacity) :
    (makeRoom side capacity).size + 1 ≤ max 1 capacity := by
  unfold makeRoom
  by_cases hfull : capacity ≤ side.size
  · rw [if_pos hfull]
    cases hpop : popFirst side with
    | none =>
      have hempty := (popFirst_eq_none side).mp hpop
      show side.size + 1 ≤ max 1 capacity
      rw [hempty]
      simp
    | some entry =>
      obtain ⟨key, events, rest⟩ := entry
      have hrest := popFirst_eq_some side rest key events hpop
      show rest.size + 1 ≤ max 1 capacity
      have hmem : key ∈ side := ExtTreeMap.isSome_getElem?_iff_mem.mp (by simp [hrest.1])
      have hpos : 0 < side.size := by
        rw [Nat.pos_iff_ne_zero]
        intro hzero
        have hempty := ExtTreeMap.eq_empty_iff_size_eq_zero.mpr hzero
        rw [hempty] at hmem
        simp at hmem
      rw [hrest.2.1, ExtTreeMap.size_erase, if_pos (ExtTreeMap.contains_iff_mem.mpr hmem)]
      omega
  · rw [if_neg hfull]
    omega

/-- INTERNAL: the buffer never holds more than `max 1 capacity` parents. -/
theorem parkEvent_size (capacity : ℕ) (side : SideEvents) (msg : EventMessage)
    (hbound : side.size ≤ max 1 capacity) :
    (parkEvent capacity side msg).size ≤ max 1 capacity := by
  cases hside : side[msg.parentActualId]? with
  | some events =>
    simp only [parkEvent, hside]
    have hmem : msg.parentActualId ∈ side :=
      ExtTreeMap.isSome_getElem?_iff_mem.mp (by simp [hside])
    rw [ExtTreeMap.size_insert, if_pos (ExtTreeMap.contains_iff_mem.mpr hmem)]
    exact hbound
  | none =>
    simp only [parkEvent, hside]
    have hroom := makeRoom_size capacity side hbound
    rw [ExtTreeMap.size_insert]
    split <;> omega

/-- INTERNAL: a bucket that is gone after an event was the evicted one, the event's parent was
new and the buffer was full. -/
theorem parkEvent_keeps (capacity : ℕ) (side : SideEvents) (msg : EventMessage) (parent : ℕ)
    (hgone : (parkEvent capacity side msg)[parent]? = none) :
    side[parent]? = none ∨
      (side[msg.parentActualId]? = none ∧ capacity ≤ side.size ∧
        evictedBy capacity side msg = some (parent, parkedFor parent side)) := by
  cases hparent : side[parent]? with
  | none => exact Or.inl rfl
  | some bucket =>
    refine Or.inr ?_
    cases hside : side[msg.parentActualId]? with
    | some events =>
      simp only [parkEvent, hside, getElem?_insert_eq] at hgone
      split at hgone
      · cases hgone
      · rw [hparent] at hgone
        cases hgone
    | none =>
      simp only [parkEvent, hside, getElem?_insert_eq] at hgone
      split at hgone
      · cases hgone
      · unfold makeRoom at hgone
        by_cases hfull : capacity ≤ side.size
        · rw [if_pos hfull] at hgone
          refine ⟨rfl, hfull, ?_⟩
          simp only [evictedBy, hside, if_pos hfull]
          cases hpop : popFirst side with
          | none =>
            rw [hpop, hparent] at hgone
            cases hgone
          | some entry =>
            obtain ⟨key, events, rest⟩ := entry
            have hrest := popFirst_eq_some side rest key events hpop
            simp only [hpop] at hgone
            rw [hrest.2.1, getElem?_erase_eq] at hgone
            split at hgone
            · next heq =>
              have hevents : parkedFor parent side = events := by
                unfold parkedFor
                rw [heq, hrest.1]
                rfl
              rw [hevents, heq]
              rfl
            · rw [hparent] at hgone
              cases hgone
        · rw [if_neg hfull, hparent] at hgone
          cases hgone

/-! ## One span -/

/-- INTERNAL: a span with the events parked for it. -/
def joinedSpan (side : SideEvents) (span : SpanRecord) : SpanRecord :=
  { span with events := span.events ++ parkedFor span.id side }

/-- INTERNAL: a span takes its bucket, with or without the early test of an empty buffer. -/
theorem attachParked_eq (anySide : Bool) (side : SideEvents) (span : SpanRecord)
    (hany : anySide = false → side = ∅) :
    attachParked anySide side span = (side.erase span.id, joinedSpan side span) := by
  have hkeep (hnone : side[span.id]? = none) :
      (side, span) = (side.erase span.id, joinedSpan side span) := by
    rw [erase_of_none side span.id hnone]
    simp [joinedSpan, parkedFor, hnone]
  unfold attachParked
  cases anySide with
  | false =>
    rw [if_neg Bool.false_ne_true]
    refine hkeep ?_
    rw [hany rfl]
    simp
  | true =>
    rw [if_pos rfl]
    cases hside : side[span.id]? with
    | some events => simp [joinedSpan, parkedFor, hside]
    | none => exact hkeep hside

/-- INTERNAL: the spans of a batch one after the other. -/
def joinedSpans : SideEvents → List SpanRecord → List SpanRecord
  | _, [] => []
  | side, span :: batch => joinedSpan side span :: joinedSpans (side.erase span.id) batch

/-- INTERNAL: the buffer after a batch of spans. -/
def sideAfter (side : SideEvents) (batch : List SpanRecord) : SideEvents :=
  batch.foldl (fun side span => side.erase span.id) side

/-- INTERNAL: the loop over a span batch takes its spans one after the other. -/
theorem prepareSpans_fold (anySide : Bool) (side : SideEvents) (done batch : List SpanRecord)
    (hany : anySide = false → side = ∅) :
    batch.foldl
        (fun (acc : SideEvents × List SpanRecord) span =>
          ((attachParked anySide acc.1 span).1, acc.2 ++ [(attachParked anySide acc.1 span).2]))
        (side, done) =
      (sideAfter side batch, done ++ joinedSpans side batch) := by
  induction batch generalizing side done with
  | nil => simp [sideAfter, joinedSpans]
  | cons span batch ih =>
    have hnext : anySide = false → side.erase span.id = ∅ := fun h => by simp [hany h]
    rw [List.foldl_cons, attachParked_eq anySide side span hany, ih _ _ hnext]
    simp [sideAfter, joinedSpans]

/-- INTERNAL: a batch of spans takes what is parked for each. -/
theorem prepareSpans_eq (side : SideEvents) (batch : List SpanRecord) :
    prepareSpans side batch = (sideAfter side batch, joinedSpans side batch) := by
  unfold prepareSpans
  rw [prepareSpans_fold _ side [] batch]
  · rfl
  · intro h
    simpa using h

/-! ## Batches -/

/-- INTERNAL: the history entry of a span. -/
def EventJoin.entry (s : EventJoin) (span : SpanRecord) : Joined where
  arrived := span
  sent := joinedSpan s.side span
  received := s.received.length
  discarded := s.discarded.length

/-- INTERNAL: the driver after one event. -/
def EventJoin.takeEvent (capacity : ℕ) (s : EventJoin) (msg : EventMessage) : EventJoin :=
  { s with
    side := parkEvent capacity s.side msg
    received := s.received ++ [msg]
    discarded := s.discarded ++ (evictedBy capacity s.side msg).toList }

/-- INTERNAL: the driver after one span. -/
def EventJoin.takeSpan (s : EventJoin) (span : SpanRecord) : EventJoin :=
  { s with
    side := s.side.erase span.id
    joined := s.joined ++ [EventJoin.entry s span]
    fannedOut := s.fannedOut ++ [joinedSpan s.side span] }

/-- INTERNAL: a batch of events is taken one by one. -/
theorem flush_events (capacity : ℕ) (s : EventJoin) (batch : List EventMessage) :
    EventJoin.flush capacity s (.events batch) =
      batch.foldl (EventJoin.takeEvent capacity) s := by
  have hfold : Driver.flushEventBatch s.side capacity batch =
      batch.foldl (parkEvent capacity) s.side := by
    cases batch <;> rfl
  simp only [EventJoin.flush, hfold]
  clear hfold
  induction batch generalizing s with
  | nil => simp [discardedBy]
  | cons msg batch ih =>
    rw [List.foldl_cons, List.foldl_cons, ← ih]
    simp [EventJoin.takeEvent, discardedBy]

/-- INTERNAL: what a span batch does, the empty one too. -/
theorem flushSpanBatch_eq (full : ℕ → Bool) (side : SideEvents) (subs : List Subscriber)
    (batch : List SpanRecord) :
    flushSpanBatch full side subs batch =
      (sideAfter side batch, fanoutUnderLock full subs (joinedSpans side batch),
        joinedSpans side batch) := by
  cases batch with
  | nil => rfl
  | cons span batch =>
    simp only [flushSpanBatch, List.isEmpty_cons, Bool.false_eq_true, if_false, prepareSpans_eq]

/-- INTERNAL: a batch of spans goes out with its events. -/
theorem fannedOut_flush_spans (capacity : ℕ) (s : EventJoin) (batch : List SpanRecord) :
    (EventJoin.flush capacity s (.spans batch)).fannedOut =
      s.fannedOut ++ joinedSpans s.side batch := by
  simp only [EventJoin.flush, flushSpanBatch_eq]

/-- INTERNAL: a batch of spans is taken one by one. -/
theorem flush_spans (capacity : ℕ) (s : EventJoin) (batch : List SpanRecord) :
    EventJoin.flush capacity s (.spans batch) = batch.foldl EventJoin.takeSpan s := by
  simp only [EventJoin.flush, flushSpanBatch_eq]
  induction batch generalizing s with
  | nil => simp [sideAfter, joinedSpans]
  | cons span batch ih =>
    rw [List.foldl_cons, ← ih]
    simp [EventJoin.takeSpan, EventJoin.entry, sideAfter, joinedSpans]

/-! ## The invariant -/

/-- INTERNAL: the state of the join after any batches: the events of an open parent are
discarded or parked; those of a joined span are discarded, attached to it, or came later. -/
structure Conserved (capacity : ℕ) (s : EventJoin) : Prop where
  unjoined : ∀ parent, (∀ j ∈ s.joined, j.arrived.id ≠ parent) →
    eventsFor parent s.received =
      discardedFor parent s.discarded ++ parkedFor parent s.side
  attached : ∀ j ∈ s.joined, ∃ attached,
    j.sent = { j.arrived with events := j.arrived.events ++ attached } ∧
    eventsFor j.arrived.id (s.received.take j.received) =
      discardedFor j.arrived.id (s.discarded.take j.discarded) ++ attached ∧
    eventsFor j.arrived.id (s.received.drop j.received) =
      discardedFor j.arrived.id (s.discarded.drop j.discarded) ++ parkedFor j.arrived.id s.side
  past : ∀ j ∈ s.joined,
    j.received ≤ s.received.length ∧ j.discarded ≤ s.discarded.length
  sideBound : s.side.size ≤ max 1 capacity

/-- INTERNAL: nothing is lost before anything has come. -/
theorem conserved_new (capacity : ℕ) : Conserved capacity EventJoin.new where
  unjoined := fun parent _ => by simp [EventJoin.new, eventsFor, discardedFor, parkedFor]
  attached := fun j hj => by simp [EventJoin.new] at hj
  past := fun j hj => by simp [EventJoin.new] at hj
  sideBound := by simp [EventJoin.new]

/-- INTERNAL: an event keeps the invariant. -/
theorem Conserved.takeEvent (capacity : ℕ) (s : EventJoin) (msg : EventMessage)
    (h : Conserved capacity s) : Conserved capacity (EventJoin.takeEvent capacity s msg) where
  unjoined := fun parent hopen => by
    have hone := parkEvent_conserves capacity s.side msg parent
    have hbefore := h.unjoined parent hopen
    simp only [EventJoin.takeEvent]
    rw [eventsFor_append, discardedFor_append, hbefore, List.append_assoc, List.append_assoc, hone]
  attached := fun j hj => by
    have hj : j ∈ s.joined := hj
    obtain ⟨attached, hsent, hbefore, hafter⟩ := h.attached j hj
    have hpast := h.past j hj
    have hone := parkEvent_conserves capacity s.side msg j.arrived.id
    refine ⟨attached, hsent, ?_, ?_⟩
    · simp only [EventJoin.takeEvent]
      rw [List.take_append_of_le_length hpast.1, List.take_append_of_le_length hpast.2]
      exact hbefore
    · simp only [EventJoin.takeEvent]
      rw [List.drop_append_of_le_length hpast.1, List.drop_append_of_le_length hpast.2,
        eventsFor_append, discardedFor_append, hafter, List.append_assoc, List.append_assoc, hone]
  past := fun j hj => by
    have hpast := h.past j hj
    simp only [EventJoin.takeEvent, List.length_append]
    omega
  sideBound := parkEvent_size capacity s.side msg h.sideBound

/-- INTERNAL: a span with a new id keeps the invariant. -/
theorem Conserved.takeSpan (capacity : ℕ) (s : EventJoin) (span : SpanRecord)
    (h : Conserved capacity s) (hnew : ∀ j ∈ s.joined, j.arrived.id ≠ span.id) :
    Conserved capacity (EventJoin.takeSpan s span) where
  unjoined := fun parent hopen => by
    have hother : parent ≠ span.id := by
      have hlast := hopen (EventJoin.entry s span) (by simp [EventJoin.takeSpan])
      exact fun heq => hlast heq.symm
    have hbefore := h.unjoined parent fun j hj => hopen j (by simp [EventJoin.takeSpan, hj])
    simp only [EventJoin.takeSpan]
    rw [parkedFor_erase, if_neg hother]
    exact hbefore
  attached := fun j hj => by
    simp only [EventJoin.takeSpan, List.mem_append, List.mem_singleton] at hj
    cases hj with
    | inl hj =>
      obtain ⟨attached, hsent, hbefore, hafter⟩ := h.attached j hj
      refine ⟨attached, hsent, hbefore, ?_⟩
      simp only [EventJoin.takeSpan]
      rw [parkedFor_erase, if_neg (hnew j hj)]
      exact hafter
    | inr hj =>
      subst hj
      -- the bucket of the span moves onto it; nothing has been received after it yet
      refine ⟨parkedFor span.id s.side, rfl, ?_, ?_⟩
      · simp only [EventJoin.takeSpan, EventJoin.entry, List.take_length]
        exact h.unjoined span.id hnew
      · simp only [EventJoin.takeSpan, EventJoin.entry, List.drop_length]
        rw [parkedFor_erase, if_pos rfl]
        rfl
  past := fun j hj => by
    simp only [EventJoin.takeSpan, List.mem_append, List.mem_singleton] at hj
    cases hj with
    | inl hj => exact h.past j hj
    | inr hj => subst hj; exact ⟨Nat.le_refl _, Nat.le_refl _⟩
  sideBound := by
    have hsize : (s.side.erase span.id).size ≤ s.side.size := by
      rw [ExtTreeMap.size_erase]
      split <;> omega
    exact Nat.le_trans hsize h.sideBound

/-- INTERNAL: events join no span by themselves. -/
theorem joined_takeEvents (capacity : ℕ) (s : EventJoin) (batch : List EventMessage) :
    (batch.foldl (EventJoin.takeEvent capacity) s).joined = s.joined := by
  induction batch generalizing s with
  | nil => rfl
  | cons msg batch ih => rw [List.foldl_cons, ih]; rfl

/-- INTERNAL: the spans join in the order in which they came. -/
theorem arrived_takeSpans (s : EventJoin) (batch : List SpanRecord) :
    ((batch.foldl EventJoin.takeSpan s).joined.map fun j => j.arrived) =
      (s.joined.map fun j => j.arrived) ++ batch := by
  induction batch generalizing s with
  | nil => simp
  | cons span batch ih =>
    rw [List.foldl_cons, ih]
    simp [EventJoin.takeSpan, EventJoin.entry]

/-- INTERNAL: a batch of events loses none. -/
theorem Conserved.takeEvents (capacity : ℕ) (s : EventJoin) (batch : List EventMessage)
    (h : Conserved capacity s) :
    Conserved capacity (batch.foldl (EventJoin.takeEvent capacity) s) := by
  induction batch generalizing s with
  | nil => exact h
  | cons msg batch ih => exact ih _ (h.takeEvent capacity s msg)

/-- INTERNAL: a batch of spans loses no event. -/
theorem Conserved.takeSpans (capacity : ℕ) (s : EventJoin) (batch : List SpanRecord)
    (h : Conserved capacity s)
    (hnew : (((s.joined.map fun j => j.arrived) ++ batch).map fun span => span.id).Nodup) :
    Conserved capacity (batch.foldl EventJoin.takeSpan s) := by
  induction batch generalizing s with
  | nil => exact h
  | cons span batch ih =>
    have hfirst : ∀ j ∈ s.joined, j.arrived.id ≠ span.id := by
      intro j hj heq
      rw [List.map_append, List.nodup_append] at hnew
      exact hnew.2.2 j.arrived.id (List.mem_map_of_mem (List.mem_map_of_mem hj)) span.id (by simp)
        heq
    refine ih _ (h.takeSpan capacity s span hfirst) ?_
    simpa [EventJoin.takeSpan, EventJoin.entry] using hnew

/-- INTERNAL: any batches whose spans are new keep the invariant. -/
theorem Conserved.flushAll (capacity : ℕ) (s : EventJoin) (batches : List DriverBatch)
    (h : Conserved capacity s)
    (hnew : (((s.joined.map fun j => j.arrived) ++ spansOf batches).map fun span => span.id).Nodup) :
    Conserved capacity (batches.foldl (EventJoin.flush capacity) s) := by
  induction batches generalizing s with
  | nil => exact h
  | cons batch batches ih =>
    rw [List.foldl_cons]
    cases batch with
    | events batch =>
      rw [flush_events]
      refine ih _ (h.takeEvents capacity s batch) ?_
      rw [joined_takeEvents]
      exact hnew
    | spans batch =>
      have hsplit : spansOf (.spans batch :: batches) = batch ++ spansOf batches := rfl
      rw [hsplit, ← List.append_assoc] at hnew
      rw [flush_spans]
      refine ih _ (h.takeSpans capacity s batch ?_) ?_
      · rw [List.map_append] at hnew
        exact hnew.of_append_left
      · rw [arrived_takeSpans]
        exact hnew

/-! ## Order -/

/-- INTERNAL: a batch adds what it holds at the end. -/
theorem flush_order (capacity : ℕ) (s : EventJoin) (batch : DriverBatch) :
    (EventJoin.flush capacity s batch).received = s.received ++ eventsOf [batch] ∧
    ((EventJoin.flush capacity s batch).joined.map fun j => j.arrived) =
      (s.joined.map fun j => j.arrived) ++ spansOf [batch] ∧
    (s.fannedOut = (s.joined.map fun j => j.sent) →
      (EventJoin.flush capacity s batch).fannedOut =
        (EventJoin.flush capacity s batch).joined.map fun j => j.sent) := by
  cases batch with
  | events batch =>
    exact ⟨by simp [EventJoin.flush, eventsOf], by simp [EventJoin.flush, spansOf], id⟩
  | spans batch =>
    refine ⟨by simp [EventJoin.flush, eventsOf], ?_, ?_⟩
    · rw [flush_spans, arrived_takeSpans]
      simp [spansOf]
    · intro hsent
      rw [flush_spans]
      induction batch generalizing s with
      | nil => exact hsent
      | cons span batch ih =>
        rw [List.foldl_cons]
        refine ih (EventJoin.takeSpan s span) ?_
        simp [EventJoin.takeSpan, EventJoin.entry, hsent]

/-- INTERNAL: so do all batches. -/
theorem flushAll_order (capacity : ℕ) (s : EventJoin) (batches : List DriverBatch)
    (hsent : s.fannedOut = s.joined.map fun j => j.sent) :
    (batches.foldl (EventJoin.flush capacity) s).received = s.received ++ eventsOf batches ∧
    ((batches.foldl (EventJoin.flush capacity) s).joined.map fun j => j.arrived) =
      (s.joined.map fun j => j.arrived) ++ spansOf batches ∧
    (batches.foldl (EventJoin.flush capacity) s).fannedOut =
      (batches.foldl (EventJoin.flush capacity) s).joined.map fun j => j.sent := by
  induction batches generalizing s with
  | nil => simpa [eventsOf, spansOf] using hsent
  | cons batch batches ih =>
    have hone := flush_order capacity s batch
    have hrest := ih (EventJoin.flush capacity s batch) (hone.2.2 hsent)
    rw [List.foldl_cons, hrest.1, hrest.2.1, hone.1, hone.2.1]
    refine ⟨?_, ?_, hrest.2.2⟩ <;> simp [eventsOf, spansOf]

/-- INTERNAL: a span is sent on as it arrived, with events added behind its own. -/
def Joined.OnlyGainsEvents (j : Joined) : Prop :=
  ∃ attached, j.sent = { j.arrived with events := j.arrived.events ++ attached }

/-- INTERNAL: whatever the ids, a batch changes nothing of a span but its events. -/
theorem flush_gains (capacity : ℕ) (s : EventJoin) (batch : DriverBatch)
    (h : ∀ j ∈ s.joined, Joined.OnlyGainsEvents j) :
    ∀ j ∈ (EventJoin.flush capacity s batch).joined, Joined.OnlyGainsEvents j := by
  cases batch with
  | events batch => exact h
  | spans batch =>
    rw [flush_spans]
    induction batch generalizing s with
    | nil => exact h
    | cons span batch ih =>
      refine ih (EventJoin.takeSpan s span) fun j hj => ?_
      cases List.mem_append.mp hj with
      | inl hj => exact h j hj
      | inr hj =>
        rw [List.mem_singleton.mp hj]
        exact ⟨parkedFor span.id s.side, rfl⟩

/-- CODE: driver.rs:115-166 — **the join conserves events**: for any capacity and any sequence
of event and span batches with distinct span ids, the events of a span that has not come are
discarded or parked; a span carries after its own events those received for it before it and
not discarded, in their order; no span is dropped or reordered; the buffer holds at most
`max 1 capacity` parents, and an event removes a bucket only if its parent is new and the buffer
is full. -/
theorem events_conserved (capacity : ℕ) (batches : List DriverBatch)
    (hdistinct : ((spansOf batches).map fun span => span.id).Nodup) :
    Conserved capacity (EventJoin.flushAll capacity batches) ∧
    (EventJoin.flushAll capacity batches).received = eventsOf batches ∧
    ((EventJoin.flushAll capacity batches).joined.map fun j => j.arrived) = spansOf batches ∧
    (EventJoin.flushAll capacity batches).fannedOut =
      ((EventJoin.flushAll capacity batches).joined.map fun j => j.sent) ∧
    (∀ (msg : EventMessage) (parent : ℕ),
      (parkEvent capacity (EventJoin.flushAll capacity batches).side msg)[parent]? = none →
      (EventJoin.flushAll capacity batches).side[parent]? = none ∨
        ((EventJoin.flushAll capacity batches).side[msg.parentActualId]? = none ∧
          capacity ≤ (EventJoin.flushAll capacity batches).side.size ∧
          evictedBy capacity (EventJoin.flushAll capacity batches).side msg =
            some (parent, parkedFor parent (EventJoin.flushAll capacity batches).side))) := by
  have horder := flushAll_order capacity EventJoin.new batches rfl
  have hconserved := (conserved_new capacity).flushAll capacity EventJoin.new batches
    (by simpa [EventJoin.new] using hdistinct)
  refine ⟨hconserved, ?_, ?_, horder.2.2, ?_⟩
  · exact horder.1
  · exact horder.2.1
  · exact fun msg parent hgone => parkEvent_keeps capacity _ msg parent hgone

/-- INTERNAL: two parents in a buffer for one: the first event of span 5 is discarded for span
9, the second one arrives in time. -/
def oneParent : List DriverBatch :=
  let callsite : Metadata := { name := "step", target := "app", level := .info }
  let event (parent at_ : ℕ) : EventMessage :=
    { parentActualId := parent
      record := { metadata := some callsite, fields := [], recordedAt := some at_ } }
  let span (id : ℕ) : SpanRecord :=
    { id := id, parentId := none, metadata := callsite, fields := [], events := [], openedAt := 0,
      closedAt := some 9 }
  [.events [event 5 1], .events [event 9 2], .spans [span 9], .events [event 5 3], .spans [span 5]]

/-- CODE: driver.rs:115-166 — span 9 carries its event, span 5 only the one after the
eviction. -/
theorem events_conserved_one_parent :
    ((EventJoin.flushAll 1 oneParent).fannedOut.map fun span =>
      (span.id, span.events.map fun event => event.recordedAt)) = [(9, [some 2]), (5, [some 3])] ∧
    Conserved 1 (EventJoin.flushAll 1 oneParent) :=
  ⟨rfl, (events_conserved 1 oneParent (by decide)).1⟩

end TracingConsole.Analysis
