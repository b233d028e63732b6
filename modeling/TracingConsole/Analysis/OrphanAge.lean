import TracingConsole.Analysis.EventJoin
import TracingConsole.Analysis.UniqueIds

/-!
# Which orphans are dropped

A full event buffer drops the bucket of the least parent id.  Ids are handed out from batches,
one for each thread, so the least id need not be that of the span opened first: it may be one
that its thread had reserved before and handed out later.  This is the only way the two differ
(`evicts_earliest_iff`).
-/

set_option autoImplicit false

namespace TracingConsole.Analysis

open Std (ExtTreeMap)
open TracingConsole.Library TracingConsole.Model TracingConsole.Model.Driver

variable {T : Type} [DecidableEq T]

/-! ## The order in which spans are opened -/

/-- INTERNAL: the ids of the spans opened, oldest first: a span is opened when its id has been
handed out.
SRCLINE: cache.rs:409-424 -/
def openedIds (schedule : List T) : List ℕ :=
  (Allocation.interleave schedule).returned.map Prod.snd

/-- INTERNAL: **`id` is the parked parent whose span was opened earliest**. -/
def EarliestOpened (schedule : List T) (side : SideEvents) (id : ℕ) : Prop :=
  id ∈ openedIds schedule ∧
    ∀ other ∈ side, other ≠ id →
      (openedIds schedule).idxOf id < (openedIds schedule).idxOf other

/-- INTERNAL: **when `other` was opened, `id` was an unused part of some thread's
reservation**.
SRCLINE: cache.rs:208-226, thread_state.rs:25-33 -/
def ReservedWhenOpened (schedule : List T) (id other : ℕ) : Prop :=
  ∃ before t after, schedule = before ++ t :: after ∧
    ((Allocation.interleave before).ids.advance t).2 = some other ∧
    ∃ u, id ∈ heldIds (Allocation.interleave before).ids u

/-- INTERNAL: more ids are reserved as time goes on. -/
theorem reserved_le (before after : List T) :
    (Allocation.interleave before).reserved ≤
      (Allocation.interleave (before ++ after)).reserved := by
  induction after using List.reverseRecOn with
  | nil => rw [List.append_nil]
  | append_singleton after t ih =>
    rw [← List.append_assoc, interleave_snoc]
    exact ih.trans (reserved_advance _ t)

/-- INTERNAL: one step of a thread, and the span it opens.
SRCLINE: cache.rs:208-226 -/
theorem openedIds_snoc (schedule : List T) (t : T) :
    openedIds (schedule ++ [t]) =
      openedIds schedule ++ ((Allocation.interleave schedule).ids.advance t).2.toList := by
  unfold openedIds
  rw [interleave_snoc, Allocation.advance]
  cases ((Allocation.interleave schedule).ids.advance t) with
  | mk ids result =>
    cases result with
    | none => simp
    | some id => simp

/-- INTERNAL: the spans opened by a part of the steps were opened first. -/
theorem openedIds_prefix (before after : List T) :
    openedIds before <+: openedIds (before ++ after) := by
  induction after using List.reverseRecOn with
  | nil => rw [List.append_nil]
  | append_singleton after t ih =>
    rw [← List.append_assoc, openedIds_snoc]
    exact ih.trans (List.prefix_append _ _)

/-- INTERNAL: every span was opened by some step. -/
theorem exists_opening (schedule : List T) (id : ℕ) (hid : id ∈ openedIds schedule) :
    ∃ before t after, schedule = before ++ t :: after ∧
      ((Allocation.interleave before).ids.advance t).2 = some id := by
  induction schedule using List.reverseRecOn with
  | nil => cases hid
  | append_singleton schedule t ih =>
    rw [openedIds_snoc, List.mem_append] at hid
    rcases hid with hid | hid
    · obtain ⟨before, u, after, rfl, hopen⟩ := ih hid
      exact ⟨before, u, after ++ [t], by simp, hopen⟩
    · rw [Option.mem_toList] at hid
      exact ⟨schedule, t, [], rfl, hid⟩

/-- INTERNAL: a span opened by a step comes right after those opened before the step. -/
theorem idxOf_opened (before after : List T) (t : T) (id : ℕ)
    (hdistinct : (openedIds (before ++ t :: after)).Nodup)
    (hopen : ((Allocation.interleave before).ids.advance t).2 = some id) :
    (openedIds (before ++ t :: after)).idxOf id = (openedIds before).length := by
  have hsnoc : openedIds (before ++ [t]) = openedIds before ++ [id] := by
    rw [openedIds_snoc, hopen]
    rfl
  have hprefix := openedIds_prefix (before ++ [t]) after
  rw [List.append_assoc, List.singleton_append, hsnoc] at hprefix
  obtain ⟨rest, hrest⟩ := hprefix
  rw [← hrest] at hdistinct ⊢
  have hnew : id ∉ openedIds before := by
    rw [List.append_assoc, List.nodup_append] at hdistinct
    intro hin
    exact hdistinct.2.2 id hin id (by simp) rfl
  rw [List.append_assoc, List.idxOf_append_of_notMem hnew]
  simp

/-- INTERNAL: **an id opened after a greater one was reserved all the time**: `id` was opened
after `other > id` exactly when some thread held it when `other` was opened.
SRCLINE: cache.rs:208-226 -/
theorem opened_after_iff (schedule : List T)
    (hlast : (Allocation.interleave schedule).reserved < u64Size) (id other : ℕ)
    (hid : id ∈ openedIds schedule) (hother : other ∈ openedIds schedule) (hlt : id < other) :
    (openedIds schedule).idxOf id < (openedIds schedule).idxOf other ↔
      ¬ ReservedWhenOpened schedule id other := by
  have hdistinct : (openedIds schedule).Nodup := (interleave_sound schedule hlast).2.distinct
  have hbefore : ∀ before t after, schedule = before ++ t :: after →
      (Allocation.interleave before).reserved < u64Size := by
    rintro before t after rfl
    exact lt_of_le_of_lt (reserved_le before (t :: after)) hlast
  have hpos : ∀ before t after, schedule = before ++ t :: after →
      ((Allocation.interleave before).ids.advance t).2 = some other →
      ((openedIds schedule).idxOf id < (openedIds schedule).idxOf other ↔
        id ∈ openedIds before) := by
    rintro before t after rfl hopen
    rw [idxOf_opened before after t other hdistinct hopen]
    obtain ⟨rest, hrest⟩ := openedIds_prefix before (t :: after)
    rw [← hrest]
    constructor
    · intro hless
      by_contra hnot
      rw [List.idxOf_append_of_notMem hnot] at hless
      omega
    · intro hin
      rw [List.idxOf_append_of_mem hin]
      exact List.idxOf_lt_length_of_mem hin
  constructor
  · rintro hless ⟨before, t, after, hsplit, hopen, u, hheld⟩
    -- an id that was handed out is held by nobody
    have hin := (hpos before t after hsplit hopen).mp hless
    obtain ⟨p, hp, hpid⟩ := List.mem_map.mp hin
    have hsound := (interleave_sound before (hbefore before t after hsplit)).2
    exact hsound.fresh u id hheld p hp hpid
  · intro hnot
    obtain ⟨before, t, after, hsplit, hopen⟩ := exists_opening schedule other hother
    have hfits := hbefore before t after hsplit
    refine (hpos before t after hsplit hopen).mpr ?_
    obtain ⟨haligned, hsound⟩ := interleave_sound before hfits
    have hstep : (Allocation.interleave before).advance t =
        Allocation.interleave (before ++ [t]) := (interleave_snoc before t).symm
    have hfits' : ((Allocation.interleave before).advance t).reserved < u64Size := by
      rw [hstep]
      have hle := reserved_le (before ++ [t]) after
      rw [List.append_assoc, List.singleton_append, ← hsplit] at hle
      exact lt_of_le_of_lt hle hlast
    -- `other` was held when it was opened, so `id` is below the mark
    have hmark : other < (view (Allocation.interleave before)).top := by
      rcases view_advance _ t haligned hfits' with ⟨k, hk, -, hresult, -⟩ | ⟨-, hresult, -⟩
      · rw [hopen] at hresult
        obtain rfl := Option.some.inj hresult
        exact (hsound.held_mem t other hk).2
      · rw [hopen] at hresult
        cases hresult
    have hbase : idBatch ≤ id := by
      obtain ⟨p, hp, rfl⟩ := List.mem_map.mp hid
      exact ((interleave_sound schedule hlast).2.issued_mem p hp).1
    rcases interleave_complete before hfits id hbase (by omega) with ⟨p, hp, hpid⟩ | ⟨u, hu⟩
    · exact List.mem_map.mpr ⟨p, hp, hpid⟩
    · exact absurd ⟨before, t, after, hsplit, hopen, u, hu⟩ hnot

/-! ## The parents in the buffer -/

/-- INTERNAL: every parent in the buffer had an event that was received. -/
def SideReceived (s : EventJoin) : Prop :=
  ∀ parent ∈ s.side, ∃ msg ∈ s.received, msg.parentActualId = parent

/-- INTERNAL: making room adds no parent.
SRCLINE: driver.rs:155-163 -/
theorem makeRoom_sub (capacity : ℕ) (side : SideEvents) (parent : ℕ)
    (h : parent ∈ makeRoom side capacity) : parent ∈ side := by
  unfold makeRoom at h
  split at h
  · split at h
    · next k v rest hpop =>
      obtain ⟨-, hrest, -⟩ := popFirst_eq_some _ _ _ _ hpop
      rw [hrest] at h
      exact ExtTreeMap.mem_of_mem_erase h
    · exact h
  · exact h

/-- INTERNAL: an event that is parked was received. -/
theorem sideReceived_takeEvent (capacity : ℕ) (s : EventJoin) (msg : EventMessage)
    (h : SideReceived s) : SideReceived (EventJoin.takeEvent capacity s msg) := by
  intro parent hparent
  have hcases : parent = msg.parentActualId ∨ parent ∈ s.side := by
    simp only [EventJoin.takeEvent, parkEvent] at hparent
    split at hparent
    · rw [ExtTreeMap.mem_insert, Std.LawfulEqCmp.compare_eq_iff_eq] at hparent
      exact hparent.imp_left Eq.symm
    · rw [ExtTreeMap.mem_insert, Std.LawfulEqCmp.compare_eq_iff_eq] at hparent
      exact hparent.imp Eq.symm (makeRoom_sub capacity s.side parent)
  rcases hcases with rfl | hold
  · exact ⟨msg, by simp [EventJoin.takeEvent], rfl⟩
  · obtain ⟨old, hin, hp⟩ := h parent hold
    exact ⟨old, List.mem_append_left _ hin, hp⟩

/-- INTERNAL: so is every event parked by a batch. -/
theorem sideReceived_flush (capacity : ℕ) (s : EventJoin) (batch : DriverBatch)
    (h : SideReceived s) : SideReceived (EventJoin.flush capacity s batch) := by
  cases batch with
  | events batch =>
    rw [flush_events]
    induction batch generalizing s with
    | nil => exact h
    | cons msg batch ih => exact ih _ (sideReceived_takeEvent capacity s msg h)
  | spans batch =>
    rw [flush_spans]
    induction batch generalizing s with
    | nil => exact h
    | cons span batch ih =>
      refine ih _ fun parent hparent => ?_
      exact h parent (ExtTreeMap.mem_of_mem_erase hparent)

/-- INTERNAL: and by all batches. -/
theorem sideReceived_flushAll (capacity : ℕ) (batches : List DriverBatch) :
    ∀ parent ∈ (EventJoin.flushAll capacity batches).side,
      ∃ msg ∈ eventsOf batches, msg.parentActualId = parent := by
  have hall : ∀ s, SideReceived s → SideReceived (batches.foldl (EventJoin.flush capacity) s) := by
    induction batches with
    | nil => exact fun s h => h
    | cons batch batches ih => exact fun s h => ih _ (sideReceived_flush capacity s batch h)
  have hside := hall EventJoin.new fun parent hparent => by simp [EventJoin.new] at hparent
  have hreceived := (flushAll_order capacity EventJoin.new batches rfl).1
  intro parent hparent
  obtain ⟨msg, hin, hp⟩ := hside parent hparent
  rw [hreceived] at hin
  exact ⟨msg, by simpa [EventJoin.new] using hin, hp⟩

/-- INTERNAL: the bucket dropped is the least one in the buffer.
SRCLINE: driver.rs:155-162 -/
theorem evictedBy_least (capacity : ℕ) (side : SideEvents) (msg : EventMessage) (id : ℕ)
    (events : List EventRecord) (h : evictedBy capacity side msg = some (id, events)) :
    id ∈ side ∧ ∀ other ∈ side, id ≤ other := by
  unfold evictedBy at h
  split at h
  · cases h
  · split at h
    · obtain ⟨⟨k, dropped, rest⟩, hpop, heq⟩ := Option.map_eq_some_iff.mp h
      obtain ⟨hget, -, hleast⟩ := popFirst_eq_some _ _ _ _ hpop
      obtain ⟨rfl, -⟩ := Prod.mk.inj heq
      refine ⟨ExtTreeMap.isSome_getElem?_iff_mem.mp (by rw [hget]; rfl), fun other hother => ?_⟩
      exact Nat.isLE_compare.mp (hleast other hother)
    · cases h

/-! ## Exactly when the oldest orphan is dropped -/

/-- CODE: driver.rs:140-166, cache.rs:208-226 — **exactly when a full buffer drops the bucket
of the span opened earliest**, for any interleaving of the threads that allocate ids and any
batches of events of spans opened: when no other parked parent was opened while the least one
was an unused part of a thread's reservation. -/
theorem evicts_earliest_iff (schedule : List T)
    (hlast : (Allocation.interleave schedule).reserved < u64Size) (capacity : ℕ)
    (batches : List DriverBatch)
    (hopened : ∀ msg ∈ eventsOf batches, msg.parentActualId ∈ openedIds schedule)
    (msg : EventMessage) (id : ℕ) (events : List EventRecord)
    (hevicted : evictedBy capacity (EventJoin.flushAll capacity batches).side msg =
      some (id, events)) :
    EarliestOpened schedule (EventJoin.flushAll capacity batches).side id ↔
      ∀ other ∈ (EventJoin.flushAll capacity batches).side, other ≠ id →
        ¬ ReservedWhenOpened schedule id other := by
  obtain ⟨hparked, hleast⟩ := evictedBy_least capacity _ msg id events hevicted
  have hall : ∀ parent ∈ (EventJoin.flushAll capacity batches).side,
      parent ∈ openedIds schedule := by
    intro parent hparent
    obtain ⟨old, hin, rfl⟩ := sideReceived_flushAll capacity batches parent hparent
    exact hopened old hin
  have hone : ∀ other ∈ (EventJoin.flushAll capacity batches).side, other ≠ id →
      ((openedIds schedule).idxOf id < (openedIds schedule).idxOf other ↔
        ¬ ReservedWhenOpened schedule id other) := by
    intro other hother hne
    have hle := hleast other hother
    exact opened_after_iff schedule hlast id other (hall id hparked) (hall other hother)
      (by omega)
  constructor
  · rintro ⟨-, hearliest⟩ other hother hne
    exact (hone other hother hne).mp (hearliest other hother hne)
  · intro hfree
    exact ⟨hall id hparked, fun other hother hne =>
      (hone other hother hne).mpr (hfree other hother hne)⟩

/-- INTERNAL: one event for the parent. -/
def orphan (parent : ℕ) : EventMessage :=
  { parentActualId := parent, record := { metadata := none, fields := [], recordedAt := none } }

/-- CODE: driver.rs:303-327 — one thread: the least id is the first. -/
theorem evicts_earliest_iff_single :
    ∃ events, evictedBy 2 (EventJoin.flushAll 2 [.events [orphan 1025, orphan 1024]]).side
        (orphan 1026) = some (1024, events) ∧
      (EarliestOpened [(), (), (), ()]
          (EventJoin.flushAll 2 [.events [orphan 1025, orphan 1024]]).side 1024 ↔
        ∀ other ∈ (EventJoin.flushAll 2 [.events [orphan 1025, orphan 1024]]).side,
          other ≠ 1024 → ¬ ReservedWhenOpened [(), (), (), ()] 1024 other) :=
  ⟨_, rfl, evicts_earliest_iff [(), (), (), ()] (by decide) 2
    [.events [orphan 1025, orphan 1024]] (by decide) (orphan 1026) 1024 _ rfl⟩

/-- CODE: driver.rs:155-162, thread_state.rs:25-33 — the second thread opens the span 2048
before the first one opens 1025; the bucket of 1025 is dropped. -/
theorem evicts_younger_orphan :
    openedIds [false, false, true, true, false] = [1024, 2048, 1025] ∧
      (∃ events, evictedBy 2 (EventJoin.flushAll 2 [.events [orphan 2048, orphan 1025]]).side
        (orphan 1024) = some (1025, events)) ∧
      ¬ EarliestOpened [false, false, true, true, false]
        (EventJoin.flushAll 2 [.events [orphan 2048, orphan 1025]]).side 1025 := by
  refine ⟨by decide, ⟨_, rfl⟩, ?_⟩
  rintro ⟨-, hearliest⟩
  have hless := hearliest 2048 (by decide) (by decide)
  revert hless
  decide

end TracingConsole.Analysis
