import TracingConsole.Library.Runs
import TracingConsole.Model.Caches

/-!
# What a thread's flush sends, and on whose channels

A thread's buffers and its senders outlast its turn to another cache, so a flush can send what
was recorded through one cache on the channels of another.  `FlushMeets` is a condition on the
items a flush is about to send: the caches they were recorded through, the cache flushed and
the one whose channels are taken.  What is on the channels meets it exactly when every flush of
the run does (`step_shipped`).
-/

set_option autoImplicit false

namespace TracingConsole.Analysis

open TracingConsole.Library TracingConsole.Model

variable {T : Type} [DecidableEq T]

/-! ## The channels of a flush -/

/-- INTERNAL: the cache on whose channels a flush sends.
SRCLINE: cache.rs:302-318 -/
def flushChannel (p : Process T) (t : T) (c : ℕ) (cache : CacheInstance) : ℕ :=
  ((p.ensureSenders t c cache).2[(p.ensureSenders t c cache).1.clone]?).getD c

/-- INTERNAL: the thread's senders were cloned from another cache, at the same address. -/
def StaleSenders (p : Process T) (t : T) (c : ℕ) (cache : CacheInstance) : Prop :=
  ∃ senders ∈ p.threadSenders t, senders.cacheAddr = cache.addr ∧
    ∃ d ∈ p.cloned[senders.clone]?, d ≠ c

omit [DecidableEq T] in
/-- INTERNAL: a flush takes the channels of its own cache, but for stale senders. -/
theorem flushChannel_eq_iff (p : Process T) (t : T) (c : ℕ) (cache : CacheInstance) :
    c = flushChannel p t c cache ↔ ¬ StaleSenders p t c cache := by
  unfold flushChannel StaleSenders Process.ensureSenders
  cases hslot : p.threadSenders t with
  | none => simp
  | some senders =>
    by_cases haddr : senders.cacheAddr = cache.addr
    · cases hclone : p.cloned[senders.clone]? with
      | none => simp [ThreadSenders.needsInit, haddr, hclone]
      | some d => simp [ThreadSenders.needsInit, haddr, hclone, eq_comm]
    · simp [ThreadSenders.needsInit, haddr]

/-! ## The items of a flush -/

section Items

variable (good : ℕ → ℕ → ℕ → Prop)

/-- INTERNAL: everything on a channel is `good`: the cache it was recorded through, the cache
flushed, and the cache whose channel it is on. -/
def Shipments {α : Type} (sent : List (Shipped α)) : Prop :=
  ∀ x ∈ sent, good x.recordedThrough x.flushedThrough x.channel

/-- INTERNAL: the items a flush of `c` puts on the channels of `channel` are `good`; a full
channel takes none. -/
def ItemsMeet {α : Type} (full : Bool) (c channel : ℕ) (pending : List (ℕ × α)) : Prop :=
  full = false → ∀ e ∈ pending, good e.1 c channel

/-- INTERNAL: what is shipped is good when the items are. -/
theorem shipments_append {α : Type} (sent : List (Shipped α)) (full : Bool) (c channel : ℕ)
    (pending : List (ℕ × α)) :
    Shipments good (sent ++ Process.ship full c channel pending) ↔
      Shipments good sent ∧ ItemsMeet good full c channel pending := by
  unfold Shipments ItemsMeet Process.ship
  cases full with
  | true => simp
  | false =>
    simp only [Bool.false_eq_true, if_false, true_imp_iff, List.mem_append, or_imp, forall_and,
      List.forall_mem_map]

/-- INTERNAL: everything on the channels of all caches. -/
def AllShipments (p : Process T) : Prop :=
  Shipments good p.spansSent ∧ Shipments good p.eventsSent

/-- INTERNAL: a flush of `c` with these buffers sends good items. -/
def SendsMeet (p : Process T) (t : T) (c : ℕ) (cache : CacheInstance) (full : Bool × Bool)
    (spans : List (ℕ × SpanRecord)) (events : List (ℕ × EventMessage)) : Prop :=
  ItemsMeet good full.2 c (flushChannel p t c cache) spans ∧
  ItemsMeet good full.1 c (flushChannel p t c cache) events

/-- INTERNAL: if the step flushes, it sends good items; `close` and `event` flush when their
item makes a batch.
SRCLINE: cache.rs:298-336, cache.rs:513-520, cache.rs:559-562 -/
def FlushMeets (p : Process T) : ProcessStep T → Prop
  | .flushPending t c full =>
    ∀ cache ∈ p.live c, SendsMeet good p t c cache full (p.pendingSpan t) (p.pendingEvent t)
  | .close t c record full =>
    ∀ cache ∈ p.live c, cache.pendingBatch ≤ (p.pendingSpan t).length + 1 →
      SendsMeet good p t c cache full (p.pendingSpan t ++ [(c, record)]) (p.pendingEvent t)
  | .event t c msg full =>
    ∀ cache ∈ p.live c, cache.pendingBatch ≤ (p.pendingEvent t).length + 1 →
      SendsMeet good p t c cache full (p.pendingSpan t) (p.pendingEvent t ++ [(c, msg)])
  | _ => True

/-- INTERNAL: a flush. -/
theorem flushPending_shipped (p : Process T) (t : T) (c : ℕ) (cache : CacheInstance)
    (full : Bool × Bool) :
    AllShipments good (p.flushPending t c cache full) ↔
      AllShipments good p ∧
        SendsMeet good p t c cache full (p.pendingSpan t) (p.pendingEvent t) := by
  have hspans : (p.flushPending t c cache full).spansSent =
      p.spansSent ++ Process.ship full.2 c (flushChannel p t c cache) (p.pendingSpan t) := rfl
  have hevents : (p.flushPending t c cache full).eventsSent =
      p.eventsSent ++ Process.ship full.1 c (flushChannel p t c cache) (p.pendingEvent t) := rfl
  unfold AllShipments SendsMeet
  rw [hspans, hevents, shipments_append, shipments_append, and_and_and_comm]

/-- INTERNAL: the end of a close. -/
theorem close_shipped (p : Process T) (t : T) (c : ℕ) (cache : CacheInstance)
    (record : SpanRecord) (full : Bool × Bool) :
    AllShipments good (p.close t c cache record full) ↔
      AllShipments good p ∧ (cache.pendingBatch ≤ (p.pendingSpan t).length + 1 →
        SendsMeet good p t c cache full (p.pendingSpan t ++ [(c, record)])
          (p.pendingEvent t)) := by
  simp only [Process.close, List.length_append, List.length_singleton]
  split
  · next hbatch =>
    rw [flushPending_shipped]
    simp only [Function.update_self, hbatch, true_imp_iff]
    exact Iff.rfl
  · next hbatch =>
    simp only [hbatch, false_imp_iff, and_true]
    exact Iff.rfl

/-- INTERNAL: the end of an event. -/
theorem event_shipped (p : Process T) (t : T) (c : ℕ) (cache : CacheInstance)
    (msg : EventMessage) (full : Bool × Bool) :
    AllShipments good (p.event t c cache msg full) ↔
      AllShipments good p ∧ (cache.pendingBatch ≤ (p.pendingEvent t).length + 1 →
        SendsMeet good p t c cache full (p.pendingSpan t)
          (p.pendingEvent t ++ [(c, msg)])) := by
  simp only [Process.event, List.length_append, List.length_singleton]
  split
  · next hbatch =>
    rw [flushPending_shipped]
    simp only [Function.update_self, hbatch, true_imp_iff]
    exact Iff.rfl
  · next hbatch =>
    simp only [hbatch, false_imp_iff, and_true]
    exact Iff.rfl

/-- INTERNAL: an allocation sends nothing. -/
theorem allocate_shipped (p : Process T) (t : T) (c : ℕ) (cache : CacheInstance) :
    AllShipments good (p.allocate t c cache) ↔ AllShipments good p := by
  unfold Process.allocate
  split <;> exact Iff.rfl

/-- INTERNAL: **a step leaves good items on the channels exactly when it sends good ones**. -/
theorem step_shipped (p : Process T) (a : ProcessStep T) (p' : Process T)
    (hstep : p.step a = some p') :
    AllShipments good p' ↔ AllShipments good p ∧ FlushMeets good p a := by
  cases a with
  | create addr pendingBatch =>
    simp only [Process.step] at hstep
    split at hstep
    · cases hstep
    · cases hstep
      simp only [FlushMeets, and_true]
      exact Iff.rfl
  | drop c =>
    obtain ⟨cache, -, heq⟩ := Option.map_eq_some_iff.mp hstep
    subst heq
    simp only [FlushMeets, and_true]
    exact Iff.rfl
  | allocate t c =>
    simp only [Process.step] at hstep
    simp only [FlushMeets, and_true]
    split at hstep
    · split at hstep
      · cases hstep
        exact allocate_shipped good p t c _
      · split at hstep
        · cases hstep
          exact allocate_shipped good p t c _
        · cases hstep
    · cases hstep
  | close t c record full =>
    simp only [Process.step] at hstep
    split at hstep
    · next cache hlive hfetched =>
      cases hstep
      rw [close_shipped]
      simp [FlushMeets, hlive]
    · cases hstep
  | event t c msg full =>
    simp only [Process.step] at hstep
    split at hstep
    · next cache hlive hfetched =>
      cases hstep
      rw [event_shipped]
      simp [FlushMeets, hlive]
    · cases hstep
  | flushPending t c full =>
    simp only [Process.step] at hstep
    split at hstep
    · next cache hlive hfetched =>
      cases hstep
      rw [flushPending_shipped]
      simp [FlushMeets, hlive]
    · cases hstep

/-- INTERNAL: what is on the channels after a run is good exactly when every flush of the run
sends good items. -/
theorem run_shipped (steps : List (ProcessStep T)) (p : Process T)
    (hrun : run Process.step Process.start steps = some p) :
    AllShipments good p ↔ RunsUnder Process.step (FlushMeets good) Process.start steps := by
  have hstart : AllShipments good (Process.start : Process T) := by
    simp [AllShipments, Shipments, Process.start]
  rw [runsUnder_iff_last Process.step (FlushMeets good) (fun _ => True) (AllShipments good)
    (fun _ _ _ _ _ => trivial) (fun p a p' _ hstep => step_shipped good p a p' hstep) _ steps p
    trivial hrun]
  simp [hstart]

end Items

/-! ## The two conditions -/

/-- INTERNAL: what a flush is about to send was recorded through the cache whose senders the
thread takes. -/
def SendsRecordedThere : Process T → ProcessStep T → Prop :=
  FlushMeets fun recordedThrough _ channel => recordedThrough = channel

/-- INTERNAL: a flush with something to send. -/
def HasItems (full : Bool × Bool) (spans : List (ℕ × SpanRecord))
    (events : List (ℕ × EventMessage)) : Prop :=
  (full.2 = false ∧ spans ≠ []) ∨ (full.1 = false ∧ events ≠ [])

/-- INTERNAL: a flush with something to send finds no stale senders. -/
def FindsNoStaleSenders (p : Process T) : ProcessStep T → Prop
  | .flushPending t c full =>
    ∀ cache ∈ p.live c, HasItems full (p.pendingSpan t) (p.pendingEvent t) →
      ¬ StaleSenders p t c cache
  | .close t c _ full =>
    ∀ cache ∈ p.live c, cache.pendingBatch ≤ (p.pendingSpan t).length + 1 →
      (full.2 = false ∨ (full.1 = false ∧ p.pendingEvent t ≠ [])) → ¬ StaleSenders p t c cache
  | .event t c _ full =>
    ∀ cache ∈ p.live c, cache.pendingBatch ≤ (p.pendingEvent t).length + 1 →
      ((full.2 = false ∧ p.pendingSpan t ≠ []) ∨ full.1 = false) → ¬ StaleSenders p t c cache
  | _ => True

omit [DecidableEq T] in
/-- INTERNAL: items are flushed on the channels of the cache flushed, if there are any. -/
theorem sendsMeet_channel_iff (p : Process T) (t : T) (c : ℕ) (cache : CacheInstance)
    (full : Bool × Bool) (spans : List (ℕ × SpanRecord)) (events : List (ℕ × EventMessage)) :
    SendsMeet (fun _ flushedThrough channel => flushedThrough = channel) p t c cache full spans
        events ↔
      (HasItems full spans events → ¬ StaleSenders p t c cache) := by
  rw [← flushChannel_eq_iff]
  unfold SendsMeet ItemsMeet HasItems
  constructor
  · rintro ⟨hspans, hevents⟩ hitems
    rcases hitems with ⟨hfull, hsome⟩ | ⟨hfull, hsome⟩
    · obtain ⟨e, he⟩ := List.exists_mem_of_ne_nil spans hsome
      exact hspans hfull e he
    · obtain ⟨e, he⟩ := List.exists_mem_of_ne_nil events hsome
      exact hevents hfull e he
  · intro hown
    exact ⟨fun hfull e he => hown (Or.inl ⟨hfull, List.ne_nil_of_mem he⟩),
      fun hfull e he => hown (Or.inr ⟨hfull, List.ne_nil_of_mem he⟩)⟩

omit [DecidableEq T] in
/-- INTERNAL: the second condition in terms of the senders. -/
theorem flushMeets_channel_iff (p : Process T) (a : ProcessStep T) :
    FlushMeets (fun _ flushedThrough channel => flushedThrough = channel) p a ↔
      FindsNoStaleSenders p a := by
  cases a with
  | flushPending t c full =>
    simp only [FlushMeets, FindsNoStaleSenders, sendsMeet_channel_iff]
  | close t c record full =>
    simp only [FlushMeets, FindsNoStaleSenders, sendsMeet_channel_iff]
    simp [HasItems]
  | event t c msg full =>
    simp only [FlushMeets, FindsNoStaleSenders, sendsMeet_channel_iff]
    simp [HasItems]
  | create _ _ => exact Iff.rfl
  | drop _ => exact Iff.rfl
  | allocate _ _ => exact Iff.rfl

/-- INTERNAL: **items go on the channels of the cache they were recorded through exactly when
flushes find them with its senders**. -/
theorem recorded_there_iff (steps : List (ProcessStep T)) (p : Process T)
    (hrun : run Process.step Process.start steps = some p) :
    AllShipments (fun recordedThrough _ channel => recordedThrough = channel) p ↔
      RunsUnder Process.step SendsRecordedThere Process.start steps :=
  run_shipped _ steps p hrun

/-- INTERNAL: **a cache is flushed on its own channels exactly when no flush that sends finds
stale senders**. -/
theorem flushed_there_iff (steps : List (ProcessStep T)) (p : Process T)
    (hrun : run Process.step Process.start steps = some p) :
    AllShipments (fun _ flushedThrough channel => flushedThrough = channel) p ↔
      RunsUnder Process.step FindsNoStaleSenders Process.start steps := by
  rw [run_shipped _ steps p hrun]
  exact runsUnder_iff Process.step _ FindsNoStaleSenders (fun _ => True)
    (fun p a _ _ _ => flushMeets_channel_iff p a) (fun _ _ _ _ _ _ => trivial) _ steps p trivial
    hrun

end TracingConsole.Analysis
