import TracingConsole.Analysis.ClosedIds
import TracingConsole.Analysis.Delivery

/-!
# Which events a span finds parked

When the driver takes a span, it has received exactly the events that had been sent by its last
poll of the event channel, the one that found the channel empty (`Caught`).  An event sent
before its span but after that poll is on the channel while the span is fanned out.
-/

set_option autoImplicit false

namespace TracingConsole.Analysis

open TracingConsole.Library TracingConsole.Model TracingConsole.Analysis.Pipeline

variable {T : Type} [DecidableEq T]

/-! ## What was received before a span -/

/-- INTERNAL: before a span the driver had received the events sent by the poll before it. -/
structure CaughtUp (received sent : List EventMessage) (f : TakenSpan T) (j : Joined) : Prop where
  arrived : j.arrived = f.record
  before : f.eventsPolled ≤ sent.length
  past : j.received ≤ received.length
  same : (received.take j.received).Perm (sent.take f.eventsPolled)

omit [DecidableEq T] in
/-- INTERNAL: what is sent and received later changes nothing. -/
theorem CaughtUp.mono (received sent received' sent' : List EventMessage) (f : TakenSpan T)
    (j : Joined) (h : CaughtUp received sent f j) :
    CaughtUp (received ++ received') (sent ++ sent') f j where
  arrived := h.arrived
  before := by
    rw [List.length_append]
    exact Nat.le_add_right_of_le h.before
  past := by
    rw [List.length_append]
    exact Nat.le_add_right_of_le h.past
  same := by
    rw [List.take_append_of_le_length h.past, List.take_append_of_le_length h.before]
    exact h.same

/-- INTERNAL: the driver has received what left the event channel, and all that had been sent
by its last poll once it turns to the spans. -/
structure Caught (p : Pipeline T) : Prop where
  received : (p.join.received ++ p.eventChannel.map Prod.snd).Perm p.eventsSent
  polled : p.eventsPolled ≤ p.eventsSent.length
  atSpans : p.poll = .spans → p.join.received.Perm (p.eventsSent.take p.eventsPolled)
  taken : List.Forall₂ (CaughtUp p.join.received p.eventsSent) p.taken p.join.joined

omit [DecidableEq T] in
/-- INTERNAL: nothing is caught at the start. -/
theorem caught_start (cacheAddr pendingBatch capacity : ℕ) :
    Caught (Pipeline.start cacheAddr pendingBatch capacity : Pipeline T) where
  received := List.Perm.refl _
  polled := Nat.le_refl _
  atSpans := fun h => by cases h
  taken := List.Forall₂.nil

/-- INTERNAL: the part of the pipeline the events go through. -/
def eventPath (p : Pipeline T) :=
  (p.join, p.eventChannel, p.eventsSent, p.eventsPolled, p.poll, p.taken)

omit [DecidableEq T] in
/-- INTERNAL: the path of the events is all there is to it. -/
theorem Caught.of_same (p p' : Pipeline T) (h : Caught p) (hsame : eventPath p' = eventPath p) :
    Caught p' := by
  simp only [eventPath, Prod.mk.injEq] at hsame
  obtain ⟨hjoin, hchannel, hsent, hpolled, hpoll, htaken⟩ := hsame
  refine ⟨?_, ?_, ?_, ?_⟩
  · rw [hjoin, hchannel, hsent]
    exact h.received
  · rw [hpolled, hsent]
    exact h.polled
  · rw [hpoll, hjoin, hsent, hpolled]
    exact h.atSpans
  · rw [hjoin, hsent, htaken]
    exact h.taken

/-- INTERNAL: a flush of a thread leaves the path of the events. -/
theorem eventPath_startFlush (p : Pipeline T) (t : T) :
    eventPath (p.startFlush t) = eventPath p := by
  simp only [Pipeline.startFlush]
  split <;> rfl

/-- INTERNAL: events sent now are behind every poll made so far. -/
theorem Caught.sendEvents (p : Pipeline T) (h : Caught p) (t : T) (clone : ℕ) (full : Bool) :
    Caught (p.sendEvents t clone full) := by
  simp only [Pipeline.sendEvents]
  split
  · exact h.of_same p _ rfl
  · split
    · exact h.of_same p _ rfl
    · refine ⟨?_, ?_, ?_, ?_⟩
      · have hmap : ((p.pendingEvent t).map fun msg => (clone, msg)).map Prod.snd =
            p.pendingEvent t := by simp [Function.comp_def]
        rw [List.map_append, hmap, ← List.append_assoc]
        exact h.received.append_right _
      · rw [List.length_append]
        exact Nat.le_add_right_of_le h.polled
      · intro hpoll
        rw [List.take_append_of_le_length h.polled]
        exact h.atSpans hpoll
      · refine h.taken.imp fun f j hfj => ?_
        have hmono := hfj.mono p.join.received p.eventsSent [] (p.pendingEvent t)
        rw [List.append_nil] at hmono
        exact hmono

omit [DecidableEq T] in
/-- INTERNAL: a batch of events moves from the channel to the driver. -/
theorem Caught.tookEvents (p : Pipeline T) (h : Caught p) (clones : List ℕ)
    (batch rest : List (ℕ × EventMessage)) (hpoll : p.poll = .events)
    (htake : takeAll clones p.eventChannel = some (batch, rest)) :
    Caught (tookEvents p batch rest) := by
  have hreceived : (p.join.flush p.capacity (.events (batch.map Prod.snd))).received =
      p.join.received ++ batch.map Prod.snd := rfl
  refine ⟨?_, h.polled, ?_, ?_⟩
  · have hperm := (takeAll_perm clones p.eventChannel batch rest htake).map Prod.snd
    rw [List.map_append] at hperm
    simp only [Pipeline.tookEvents]
    rw [hreceived, List.append_assoc]
    exact (hperm.symm.append_left _).trans h.received
  · intro hspans
    have hspans : p.poll = .spans := hspans
    rw [hpoll] at hspans
    cases hspans
  · simp only [Pipeline.tookEvents]
    rw [hreceived]
    refine h.taken.imp fun f j hfj => ?_
    have hmono := hfj.mono p.join.received p.eventsSent (batch.map Prod.snd) []
    rw [List.append_nil] at hmono
    exact hmono

omit [DecidableEq T] in
/-- INTERNAL: the entries of a batch of spans, one for each span. -/
theorem joined_flush_spans (p : Pipeline T) (batch : List (ℕ × SentSpan T))
    (hpolled : p.eventsPolled ≤ p.eventsSent.length)
    (hsame : p.join.received.Perm (p.eventsSent.take p.eventsPolled)) :
    ∃ entries, (p.join.flush p.capacity (.spans (batch.map fun e => e.2.record))).joined =
        p.join.joined ++ entries ∧
      List.Forall₂ (CaughtUp p.join.received p.eventsSent)
        (batch.map fun e => TakenSpan.mk e.2.thread e.2.record e.2.eventsSent p.eventsPolled)
        entries := by
  simp only [EventJoin.flush, flushSpanBatch_eq]
  refine ⟨_, rfl, ?_⟩
  generalize p.join.side = side
  induction batch generalizing side with
  | nil => exact List.Forall₂.nil
  | cons e batch ih =>
    refine List.Forall₂.cons ⟨rfl, hpolled, Nat.le_refl _, ?_⟩ (ih _)
    rw [List.take_length]
    exact hsame

omit [DecidableEq T] in
/-- INTERNAL: the driver takes spans only when no event waits. -/
theorem Caught.tookSpans (p : Pipeline T) (h : Caught p) (slow : List ℕ)
    (batch rest : List (ℕ × SentSpan T)) (hpoll : p.poll = .spans) :
    Caught (tookSpans p slow batch rest) := by
  obtain ⟨entries, hjoined, hentries⟩ := joined_flush_spans p batch h.polled (h.atSpans hpoll)
  refine ⟨h.received, h.polled, fun hspans => ?_, ?_⟩
  · cases hspans
  · simp only [Pipeline.tookSpans]
    rw [hjoined]
    exact List.rel_append h.taken hentries

/-- INTERNAL: **every step keeps the driver caught up with its polls**. -/
theorem Caught.step (p : Pipeline T) (a : PipelineStep T) (p' : Pipeline T) (h : Caught p)
    (hstep : p.step a = some p') : Caught p' := by
  cases pipeline_moves p p' a hstep with
  | close t record =>
    simp only [Pipeline.close]
    split
    · exact h.of_same p _ (eventPath_startFlush _ t)
    · exact h.of_same p _ rfl
  | emit t msg =>
    simp only [Pipeline.emit]
    split
    · exact h.of_same p _ (eventPath_startFlush _ t)
    · exact h.of_same p _ rfl
  | flushPending t => exact h.of_same p _ (eventPath_startFlush p t)
  | sendEvents t full senders => exact h.sendEvents p t _ full
  | sendSpans t full senders =>
    simp only [Pipeline.sendSpans]
    split
    · exact h.of_same p _ rfl
    · split <;> exact h.of_same p _ rfl
  | noEvents clones _ hempty =>
    have hall := h.received
    rw [hempty, List.map_nil, List.append_nil] at hall
    refine ⟨h.received, Nat.le_refl _, fun _ => ?_, h.taken⟩
    rw [List.take_length]
    exact hall
  | pollEvents clones batch rest hpoll htake => exact h.tookEvents p clones batch rest hpoll htake
  | noSpans => exact ⟨h.received, h.polled, fun hspans => (by cases hspans), h.taken⟩
  | pollSpans clones slow batch rest hpoll => exact h.tookSpans p slow batch rest hpoll
  | subscribe => exact h.of_same p _ rfl
  | dropReceiver => exact h.of_same p _ rfl

/-! ## The ids of the spans on their way -/

/-- INTERNAL: the spans the driver took and those on the channel, with their threads. -/
def travelling (p : Pipeline T) : List (T × SpanRecord) :=
  (p.taken.map fun e => (e.thread, e.record)) ++ p.spanChannel.map fun e => (e.2.thread, e.2.record)

/-- INTERNAL: a thread's record is counted among the records of the thread. -/
theorem count_ofThread (l : List (T × SpanRecord)) (t : T) (r : SpanRecord) :
    Multiset.count (t, r) (l : Multiset (T × SpanRecord)) =
      Multiset.count r
        (((l.filter fun e => e.1 = t).map fun e => e.2 : List SpanRecord) : Multiset SpanRecord) := by
  induction l with
  | nil => rfl
  | cons e l ih =>
    obtain ⟨u, r'⟩ := e
    rw [← Multiset.cons_coe, Multiset.count_cons, ih]
    by_cases hu : u = t
    · subst hu
      rw [List.filter_cons_of_pos (by simp), List.map_cons, ← Multiset.cons_coe,
        Multiset.count_cons]
      simp
    · have hne : ¬ (t, r) = (u, r') := fun heq => hu (Prod.mk.inj heq).1.symm
      rw [List.filter_cons_of_neg (by simpa using hu), if_neg hne, Nat.add_zero]

/-- INTERNAL: no span travels that was not closed, and none twice. -/
theorem Carried.travelling_le (p : Pipeline T) (h : Carried p) :
    (travelling p : Multiset (T × SpanRecord)) ≤ (p.closed : Multiset (T × SpanRecord)) := by
  rw [Multiset.le_iff_count]
  rintro ⟨t, r⟩
  rw [count_ofThread, count_ofThread]
  have hmine : ((travelling p).filter fun e => e.1 = t).map (fun e => e.2) = acceptedBy p t := by
    rw [h.accepted t]
    simp [travelling, takenBy, channelBy, List.filter_map, Function.comp_def]
  rw [hmine]
  exact Multiset.le_iff_count.mp (Multiset.coe_le.mpr (h.acceptedBy_sublist p t).subperm) r

/-- INTERNAL: when closed spans have distinct ids, so have those taken and on the channel. -/
theorem Carried.travelling_ids (p : Pipeline T) (h : Carried p)
    (hids : (p.closed.map fun e => e.2.id).Nodup) :
    ((travelling p).map fun e => e.2.id).Nodup := by
  have hle := Multiset.map_le_map (f := fun e : T × SpanRecord => e.2.id) (h.travelling_le p)
  rw [Multiset.map_coe, Multiset.map_coe] at hle
  exact Multiset.coe_nodup.mp (Multiset.nodup_of_le hle (Multiset.coe_nodup.mpr hids))

/-- INTERNAL: the join conserves events as long as closed spans have distinct ids. -/
def Joins (p : Pipeline T) : Prop :=
  (p.closed.map fun e => e.2.id).Nodup → Conserved p.capacity p.join

/-- INTERNAL: a batch of spans has new ids. -/
theorem Joins.tookSpans (p : Pipeline T) (h : Joins p) (hcarried : Carried p)
    (clones slow : List ℕ) (batch rest : List (ℕ × SentSpan T))
    (htake : takeAll clones p.spanChannel = some (batch, rest)) :
    Joins (tookSpans p slow batch rest) := by
  intro hids
  have hids : (p.closed.map fun e => e.2.id).Nodup := hids
  have hnew : (((p.join.joined.map fun j => j.arrived) ++ batch.map fun e => e.2.record).map
      fun span => span.id).Nodup := by
    have hperm := (takeAll_perm clones p.spanChannel batch rest htake).map fun e => e.2.record.id
    have htravel := hcarried.travelling_ids p hids
    rw [hcarried.arrived]
    simp only [travelling, List.map_append, List.map_map, Function.comp_def] at htravel hperm ⊢
    have hall := ((hperm.append_left (p.taken.map fun e => e.record.id)).nodup_iff).mp htravel
    rw [← List.append_assoc] at hall
    exact hall.of_append_left
  simp only [Pipeline.tookSpans]
  rw [flush_spans]
  exact (h hids).takeSpans p.capacity p.join _ hnew

omit [DecidableEq T] in
/-- INTERNAL: steps that leave the join alone. -/
theorem Joins.of_same (p p' : Pipeline T) (h : Joins p) (hjoin : p'.join = p.join)
    (hcapacity : p'.capacity = p.capacity) (hclosed : p.closed <+: p'.closed) : Joins p' := by
  intro hids
  rw [hjoin, hcapacity]
  exact h (hids.sublist (hclosed.sublist.map _))

/-- INTERNAL: a flush of a thread leaves the driver's part. -/
theorem join_startFlush (p : Pipeline T) (t : T) :
    (p.startFlush t).join = p.join ∧ (p.startFlush t).capacity = p.capacity := by
  simp only [Pipeline.startFlush]
  split <;> exact ⟨rfl, rfl⟩

/-- INTERNAL: what one step preserves. -/
theorem Joins.step (p : Pipeline T) (a : PipelineStep T) (p' : Pipeline T) (h : Joins p)
    (hcarried : Carried p) (hstep : p.step a = some p') : Joins p' := by
  have hclosed : p.closed <+: p'.closed := ⟨_, (closed_step p p' a hstep).symm⟩
  cases pipeline_moves p p' a hstep with
  | close t record =>
    refine h.of_same p _ ?_ ?_ hclosed <;> simp only [Pipeline.close] <;> split
    · exact (join_startFlush _ t).1
    · rfl
    · exact (join_startFlush _ t).2
    · rfl
  | emit t msg =>
    refine h.of_same p _ ?_ ?_ hclosed <;> simp only [Pipeline.emit] <;> split
    · exact (join_startFlush _ t).1
    · rfl
    · exact (join_startFlush _ t).2
    · rfl
  | flushPending t => exact h.of_same p _ (join_startFlush p t).1 (join_startFlush p t).2 hclosed
  | sendEvents t full senders =>
    refine h.of_same p _ ?_ ?_ hclosed <;> simp only [Pipeline.sendEvents] <;> split
    · rfl
    · split <;> rfl
    · rfl
    · split <;> rfl
  | sendSpans t full senders =>
    refine h.of_same p _ ?_ ?_ hclosed <;> simp only [Pipeline.sendSpans] <;> split
    · rfl
    · split <;> rfl
    · rfl
    · split <;> rfl
  | noEvents | noSpans | subscribe | dropReceiver => exact h.of_same p _ rfl rfl hclosed
  | pollEvents clones batch rest =>
    intro hids
    simp only [Pipeline.tookEvents]
    rw [flush_events]
    exact (h hids).takeEvents p.capacity p.join _
  | pollSpans clones slow batch rest _ htake =>
    exact h.tookSpans p hcarried clones slow batch rest htake

/-! ## Runs of the system -/

/-- INTERNAL: the invariant of the whole, with what the driver received and joined. -/
structure Reaching (s : System T) : Prop where
  delivering : Delivering s
  numbered : Numbered s.world
  distinct : Distinct s.world
  caught : Caught s.pipeline
  joins : Joins s.pipeline

/-- INTERNAL: what one step of the host preserves. -/
theorem Reaching.step (s : System T) (a : SystemStep T) (s' : System T) (h : Reaching s)
    (hstep : s.step a = some s') : Reaching s' := by
  have hdelivering := h.delivering.step s a s' hstep
  obtain ⟨hworld, hpipeline⟩ := system_step s s' h.delivering.placed a hstep
  have hnumbered : Numbered s'.world ∧ Distinct s'.world := by
    cases hworld with
    | inl hsame => exact ⟨hsame ▸ h.numbered, hsame ▸ h.distinct⟩
    | inr hmove =>
      obtain ⟨c, hc⟩ := hmove
      have hmove := step_moves _ _ h.delivering.placed c hc
      exact ⟨h.numbered.move _ _ c hmove, h.distinct.move _ _ h.numbered c hmove⟩
  cases hpipeline with
  | inl hnone =>
    exact ⟨hdelivering, hnumbered.1, hnumbered.2, hnone.1 ▸ h.caught, hnone.1 ▸ h.joins⟩
  | inr hsome =>
    obtain ⟨b, hpipe, -⟩ := hsome
    exact ⟨hdelivering, hnumbered.1, hnumbered.2, h.caught.step _ _ _ hpipe,
      h.joins.step _ _ _ h.delivering.carried hpipe⟩

/-- INTERNAL: so it holds of every run. -/
theorem reaching_run (cache : SpanCache) (capacity : ℕ) (config : CacheConfig)
    (hcache : SpanCache.withConfig capacity config = some cache) (key : ℕ) (keys : T → ℕ)
    (cacheAddr : ℕ) (steps : List (SystemStep T)) (s : System T)
    (hrun : run System.step (System.start cache key keys cacheAddr capacity) steps = some s) :
    Reaching s := by
  refine run_invariant System.step Reaching ?_ _ steps s ?_ hrun
  · exact fun s a s' h hstep => h.step s a s' hstep
  · exact ⟨⟨placed_start capacity config cache hcache key keys, carried_start _ _ _,
      served_start _ _ _, rfl⟩, numbered_start cache key keys,
      distinct_start capacity config cache hcache key keys, caught_start _ _ _,
      fun _ => conserved_new capacity⟩

/-- INTERNAL: a span fanned out without any eviction carries, after its own events, those sent
for it by the last poll of the event channel before it was taken. -/
theorem Reaching.attached (s : System T) (h : Reaching s) (hlast : s.world.ids.reserved < u64Size)
    (hkept : s.pipeline.join.discarded = []) (f : TakenSpan T) (j : Joined)
    (hj : j ∈ s.pipeline.join.joined)
    (hcaught : CaughtUp s.pipeline.join.received s.pipeline.eventsSent f j) :
    ∃ attached, j.sent = { f.record with events := f.record.events ++ attached } ∧
      attached.Perm (eventsFor f.record.id (s.pipeline.eventsSent.take f.eventsPolled)) := by
  have hids := h.distinct.closed s.world hlast
  rw [← h.delivering.closed] at hids
  obtain ⟨attached, hsent, hbefore, -⟩ := (h.joins hids).attached j hj
  rw [hcaught.arrived] at hsent hbefore
  refine ⟨attached, hsent, ?_⟩
  have hnone : discardedFor f.record.id (s.pipeline.join.discarded.take j.discarded) = [] := by
    rw [hkept, List.take_nil]
    rfl
  rw [hnone, List.nil_append] at hbefore
  rw [← hbefore]
  exact (hcaught.same.filter _).map _

/-- CODE: driver.rs:51-87, cache.rs:298-336, driver.rs:115-166 — **which events reach their
span**: in every run without an eviction, an event sent before its span is attached when the
span is fanned out, unless both were sent between the poll that found the event channel empty
and the poll of the span channel that took the span; the span carries the events sent for it by
that first poll and no other. -/
theorem events_reach_span (cache : SpanCache) (capacity : ℕ) (config : CacheConfig)
    (hcache : SpanCache.withConfig capacity config = some cache) (key : ℕ) (keys : T → ℕ)
    (cacheAddr : ℕ) (steps : List (SystemStep T)) (s : System T)
    (hrun : run System.step (System.start cache key keys cacheAddr capacity) steps = some s)
    (hlast : s.world.ids.reserved < u64Size) (hkept : s.pipeline.join.discarded = []) :
    List.Forall₂
      (fun f j =>
        (∀ (n : ℕ) (msg : EventMessage), s.pipeline.eventsSent[n]? = some msg →
          msg.parentActualId = f.record.id → n < f.eventsSent →
          n < f.eventsPolled → msg.record ∈ j.sent.events) ∧
        ∃ attached, j.sent = { f.record with events := f.record.events ++ attached } ∧
          attached.Perm (eventsFor f.record.id (s.pipeline.eventsSent.take f.eventsPolled)))
      s.pipeline.taken s.pipeline.join.joined := by
  have h := reaching_run cache capacity config hcache key keys cacheAddr steps s hrun
  rw [List.forall₂_iff_get]
  have hcaught := List.forall₂_iff_get.mp h.caught.taken
  refine ⟨hcaught.1, fun i hi hi' => ?_⟩
  obtain ⟨attached, hsent, hperm⟩ := h.attached s hlast hkept _ _ (List.get_mem _ _)
    (hcaught.2 i hi hi')
  refine ⟨fun n msg hmsg hparent _ hpolled => ?_, attached, hsent, hperm⟩
  have hmem : msg.record ∈
      eventsFor (s.pipeline.taken.get ⟨i, hi⟩).record.id
        (s.pipeline.eventsSent.take (s.pipeline.taken.get ⟨i, hi⟩).eventsPolled) := by
    refine List.mem_map.mpr ⟨msg, List.mem_filter.mpr ⟨?_, decide_eq_true hparent⟩, rfl⟩
    refine List.mem_of_getElem? (i := n) ?_
    rw [List.getElem?_take_of_lt hpolled]
    exact hmsg
  rw [hsent]
  exact List.mem_append.mpr (Or.inr (hperm.mem_iff.mpr hmem))

/-- INTERNAL: a root span with one event is closed. -/
def closeWithEvent : List (SystemStep Bool) :=
  let callsite : Metadata := { name := "event", target := "app", level := .info }
  (openRoot false).map .cache ++
    [.cache (.enter false 0), .cache (.event false none callsite [] 3), .cache (.exit false),
      .cache (.tryClose false 0 5), .transport (.flushPending false)]

/-- INTERNAL: the event is sent and taken, then the span. -/
def sentInTime : List (SystemStep Bool) :=
  closeWithEvent ++ [.transport (.sendEvents false false), .transport (.pollEvents [0]),
    .transport (.sendSpans false false), .transport (.pollEvents []),
    .transport (.pollSpans [0] [])]

/-- CODE: driver.rs:51-87 — the event is sent before the poll: the span carries it. -/
theorem events_reach_span_in_time :
    ∃ s, run System.step (System.start oneSlot 0 (fun _ => 0) 7 1) sentInTime = some s ∧
      (s.pipeline.join.fannedOut.map fun r => (r.id, r.events.length)) = [(1024, 1)] ∧
      s.pipeline.taken.length = s.pipeline.join.joined.length :=
  ⟨_, rfl, rfl,
    (events_reach_span oneSlot 1 { laneCount := 1, pendingBatch := 8 } (by decide) 0
      (fun _ => 0) 7 sentInTime _ rfl (by decide) rfl).length_eq⟩

/-- CODE: driver.rs:51-87 — one flush sends an event and its span between the two polls of the
driver: no channel is full, nothing is evicted, and the span is fanned out without its event. -/
theorem event_misses_span :
    ∃ s, run System.step (System.start oneSlot 0 (fun _ => 0) 7 1)
        (closeWithEvent ++ [.transport (.pollEvents []), .transport (.sendEvents false false),
          .transport (.sendSpans false false), .transport (.pollSpans [0] [])]) = some s ∧
      s.pipeline.eventsRejected = [] ∧ (∀ b ∈ s.pipeline.batches, b.accepted) ∧
      s.pipeline.join.discarded = [] ∧
      (s.pipeline.eventsSent.map fun msg => msg.parentActualId) = [1024] ∧
      (s.pipeline.taken.map fun f => (f.record.id, f.eventsSent)) = [(1024, 1)] ∧
      (s.pipeline.join.fannedOut.map fun r => (r.id, r.events.length)) = [(1024, 0)] :=
  ⟨_, rfl, rfl, by decide, rfl, rfl, rfl, rfl⟩

end TracingConsole.Analysis
