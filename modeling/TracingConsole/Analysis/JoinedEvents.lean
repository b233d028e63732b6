import TracingConsole.Analysis.EventsReachSpan

/-!
# Where the events of a span come from

An event on its way to the driver is the message of a call of `event` (`Called`), and what the
driver joins to a span are events it had received for the span (`JoinedTo`): those of before the
span that no eviction discarded, in the order they came.
-/

set_option autoImplicit false

namespace TracingConsole.Analysis.Emitted

open TracingConsole.Library TracingConsole.Model TracingConsole.Analysis.Pipeline

variable {T : Type} [DecidableEq T]

/-! ## The messages on their way -/

/-- INTERNAL: **the invariant of the pipeline**: what is buffered and what was sent is in `log`. -/
structure Within (p : Pipeline T) (log : List EventMessage) : Prop where
  pending : ∀ t, ∀ msg ∈ p.pendingEvent t, msg ∈ log
  sent : ∀ msg ∈ p.eventsSent, msg ∈ log

omit [DecidableEq T] in
/-- INTERNAL: a longer log holds them too. -/
theorem Within.mono (p : Pipeline T) (log more : List EventMessage) (h : Within p log) :
    Within p (log ++ more) where
  pending := fun t msg hmsg => List.mem_append_left _ (h.pending t msg hmsg)
  sent := fun msg hmsg => List.mem_append_left _ (h.sent msg hmsg)

omit [DecidableEq T] in
/-- INTERNAL: steps that leave the buffers and the channel alone. -/
theorem Within.of_same (p p' : Pipeline T) (log : List EventMessage) (h : Within p log)
    (hpending : p'.pendingEvent = p.pendingEvent) (hsent : p'.eventsSent = p.eventsSent) :
    Within p' log where
  pending := by
    rw [hpending]
    exact h.pending
  sent := by
    rw [hsent]
    exact h.sent

/-- INTERNAL: a flush of a thread leaves every event where it is. -/
theorem Within.startFlush (p : Pipeline T) (log : List EventMessage) (h : Within p log) (t : T) :
    Within (p.startFlush t) log := by
  simp only [Pipeline.startFlush]
  split <;> exact h.of_same p _ log rfl rfl

/-- INTERNAL: an event goes to the buffer of its thread.
SRCLINE: cache.rs:513-520 -/
theorem Within.emit (p : Pipeline T) (log : List EventMessage) (h : Within p log) (t : T)
    (msg : EventMessage) (hmsg : msg ∈ log) : Within (p.emit t msg) log := by
  have hpushed : Within
      { p with
        pendingEvent := Function.update p.pendingEvent t (p.pendingEvent t ++ [msg]) } log := by
    refine ⟨fun u m hm => ?_, h.sent⟩
    by_cases hu : u = t
    · subst hu
      have hm : m ∈ p.pendingEvent u ++ [msg] := by simpa using hm
      cases List.mem_append.mp hm with
      | inl hold => exact h.pending u m hold
      | inr hnew => exact List.mem_singleton.mp hnew ▸ hmsg
    · have hm : m ∈ p.pendingEvent u := by simpa [Function.update_of_ne hu] using hm
      exact h.pending u m hm
  simp only [Pipeline.emit]
  split
  · exact hpushed.startFlush _ log t
  · exact hpushed

/-- INTERNAL: the buffer of a thread goes to the channel, or nowhere.
SRCLINE: cache.rs:324-329 -/
theorem Within.sendEvents (p : Pipeline T) (log : List EventMessage) (h : Within p log) (t : T)
    (clone : ℕ) (full : Bool) : Within (p.sendEvents t clone full) log := by
  have hdrained (u : T) : ∀ msg ∈ Function.update p.pendingEvent t [] u, msg ∈ log := by
    by_cases hu : u = t
    · subst hu
      simp
    · rw [Function.update_of_ne hu]
      exact h.pending u
  simp only [Pipeline.sendEvents]
  split
  · exact ⟨hdrained, h.sent⟩
  · split
    · exact ⟨hdrained, h.sent⟩
    · refine ⟨hdrained, fun msg hmsg => ?_⟩
      cases List.mem_append.mp hmsg with
      | inl hold => exact h.sent msg hold
      | inr hnew => exact h.pending t msg hnew

/-- INTERNAL: **a step makes no event**, but takes the one of its `emit`. -/
theorem Within.step (p p' : Pipeline T) (log : List EventMessage) (a : PipelineStep T)
    (h : Within p log) (hemit : ∀ t msg, a = .emit t msg → msg ∈ log)
    (hstep : p.step a = some p') : Within p' log := by
  cases pipeline_moves p p' a hstep with
  | close t record =>
    have hpushed : Within
        { p with
          pendingSpan := Function.update p.pendingSpan t (p.pendingSpan t ++ [record])
          closed := p.closed ++ [(t, record)] } log := h.of_same p _ log rfl rfl
    simp only [Pipeline.close]
    split
    · exact hpushed.startFlush _ log t
    · exact hpushed
  | emit t msg => exact h.emit p log t msg (hemit t msg rfl)
  | flushPending t => exact h.startFlush p log t
  | sendEvents t full => exact h.sendEvents p log t _ full
  | sendSpans t full =>
    simp only [Pipeline.sendSpans]
    split
    · exact h.of_same p _ log rfl rfl
    · split <;> exact h.of_same p _ log rfl rfl
  | noEvents | pollEvents | noSpans | pollSpans | subscribe | dropReceiver =>
    exact h.of_same p _ log rfl rfl

/-! ## The calls of `event` -/

/-- INTERNAL: **the invariant of the host**: its events are those of the calls. -/
def Called (s : System T) : Prop := Within s.pipeline (s.world.events.map Prod.snd)

/-- INTERNAL: **a step of the host keeps the invariant**.
SRCLINE: cache.rs:469-521 -/
theorem Called.step (s s' : System T) (hplaced : Placed s.world) (h : Called s)
    (a : SystemStep T) (hstep : s.step a = some s') : Called s' := by
  cases a with
  | cache a =>
    simp only [System.step] at hstep
    split at hstep
    · next hflush =>
      obtain ⟨w', hworld, hs'⟩ := Option.map_eq_some_iff.mp hstep
      subst hs'
      cases step_logs s.world w' hplaced a hworld with
      | inl hclosed =>
        obtain ⟨closed, hclosed, hevents⟩ := hclosed
        simp only [Called, hclosed, hevents, List.drop_left, List.drop_length]
        cases closed with
        | none => exact h
        | some r =>
          refine Within.step s.pipeline _ _ (.close a.thread r) h (by simp) ?_
          simp only [Pipeline.step, if_pos hflush]
          rfl
      | inr hevents =>
        obtain ⟨e, hclosed, hevents⟩ := hevents
        simp only [Called, hclosed, hevents, List.drop_left, List.drop_length, List.map_append]
        refine Within.step s.pipeline _ _ (.emit a.thread e.2)
          (h.mono s.pipeline _ _) (fun t msg hmsg => ?_) ?_
        · cases hmsg
          exact List.mem_append_right _ (List.mem_singleton.mpr rfl)
        · simp only [Pipeline.step, if_pos hflush]
          rfl
    · cases hstep
  | transport a =>
    simp only [System.step] at hstep
    split at hstep
    · next htransport =>
      obtain ⟨p', hpipe, hs'⟩ := Option.map_eq_some_iff.mp hstep
      subst hs'
      refine Within.step s.pipeline p' _ a h (fun t msg hmsg => ?_) hpipe
      rw [hmsg] at htransport
      cases htransport
    · cases hstep

omit [DecidableEq T] in
/-- INTERNAL: nothing is called at the start. -/
theorem called_start (cache : SpanCache) (key : ℕ) (keys : T → ℕ) (cacheAddr capacity : ℕ) :
    Called (System.start cache key keys cacheAddr capacity) where
  pending := fun _ _ hmsg => by cases hmsg
  sent := fun _ hmsg => by cases hmsg

/-- INTERNAL: every message of a run has its call. -/
theorem called_run (cache : SpanCache) (capacity : ℕ) (config : CacheConfig)
    (hcache : SpanCache.withConfig capacity config = some cache) (key : ℕ) (keys : T → ℕ)
    (cacheAddr : ℕ) (steps : List (SystemStep T)) (s : System T)
    (hrun : run System.step (System.start cache key keys cacheAddr capacity) steps = some s) :
    Called s := by
  refine (run_invariant System.step (fun s => Reaching s ∧ Called s) ?_ _ steps s
    ⟨reaching_run cache capacity config hcache key keys cacheAddr [] _ rfl,
      called_start cache key keys cacheAddr capacity⟩ hrun).2
  intro s a s' h hstep
  exact ⟨h.1.step s a s' hstep, h.2.step s s' h.1.delivering.placed a hstep⟩

/-! ## The events of a span that was sent out -/

/-- INTERNAL: `f` is what the driver made of the closed span `c`: it has, behind the events of
`c`, those received for its id before it and not discarded, each the message of a call of `event`.
SRCLINE: driver.rs:115-166 -/
def JoinedTo (s : System T) (c f : SpanRecord) : Prop :=
  ∃ j ∈ s.pipeline.join.joined, j.arrived = c ∧ j.sent = f ∧
    ∃ attached, f = { c with events := c.events ++ attached } ∧
      eventsFor c.id (s.pipeline.join.received.take j.received) =
        discardedFor c.id (s.pipeline.join.discarded.take j.discarded) ++ attached ∧
      ∀ e ∈ attached, ∃ call msg, (call, msg) ∈ s.world.events ∧
        msg.parentActualId = c.id ∧ msg.record = e

/-- INTERNAL: **what the driver sends out is a span that a thread closed with its events**.
SRCLINE: driver.rs:115-166 -/
theorem fannedOut_joinedTo (s : System T) (h : Reaching s) (hcalled : Called s)
    (hlast : s.world.ids.reserved < u64Size) (f : SpanRecord)
    (hf : f ∈ s.pipeline.join.fannedOut) :
    ∃ t c, (t, c) ∈ s.world.closed ∧ JoinedTo s c f := by
  have hcarried := h.delivering.carried
  rw [hcarried.sent] at hf
  obtain ⟨j, hj, hsent⟩ := List.mem_map.mp hf
  have hids := h.distinct.closed s.world hlast
  rw [← h.delivering.closed] at hids
  obtain ⟨attached, hgains, hbefore, -⟩ := (h.joins hids).attached j hj
  have harrived : j.arrived ∈ s.pipeline.taken.map fun e => e.record := by
    rw [← hcarried.arrived]
    exact List.mem_map_of_mem hj
  obtain ⟨e, he, hrecord⟩ := List.mem_map.mp harrived
  have htravels : (e.thread, e.record) ∈ (travelling s.pipeline : Multiset (T × SpanRecord)) :=
    Multiset.mem_coe.mpr (List.mem_append_left _ (List.mem_map.mpr ⟨e, he, rfl⟩))
  have hclosed := Multiset.mem_of_le (hcarried.travelling_le s.pipeline) htravels
  rw [Multiset.mem_coe, h.delivering.closed, hrecord] at hclosed
  refine ⟨e.thread, j.arrived, hclosed, j, hj, rfl, hsent, attached, hsent ▸ hgains, hbefore,
    fun event hevent => ?_⟩
  -- an attached event was received, so it was on the channel, so a call sent it
  have hreceived : event ∈ eventsFor j.arrived.id (s.pipeline.join.received.take j.received) := by
    rw [hbefore]
    exact List.mem_append_right _ hevent
  obtain ⟨msg, hmsg, hmade⟩ := List.mem_map.mp hreceived
  obtain ⟨htaken, hparent⟩ := List.mem_filter.mp hmsg
  have hchannel : msg ∈ s.pipeline.eventsSent :=
    h.caught.received.mem_iff.mp (List.mem_append_left _ (List.mem_of_mem_take htaken))
  obtain ⟨⟨call, m⟩, hcall, rfl⟩ := List.mem_map.mp (hcalled.sent msg hchannel)
  exact ⟨call, m, hcall, of_decide_eq_true hparent, hmade⟩

end TracingConsole.Analysis.Emitted
