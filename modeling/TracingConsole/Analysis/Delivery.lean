import TracingConsole.Analysis.CacheMoves
import TracingConsole.Analysis.PipelineOrder
import TracingConsole.Analysis.Sidecar
import TracingConsole.Model.CachePipeline

/-!
# Every closed span is delivered once

Runs of the whole system keep the invariants of the pipeline, because a step of the cache is a
`close`, an `emit` or nothing to the pipeline.  From the equations of `Carried` the places of
the closed spans of a thread are a partition, and what the driver took from a thread is in the
order of its closes.
-/

set_option autoImplicit false

namespace TracingConsole.Analysis

open TracingConsole.Library TracingConsole.Model TracingConsole.Analysis.Pipeline

variable {T : Type} [DecidableEq T]

/-! ## Steps of the cache, as the pipeline sees them -/

/-- INTERNAL: what the histories of the cache gain in a step. -/
theorem step_logs (w w' : World T) (h : Placed w) (a : CacheStep T) (hstep : w.step a = some w') :
    (∃ closed : Option SpanRecord,
      w'.closed = w.closed ++ closed.toList.map (fun r => (a.thread, r)) ∧ w'.events = w.events) ∨
    (∃ e, w'.closed = w.closed ∧ w'.events = w.events ++ [e]) := by
  cases step_moves w w' h a hstep with
  | event _ call t msg => exact Or.inr ⟨(call, msg), rfl, rfl⟩
  | close t n now sp slot c' =>
    refine Or.inl ⟨(recordAt w.cache slot).map fun r => { r with closedAt := some now }, ?_, rfl⟩
    rfl
  | drop | reject | resolve | accept | reserve | build | pick | insert | store | finish | enter |
    exit | closeDisabled =>
    exact Or.inl ⟨none, (List.append_nil _).symm, rfl⟩

/-- INTERNAL: the system's pipeline takes the step of the cache as its own, or none. -/
theorem cacheStep_pipeline (s s' : System T) (h : Placed s.world) (a : CacheStep T)
    (hstep : s.step (.cache a) = some s') :
    s.world.step a = some s'.world ∧
    ((s'.pipeline = s.pipeline ∧ s'.world.closed = s.world.closed) ∨
     (∃ r, s.pipeline.step (.close a.thread r) = some s'.pipeline ∧
        s'.world.closed = s.world.closed ++ [(a.thread, r)]) ∨
     (∃ msg, s.pipeline.step (.emit a.thread msg) = some s'.pipeline ∧
        s'.world.closed = s.world.closed)) := by
  simp only [System.step] at hstep
  by_cases hflush : s.pipeline.flush a.thread = .idle
  · rw [if_pos hflush, Option.map_eq_some_iff] at hstep
    obtain ⟨w', hworld, heq⟩ := hstep
    subst heq
    refine ⟨hworld, ?_⟩
    cases step_logs s.world w' h a hworld with
    | inl hclosed =>
      obtain ⟨closed, hclosed, hevents⟩ := hclosed
      rw [hclosed, hevents, List.drop_left, List.drop_length]
      cases closed with
      | none => exact Or.inl ⟨rfl, List.append_nil _⟩
      | some r =>
        refine Or.inr (Or.inl ⟨r, ?_, rfl⟩)
        simp only [Pipeline.step, if_pos hflush]
        rfl
    | inr hevents =>
      obtain ⟨e, hclosed, hevents⟩ := hevents
      rw [hclosed, hevents, List.drop_left, List.drop_length]
      refine Or.inr (Or.inr ⟨e.2, ?_, rfl⟩)
      simp only [Pipeline.step, if_pos hflush]
      rfl
  · rw [if_neg hflush] at hstep
    cases hstep

/-- INTERNAL: a flush of a thread closes no span. -/
theorem closed_startFlush (p : Pipeline T) (t : T) : (p.startFlush t).closed = p.closed := by
  simp only [Pipeline.startFlush]
  split <;> rfl

/-- INTERNAL: only `close` adds to the spans closed. -/
theorem closed_step (p p' : Pipeline T) (a : PipelineStep T) (hstep : p.step a = some p') :
    p'.closed = p.closed ++
      match a with
      | .close t r => [(t, r)]
      | _ => [] := by
  cases pipeline_moves p p' a hstep with
  | close t r =>
    simp only [Pipeline.close]
    split
    · exact closed_startFlush _ t
    · rfl
  | emit t msg =>
    simp only [Pipeline.emit, List.append_nil]
    split
    · exact closed_startFlush _ t
    · rfl
  | flushPending t => exact (closed_startFlush p t).trans (List.append_nil _).symm
  | sendEvents t full senders =>
    simp only [Pipeline.sendEvents, List.append_nil]
    split
    · rfl
    · split <;> rfl
  | sendSpans t full senders =>
    simp only [Pipeline.sendSpans, List.append_nil]
    split
    · rfl
    · split <;> rfl
  | noEvents | pollEvents | noSpans | pollSpans | subscribe | dropReceiver =>
    exact (List.append_nil _).symm

/-! ## Runs of the system -/

/-- INTERNAL: the invariant of the whole: the cache is well placed, and its pipeline carries
what it closed. -/
structure Delivering (s : System T) : Prop where
  placed : Placed s.world
  carried : Carried s.pipeline
  served : Served s.pipeline
  closed : s.pipeline.closed = s.world.closed

/-- INTERNAL: a step of the system is a step of the cache, of the pipeline, or of both. -/
theorem system_step (s s' : System T) (h : Placed s.world) (a : SystemStep T)
    (hstep : s.step a = some s') :
    (s'.world = s.world ∨ ∃ c, s.world.step c = some s'.world) ∧
    ((s'.pipeline = s.pipeline ∧ s'.world.closed = s.world.closed) ∨
      ∃ b, s.pipeline.step b = some s'.pipeline ∧
        (s.pipeline.closed = s.world.closed → s'.pipeline.closed = s'.world.closed)) := by
  cases a with
  | cache a =>
    obtain ⟨hworld, hpipeline⟩ := cacheStep_pipeline s s' h a hstep
    refine ⟨Or.inr ⟨a, hworld⟩, ?_⟩
    cases hpipeline with
    | inl hnone => exact Or.inl hnone
    | inr hsome =>
      cases hsome with
      | inl hclose =>
        obtain ⟨r, hpipe, hclosed⟩ := hclose
        refine Or.inr ⟨_, hpipe, fun hsame => ?_⟩
        rw [closed_step _ _ _ hpipe, hclosed, hsame]
      | inr hemit =>
        obtain ⟨msg, hpipe, hclosed⟩ := hemit
        refine Or.inr ⟨_, hpipe, fun hsame => ?_⟩
        rw [closed_step _ _ _ hpipe, hclosed, hsame]
        exact List.append_nil _
  | transport a =>
    simp only [System.step] at hstep
    split at hstep
    · next htransport =>
      obtain ⟨pipeline, hpipe, heq⟩ := Option.map_eq_some_iff.mp hstep
      subst heq
      refine ⟨Or.inl rfl, Or.inr ⟨a, hpipe, fun hsame => ?_⟩⟩
      have hclosed := closed_step _ _ _ hpipe
      show pipeline.closed = s.world.closed
      rw [hclosed, hsame]
      cases a with
      | close t r => cases htransport
      | emit | flushPending | sendEvents | sendSpans | pollEvents | pollSpans | subscribe |
        dropReceiver => exact List.append_nil _
    · cases hstep

/-- INTERNAL: **every step of the system keeps the invariant**. -/
theorem Delivering.step (s : System T) (a : SystemStep T) (s' : System T) (h : Delivering s)
    (hstep : s.step a = some s') : Delivering s' := by
  obtain ⟨hworld, hpipeline⟩ := system_step s s' h.placed a hstep
  have hplaced : Placed s'.world := by
    cases hworld with
    | inl hsame => exact hsame ▸ h.placed
    | inr hmove =>
      obtain ⟨c, hc⟩ := hmove
      exact h.placed.move _ _ c (step_moves _ _ h.placed c hc)
  cases hpipeline with
  | inl hnone =>
    obtain ⟨hsame, hclosed⟩ := hnone
    refine ⟨hplaced, hsame ▸ h.carried, hsame ▸ h.served, ?_⟩
    rw [hsame, hclosed, h.closed]
  | inr hsome =>
    obtain ⟨b, hpipe, hclosed⟩ := hsome
    exact ⟨hplaced, h.carried.step _ _ _ hpipe, h.served.step _ _ _ hpipe, hclosed h.closed⟩

/-- INTERNAL: so it holds of every run. -/
theorem delivering_run (cache : SpanCache) (capacity : ℕ) (config : CacheConfig)
    (hcache : SpanCache.withConfig capacity config = some cache) (key : ℕ) (keys : T → ℕ)
    (cacheAddr : ℕ) (steps : List (SystemStep T)) (s : System T)
    (hrun : run System.step (System.start cache key keys cacheAddr capacity) steps = some s) :
    Delivering s := by
  refine run_invariant System.step Delivering ?_ _ steps s ?_ hrun
  · exact fun s a s' h hstep => h.step s a s' hstep
  · exact ⟨placed_start capacity config cache hcache key keys, carried_start _ _ _,
      served_start _ _ _, rfl⟩

/-! ## Where a closed span is -/

/-- INTERNAL: the places of a thread's closed spans. -/
theorem Carried.places (p : Pipeline T) (h : Carried p) (t : T) :
    (closedBy p t).Perm
      (p.pendingSpan t ++ channelBy p t ++ takenBy p.taken t ++ rejectedBy p t) := by
  have hsplit : ((batchesBy p t).flatMap fun b => b.records).Perm
      (acceptedBy p t ++ rejectedBy p t) := by
    unfold acceptedBy rejectedBy
    rw [← List.flatMap_append]
    exact ((List.filter_append_perm (fun b : SpanBatch T => b.accepted) _).symm).flatMap_right _
  rw [h.drained t]
  have hplaces := List.Perm.append_right (p.pendingSpan t) hsplit
  rw [h.accepted t] at hplaces
  refine hplaces.trans ?_
  rw [← Multiset.coe_eq_coe]
  simp only [← Multiset.coe_add]
  abel

/-- INTERNAL: the spans of a thread that a channel accepted are closed ones, in their order. -/
theorem Carried.acceptedBy_sublist (p : Pipeline T) (h : Carried p) (t : T) :
    (acceptedBy p t).Sublist (closedBy p t) := by
  have hkept : ((batchesBy p t).filter fun b => b.accepted).Sublist (batchesBy p t) :=
    List.filter_sublist
  rw [h.drained t]
  exact (hkept.flatMap _).trans (List.sublist_append_left _ _)

/-- INTERNAL: the driver took the spans of a thread in the order of its closes. -/
theorem Carried.takenBy_sublist (p : Pipeline T) (h : Carried p) (t : T) (count : ℕ) :
    (takenBy (p.taken.drop count) t).Sublist (closedBy p t) := by
  have hdrop : (takenBy (p.taken.drop count) t).Sublist (takenBy p.taken t) :=
    ((List.drop_sublist count p.taken).filter _).map _
  have haccepted : (takenBy p.taken t).Sublist (acceptedBy p t) := by
    rw [h.accepted t]
    exact List.sublist_append_left _ _
  exact hdrop.trans (haccepted.trans (h.acceptedBy_sublist p t))

/-- CODE: cache.rs:283-336, cache.rs:542-567, driver.rs:115-187 — **closed spans are delivered
once and in order**: in any run of a cache, its threads, its driver and its subscribers, the
spans a thread closed are in its buffer, on the channel, fanned out or in a rejected batch; the
driver takes a thread's spans in the order of its closes and sends each one on with its events;
a subscriber that was never full has received what was fanned out since it registered, and only
the senders of dropped receivers are gone. -/
theorem spans_delivered_once (cache : SpanCache) (capacity : ℕ) (config : CacheConfig)
    (hcache : SpanCache.withConfig capacity config = some cache) (key : ℕ) (keys : T → ℕ)
    (cacheAddr : ℕ) (steps : List (SystemStep T)) (s : System T)
    (hrun : run System.step (System.start cache key keys cacheAddr capacity) steps = some s) :
    s.pipeline.closed = s.world.closed ∧
    (∀ t, (closedBy s.pipeline t).Perm
      (s.pipeline.pendingSpan t ++ channelBy s.pipeline t ++ takenBy s.pipeline.taken t ++
        rejectedBy s.pipeline t)) ∧
    (∀ t, closedBy s.pipeline t =
        ((batchesBy s.pipeline t).flatMap fun b => b.records) ++ s.pipeline.pendingSpan t ∧
      acceptedBy s.pipeline t = takenBy s.pipeline.taken t ++ channelBy s.pipeline t) ∧
    (∀ t count, (takenBy (s.pipeline.taken.drop count) t).Sublist (closedBy s.pipeline t)) ∧
    ((s.pipeline.join.joined.map fun j => j.arrived) =
        (s.pipeline.taken.map fun e => e.record) ∧
      s.pipeline.join.fannedOut = (s.pipeline.join.joined.map fun j => j.sent) ∧
      ∀ j ∈ s.pipeline.join.joined, Joined.OnlyGainsEvents j) ∧
    (∀ sub ∈ s.pipeline.subscribers, sub.dropped = false → sub.reportedFull = false →
      ∃ count, s.pipeline.registered[sub.number]? = some count ∧
        sub.delivered = s.pipeline.join.fannedOut.drop count) ∧
    (s.pipeline.subscribers.map fun sub => sub.number).Pairwise (· < ·) ∧
    (∀ n < s.pipeline.registered.length, n ∉ s.pipeline.dropped →
      ∃ sub ∈ s.pipeline.subscribers, sub.number = n ∧ sub.dropped = false) := by
  have h := delivering_run cache capacity config hcache key keys cacheAddr steps s hrun
  refine ⟨h.closed, h.carried.places s.pipeline,
    fun t => ⟨h.carried.drained t, h.carried.accepted t⟩, h.carried.takenBy_sublist s.pipeline,
    ⟨h.carried.arrived, h.carried.sent, h.carried.gains⟩, ?_, h.served.numbers, ?_⟩
  · intro sub hsub hlive hfull
    have hcount := List.getElem?_eq_getElem (h.served.registered sub hsub)
    exact ⟨_, hcount, h.served.delivered sub hsub hlive hfull _ hcount⟩
  · intro n hn hlive
    obtain ⟨sub, hsub, hnumber⟩ := h.served.kept n hn hlive
    refine ⟨sub, hsub, hnumber, ?_⟩
    rw [← Bool.not_eq_true, h.served.dropped sub hsub, hnumber]
    exact hlive

/-- INTERNAL: a subscriber registers; a thread closes a child and its root, which has an event, in
two batches, and the other thread a root of its own; the driver takes the other thread's batch
first; then the other thread's next batch is rejected, and a root of the first stays in its
buffer. -/
def twoThreads : List (SystemStep Bool) :=
  let callsite : Metadata := { name := "event", target := "app", level := .info }
  let flush (t full : Bool) : List (SystemStep Bool) :=
    [.transport (.flushPending t), .transport (.sendEvents t false),
      .transport (.sendSpans t full)]
  let openAgain (t : Bool) : List (CacheStep Bool) :=
    [.newSpan t .root callsite [], .predicate t true, .allocate t 7, .pickShard t, .insert t 0,
      .store t, .finish t]
  let nested : List (CacheStep Bool) :=
    openRoot false ++ [.enter false 0, .event false none callsite [] 3] ++ openChild false
  [.transport .subscribe] ++ nested.map .cache ++ [.cache (.tryClose false 1 5)] ++
    flush false false ++ [.cache (.exit false), .cache (.tryClose false 0 6)] ++
    flush false false ++ (openRoot true).map .cache ++ [.cache (.tryClose true 2 6)] ++
    flush true false ++
    [.transport (.pollEvents [0]), .transport (.pollEvents []),
      .transport (.pollSpans [1, 0, 0] [])] ++
    (openAgain true).map .cache ++ [.cache (.tryClose true 3 8)] ++ flush true true ++
    (openAgain false).map .cache ++ [.cache (.tryClose false 4 9)]

/-- CODE: cache.rs:298-336, driver.rs:115-187 — the subscriber has the three spans of the batches
that were not rejected, those of a thread in its order, the root with its event. -/
theorem spans_delivered_once_two_threads :
    ∃ s, run System.step (System.start twoSlots 0 (fun _ => 0) 7 2) twoThreads = some s ∧
      (s.pipeline.subscribers.map fun sub => sub.delivered.map fun r => (r.id, r.events.length)) =
        [[(2048, 0), (1025, 0), (1024, 1)]] ∧
      (closedBy s.pipeline false).map SpanRecord.id = [1025, 1024, 1026] ∧
      (rejectedBy s.pipeline true).map SpanRecord.id = [2049] ∧
      (∀ t, (closedBy s.pipeline t).Perm
        (s.pipeline.pendingSpan t ++ channelBy s.pipeline t ++ takenBy s.pipeline.taken t ++
          rejectedBy s.pipeline t)) ∧
      ∀ t count, (takenBy (s.pipeline.taken.drop count) t).Sublist (closedBy s.pipeline t) := by
  have hends : ((run System.step (System.start twoSlots 0 (fun _ => 0) 7 2) twoThreads).map
      fun s =>
        ((s.pipeline.subscribers.map fun sub => sub.delivered.map fun r =>
          (r.id, r.events.length)), (closedBy s.pipeline false).map SpanRecord.id,
          (rejectedBy s.pipeline true).map SpanRecord.id)) =
      some ([[(2048, 0), (1025, 0), (1024, 1)]], [1025, 1024, 1026], [2049]) := by
    decide +kernel
  obtain ⟨s, hrun, hread⟩ := Option.map_eq_some_iff.mp hends
  simp only [Prod.mk.injEq] at hread
  obtain ⟨hdelivered, hclosed, hrejected⟩ := hread
  obtain ⟨-, hplaces, -, horder, -⟩ := spans_delivered_once twoSlots 2
    { laneCount := 1, pendingBatch := 8 } (by decide) 0 (fun _ => 0) 7 twoThreads s hrun
  exact ⟨s, hrun, hdelivered, hclosed, hrejected, hplaces, horder⟩

end TracingConsole.Analysis
