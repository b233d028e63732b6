import TracingConsole.Library.Since
import TracingConsole.Model.SpanStreams

/-!
# Stopped streams

Stopping a connection clears the flag that all its streams consult, starting it once more sets
it again.  A stream therefore stays stopped as long as it has ended before the connection is
started again, and as long as no span of a batch it has read is still to be sent when the
connection is stopped (`stopped_stays_stopped_iff`).
-/

set_option autoImplicit false

namespace TracingConsole.Analysis.SpanStreams

open TracingConsole.Library TracingConsole.Model TracingConsole.Model.ConnectionState

/-! ## Histories -/

/-- INTERNAL: a request to start a stream. -/
def isStart : StreamStep → Bool
  | .request _ .startStream => true
  | _ => false

/-- INTERNAL: a request to stop the stream. -/
def isStop : StreamStep → Bool
  | .request _ .stopStream => true
  | _ => false

/-- INTERNAL: how many streams have been started. -/
def started (steps : List StreamStep) : ℕ := steps.countP isStart

/-- INTERNAL: **stopped since**: a `StopStream` was handled when the stream `n` had been
started. -/
def StoppedSince (steps : List StreamStep) (n : ℕ) : Prop :=
  ∃ before l after, steps = before ++ l :: after ∧ isStop l = true ∧ n < started before

/-- INTERNAL: one more step starts one more stream, or none. -/
theorem started_snoc (steps : List StreamStep) (l : StreamStep) :
    started (steps ++ [l]) = started steps + if isStart l then 1 else 0 := by
  unfold started
  rw [List.countP_append, List.countP_singleton]

/-- INTERNAL: only a stream that was started is stopped. -/
theorem StoppedSince.lt_started (steps : List StreamStep) (n : ℕ) (h : StoppedSince steps n) :
    n < started steps := by
  obtain ⟨before, l, after, hsteps, -, hlt⟩ := h
  have hle : started before ≤ started steps := by
    rw [hsteps]
    exact (List.sublist_append_left before (l :: after)).countP_le
  omega

/-- INTERNAL: one more step stops the streams so far, or none. -/
theorem stoppedSince_snoc (steps : List StreamStep) (l : StreamStep) (n : ℕ) :
    StoppedSince (steps ++ [l]) n ↔
      StoppedSince steps n ∨ isStop l = true ∧ n < started steps := by
  constructor
  · intro h
    obtain ⟨before, k, after, hsteps, hstop, hlt⟩ := h
    cases after using List.reverseRecOn with
    | nil =>
      obtain ⟨hbefore, hlast⟩ := List.append_inj' hsteps rfl
      have hk : l = k := List.singleton_inj.mp hlast
      rw [← hk] at hstop
      rw [← hbefore] at hlt
      exact Or.inr ⟨hstop, hlt⟩
    | append_singleton after last _ =>
      rw [← List.cons_append, ← List.append_assoc] at hsteps
      obtain ⟨hbefore, -⟩ := List.append_inj' hsteps rfl
      exact Or.inl ⟨before, k, after, hbefore, hstop, hlt⟩
  · intro h
    rcases h with hearlier | ⟨hstop, hlt⟩
    · obtain ⟨before, k, after, hsteps, hstop, hlt⟩ := hearlier
      refine ⟨before, k, after ++ [l], ?_, hstop, hlt⟩
      rw [hsteps, List.append_assoc, List.cons_append]
    · exact ⟨steps, l, [], rfl, hstop, hlt⟩

/-- INTERNAL: a step that stops nothing. -/
theorem stoppedSince_other (steps : List StreamStep) (l : StreamStep) (n : ℕ)
    (hl : isStop l = false) : StoppedSince (steps ++ [l]) n ↔ StoppedSince steps n := by
  rw [stoppedSince_snoc, hl]
  simp

/-- INTERNAL: what is stopped stays so. -/
theorem StoppedSince.append (steps more : List StreamStep) (n : ℕ) (h : StoppedSince steps n) :
    StoppedSince (steps ++ more) n := by
  obtain ⟨before, l, after, hsteps, hstop, hlt⟩ := h
  refine ⟨before, l, after ++ more, ?_, hstop, hlt⟩
  rw [hsteps, List.append_assoc, List.cons_append]

/-! ## The property and the condition -/

/-- INTERNAL: **a stopped stream stays stopped**: no span is sent on a stream that has been
stopped since it was started. -/
def StaysStopped (steps : List StreamStep) : Prop :=
  ∀ before l, before ++ [l] <+: steps → ∀ c, run step ConnectionState.new before = some c →
    ∀ n record, c.forwarded l = some (n, record) → ¬ StoppedSince before n

/-- INTERNAL: a `StartStream` finds no running stream that has been stopped, and a `StopStream`
none that is yet to send a span of the batch it has read. -/
def RequestFits (before : List StreamStep) (c : ConnectionState) : StreamStep → Prop
  | .request _ .startStream => ∀ n t, c.tasks[n]? = some t → t.ended = false →
    ¬ StoppedSince before n
  | .request _ .stopStream => ∀ (n : ℕ) (t : SpanTask), c.tasks[n]? = some t → t.ended = false →
    ∀ record ∈ t.batch, t.passes record = false
  | _ => True

/-- INTERNAL: anything but a `StartStream` or a `StopStream`. -/
def Traffic (l : StreamStep) : Prop := isStart l = false ∧ isStop l = false

/-- INTERNAL: traffic meets the condition on requests. -/
theorem Traffic.fits (before : List StreamStep) (c : ConnectionState) (l : StreamStep)
    (h : Traffic l) : RequestFits before c l := by
  cases l with
  | request id body =>
    cases body with
    | startStream => exact absurd h.1 (by simp [isStart])
    | stopStream => exact absurd h.2 (by simp [isStop])
    | _ => trivial
  | _ => trivial

/-! ## One step -/

/-- INTERNAL: while the flag is set no running task has been stopped, and none that has been
stopped is yet to send a span. -/
structure Stopping (steps : List StreamStep) (c : ConnectionState) : Prop where
  live : c.state.streaming = true → ∀ (n : ℕ) (t : SpanTask), c.tasks[n]? = some t →
    t.ended = false → ¬ StoppedSince steps n
  under : ∀ (n : ℕ) (t : SpanTask), c.tasks[n]? = some t → t.ended = false →
    ∀ record ∈ t.batch, t.passes record = true → ¬ StoppedSince steps n

/-- INTERNAL: a new connection has nothing to stop. -/
theorem stopping_new : Stopping [] ConnectionState.new := by
  have hnone (n : ℕ) (t : SpanTask) : ¬ ConnectionState.new.tasks[n]? = some t := by
    simp [ConnectionState.new]
  exact ⟨fun _ n t ht => absurd ht (hnone n t), fun n t ht => absurd ht (hnone n t)⟩

/-- INTERNAL: a step of traffic that changes the tasks one by one. -/
theorem Stopping.traffic (steps : List StreamStep) (c c' : ConnectionState) (l : StreamStep)
    (h : Stopping steps c) (hl : Traffic l)
    (hflag : c'.state.streaming = c.state.streaming)
    (htasks : ∀ (n : ℕ) (t' : SpanTask), c'.tasks[n]? = some t' → t'.ended = false →
      ∃ t, c.tasks[n]? = some t ∧ t.ended = false ∧
        ∀ record ∈ t'.batch, t'.passes record = true →
          c.state.streaming = true ∨ record ∈ t.batch ∧ t.passes record = true) :
    Stopping (steps ++ [l]) c' := by
  refine ⟨?_, ?_⟩
  · intro hstreaming n t' ht' hopen
    obtain ⟨t, ht, hended, -⟩ := htasks n t' ht' hopen
    rw [stoppedSince_other steps l n hl.2]
    rw [hflag] at hstreaming
    exact h.live hstreaming n t ht hended
  · intro n t' ht' hopen record hrecord hpasses
    obtain ⟨t, ht, hended, hbatch⟩ := htasks n t' ht' hopen
    rw [stoppedSince_other steps l n hl.2]
    rcases hbatch record hrecord hpasses with hstreaming | ⟨hin, hsame⟩
    · exact h.live hstreaming n t ht hended
    · exact h.under n t ht hended record hin hsame

/-- INTERNAL: a step of a task is one of a task that runs. -/
theorem withTask_eq_some (c c' : ConnectionState) (n : ℕ) (f : SpanTask → Option SpanTask)
    (h : c.withTask n f = some c') :
    ∃ t t', c.tasks[n]? = some t ∧ t.ended = false ∧ f t = some t' ∧
      c' = { c with tasks := c.tasks.set n t' } := by
  unfold withTask at h
  split at h
  · next t ht =>
    split at h
    · cases h
    · next hended =>
      obtain ⟨t', ht', hc'⟩ := Option.map_eq_some_iff.mp h
      exact ⟨t, t', ht, eq_false_of_ne_true hended, ht', hc'.symm⟩
  · cases h

/-- INTERNAL: a step of one task. -/
theorem Stopping.withTask (steps : List StreamStep) (c c' : ConnectionState) (l : StreamStep)
    (n : ℕ) (f : SpanTask → Option SpanTask) (h : Stopping steps c) (hl : Traffic l)
    (hstep : c.withTask n f = some c')
    (hf : ∀ t t', f t = some t' → t'.ended = false →
      ∀ record ∈ t'.batch, t'.passes record = true →
        c.state.streaming = true ∨ record ∈ t.batch ∧ t.passes record = true) :
    Stopping (steps ++ [l]) c' := by
  obtain ⟨t, t', ht, hended, hft, hc'⟩ := withTask_eq_some c c' n f hstep
  rw [hc']
  refine h.traffic steps c _ l hl rfl ?_
  intro k u hu hopen
  rw [List.getElem?_set] at hu
  split at hu
  · next hk =>
    subst hk
    rw [if_pos (List.getElem?_eq_some_iff.mp ht).1] at hu
    have hsame := Option.some.inj hu
    subst hsame
    exact ⟨t, ht, hended, hf t t' hft hopen⟩
  · exact ⟨u, hu, hopen, fun record hin hpasses => Or.inr ⟨hin, hpasses⟩⟩

/-- INTERNAL: a task of a fan-out differs in its channel only. -/
theorem deliver_frame (t : SpanTask) (full : Bool) (batch : List SpanRecord) :
    (t.deliver full batch).batch = t.batch ∧ (t.deliver full batch).ended = t.ended ∧
      (t.deliver full batch).minLevel = t.minLevel ∧
      (t.deliver full batch).samplingRate = t.samplingRate := by
  unfold SpanTask.deliver
  split <;> exact ⟨rfl, rfl, rfl, rfl⟩

/-- INTERNAL: the filters of a task are its level and its rate. -/
theorem passes_congr (t t' : SpanTask) (record : SpanRecord) (hlevel : t'.minLevel = t.minLevel)
    (hrate : t'.samplingRate = t.samplingRate) : t'.passes record = t.passes record := by
  unfold SpanTask.passes
  rw [hlevel, hrate]

/-- INTERNAL: a request that is no start or stop touches the filters only. -/
theorem newRpc_traffic (c : ConnectionState) (id : ℕ) (body : StreamRequest)
    (h : Traffic (.request id body)) : (c.newRpc id body).tasks = c.tasks ∧
      (c.newRpc id body).state.streaming = c.state.streaming := by
  cases body with
  | startStream => exact absurd h.1 (by simp [isStart])
  | stopStream => exact absurd h.2 (by simp [isStop])
  | setSamplingRate rate =>
    simp only [newRpc]
    split <;> exact ⟨rfl, rfl⟩
  | noop | setLevel _ | setCacheLevel _ | setCacheChance _ => exact ⟨rfl, rfl⟩

/-- INTERNAL: what a task tells changes no task. -/
theorem step_tell_eq (c c' : ConnectionState) (n : ℕ) (response : StreamResponse)
    (h : c.step (.tell n response) = some c') :
    ∃ t, c.tasks[n]? = some t ∧ t.tells response = true ∧
      c' = c.respond t.requestId response := by
  obtain ⟨t, ht, hc'⟩ := Option.map_eq_some_iff.mp h
  obtain ⟨htask, hguard⟩ := Option.filter_eq_some_iff.mp ht
  rw [Bool.and_eq_true] at hguard
  exact ⟨t, htask, hguard.2, hc'.symm⟩

/-- INTERNAL: a request that starts and stops nothing. -/
theorem Stopping.otherRequest (steps : List StreamStep) (c : ConnectionState) (id : ℕ)
    (body : StreamRequest) (h : Stopping steps c) (hbody : Traffic (.request id body)) :
    Stopping (steps ++ [.request id body]) (c.newRpc id body) := by
  obtain ⟨htasks, hflag⟩ := newRpc_traffic c id body hbody
  refine h.traffic steps c _ _ hbody hflag fun n t ht hopen => ?_
  rw [htasks] at ht
  exact ⟨t, ht, hopen, fun record hin hpasses => Or.inr ⟨hin, hpasses⟩⟩

/-- INTERNAL: the next span of a batch, sent or skipped, is no longer under way. -/
theorem step_forward_eq (c c' : ConnectionState) (n : ℕ) (h : c.step (.forward n) = some c') :
    ∃ c₁, c.withTask n SpanTask.next = some c₁ ∧ c'.tasks = c₁.tasks ∧ c'.state = c₁.state := by
  obtain ⟨c₁, hnext, hc'⟩ := Option.map_eq_some_iff.mp h
  refine ⟨c₁, hnext, ?_⟩
  rw [← hc']
  split <;> exact ⟨rfl, rfl⟩

/-- INTERNAL: the task takes the first span of its batch. -/
theorem next_eq_some (t t' : SpanTask) (h : t.next = some t') :
    ∃ record, t.batch = record :: t'.batch ∧ t' = { t with batch := t'.batch } := by
  unfold SpanTask.next at h
  split at h
  · next record rest hbatch =>
    cases h
    exact ⟨record, hbatch, rfl⟩
  · cases h

/-- INTERNAL: the tasks and the state of the connection are all there is to it. -/
theorem Stopping.congr (steps : List StreamStep) (c c' : ConnectionState)
    (h : Stopping steps c) (htasks : c'.tasks = c.tasks) (hstate : c'.state = c.state) :
    Stopping steps c' := by
  refine ⟨?_, ?_⟩
  · rw [htasks, hstate]
    exact h.live
  · rw [htasks]
    exact h.under

/-- INTERNAL: a start, when no running stream has been stopped. -/
theorem Stopping.start (steps : List StreamStep) (c : ConnectionState) (id : ℕ)
    (h : Stopping steps c) (hcount : c.tasks.length = started steps)
    (hfits : RequestFits steps c (.request id .startStream)) :
    Stopping (steps ++ [.request id .startStream]) (c.newRpc id .startStream) := by
  have hsince (n : ℕ) : StoppedSince (steps ++ [.request id .startStream]) n ↔
      StoppedSince steps n := stoppedSince_other steps _ n rfl
  have htasks : ∀ (n : ℕ) (t : SpanTask), (c.newRpc id .startStream).tasks[n]? = some t →
      c.tasks[n]? = some t ∨ n = started steps ∧ t.batch = [] := by
    intro n t ht
    simp only [newRpc] at ht
    by_cases hold : n < c.tasks.length
    · rw [List.getElem?_append_left hold] at ht
      exact Or.inl ht
    · rw [List.getElem?_append_right (Nat.le_of_not_lt hold)] at ht
      have hlast := List.getElem?_eq_some_iff.mp ht
      obtain ⟨hlt, hget⟩ := hlast
      rw [List.length_singleton] at hlt
      refine Or.inr ⟨?_, ?_⟩
      · rw [← hcount]
        omega
      · rw [List.getElem_singleton] at hget
        rw [← hget]
  have hnew : ¬ StoppedSince steps (started steps) := fun hsince =>
    Nat.lt_irrefl _ hsince.lt_started
  refine ⟨?_, ?_⟩
  · intro _ n t ht hopen
    rw [hsince]
    rcases htasks n t ht with hold | ⟨hn, -⟩
    · exact hfits n t hold hopen
    · rw [hn]
      exact hnew
  · intro n t ht hopen record hrecord hpasses
    rw [hsince]
    rcases htasks n t ht with hold | ⟨hn, -⟩
    · exact h.under n t hold hopen record hrecord hpasses
    · rw [hn]
      exact hnew

/-- INTERNAL: a stop, when no running stream is yet to send a span. -/
theorem stopping_stop (steps : List StreamStep) (c : ConnectionState) (id : ℕ)
    (hfits : RequestFits steps c (.request id .stopStream)) :
    Stopping (steps ++ [.request id .stopStream]) (c.newRpc id .stopStream) := by
  refine ⟨?_, ?_⟩
  · intro hstreaming
    simp [newRpc, respond] at hstreaming
  · intro n t ht hopen record hrecord hpasses
    have hnone := hfits n t ht hopen record hrecord
    rw [hpasses] at hnone
    cases hnone

/-- INTERNAL: **the step lemma**. -/
theorem Stopping.step (steps : List StreamStep) (c c' : ConnectionState) (l : StreamStep)
    (h : Stopping steps c) (hcount : c.tasks.length = started steps)
    (hfits : RequestFits steps c l) (hstep : c.step l = some c') :
    Stopping (steps ++ [l]) c' := by
  cases l with
  | request id body =>
    have hc' : c.newRpc id body = c' := Option.some.inj hstep
    rw [← hc']
    cases body with
    | startStream => exact h.start steps c id hcount hfits
    | stopStream => exact stopping_stop steps c id hfits
    | _ => exact h.otherRequest steps c id _ ⟨rfl, rfl⟩
  | tell n response =>
    obtain ⟨t, -, -, hc'⟩ := step_tell_eq c c' n response hstep
    rw [hc']
    exact h.traffic steps c _ _ ⟨rfl, rfl⟩ rfl fun k u hu hopen =>
      ⟨u, hu, hopen, fun record hin hpasses => Or.inr ⟨hin, hpasses⟩⟩
  | subscribe n =>
    refine h.withTask steps c c' _ n _ ⟨rfl, rfl⟩ hstep fun t t' ht' hopen record hin hpasses => ?_
    unfold SpanTask.subscribe at ht'
    split at ht'
    · cases ht'
      exact Or.inr ⟨hin, hpasses⟩
    · cases ht'
  | fanout batch full =>
    have hc' := Option.some.inj hstep
    rw [← hc']
    refine h.traffic steps c _ _ ⟨rfl, rfl⟩ rfl fun n t' ht' hopen => ?_
    dsimp only at ht'
    rw [List.getElem?_mapIdx] at ht'
    obtain ⟨t, ht, hdelivered⟩ := Option.map_eq_some_iff.mp ht'
    obtain ⟨hbatch, hended, hlevel, hrate⟩ := deliver_frame t (decide (n ∈ full)) batch
    rw [hdelivered] at hbatch hended hlevel hrate
    refine ⟨t, ht, hended ▸ hopen, fun record hin hpasses => Or.inr ⟨hbatch ▸ hin, ?_⟩⟩
    rw [← passes_congr t t' record hlevel hrate]
    exact hpasses
  | read n k =>
    refine h.withTask steps c c' _ n _ ⟨rfl, rfl⟩ hstep fun t t' ht' hopen record hin hpasses => ?_
    unfold SpanTask.read at ht'
    split at ht'
    · split at ht'
      · cases ht'
        by_cases hstreaming : c.state.streaming = true
        · exact Or.inl hstreaming
        · simp [hstreaming] at hin
      · cases ht'
    · cases ht'
  | forward n =>
    obtain ⟨c₁, hnext, htasks, hstate⟩ := step_forward_eq c c' n hstep
    refine Stopping.congr _ c₁ c' ?_ htasks hstate
    refine h.withTask steps c c₁ _ n _ ⟨rfl, rfl⟩ hnext fun t t' ht' _ record hin hpasses => ?_
    obtain ⟨first, hbatch, ht'⟩ := next_eq_some t t' ht'
    refine Or.inr ⟨?_, ?_⟩
    · rw [hbatch]
      exact List.mem_cons_of_mem first hin
    · rw [ht'] at hpasses
      exact hpasses
  | finish n =>
    refine h.withTask steps c c' _ n _ ⟨rfl, rfl⟩ hstep fun t t' ht' hopen => ?_
    cases ht'
    cases hopen

/-! ## Every run -/

/-- INTERNAL: a step starts at most one task. -/
theorem step_length (c c' : ConnectionState) (l : StreamStep) (hstep : c.step l = some c') :
    c'.tasks.length = c.tasks.length + if isStart l then 1 else 0 := by
  have hwith (n : ℕ) (f : SpanTask → Option SpanTask) (c' : ConnectionState)
      (h : c.withTask n f = some c') : c'.tasks.length = c.tasks.length := by
    obtain ⟨t, t', -, -, -, hc'⟩ := withTask_eq_some c c' n f h
    rw [hc']
    exact List.length_set
  cases l with
  | request id body =>
    have hc' : c.newRpc id body = c' := Option.some.inj hstep
    rw [← hc']
    cases body with
    | startStream =>
      simp only [newRpc]
      rw [List.length_append]
      rfl
    | setSamplingRate rate =>
      rw [(newRpc_traffic c id (.setSamplingRate rate) ⟨rfl, rfl⟩).1]
      rfl
    | _ => rfl
  | tell n response =>
    obtain ⟨t, -, -, hc'⟩ := step_tell_eq c c' n response hstep
    rw [hc']
    rfl
  | subscribe n => exact hwith n _ c' hstep
  | fanout batch full =>
    have hc' := Option.some.inj hstep
    rw [← hc']
    exact List.length_mapIdx
  | read n k => exact hwith n _ c' hstep
  | forward n =>
    obtain ⟨c₁, hnext, htasks, -⟩ := step_forward_eq c c' n hstep
    rw [htasks]
    exact hwith n _ c₁ hnext
  | finish n => exact hwith n _ c' hstep

/-- INTERNAL: a connection has a task for every stream started. -/
theorem tasks_length_run (steps : List StreamStep) (c : ConnectionState)
    (hrun : run ConnectionState.step ConnectionState.new steps = some c) :
    c.tasks.length = started steps := by
  induction steps using List.reverseRecOn generalizing c with
  | nil =>
    cases hrun
    rfl
  | append_singleton steps l ih =>
    obtain ⟨c₁, h₁, hlast⟩ := (run_snoc_eq_some _ _ steps l c).mp hrun
    rw [step_length c₁ c l hlast, ih c₁ h₁, started_snoc]

/-- INTERNAL: **the run lemma**, for the runs whose requests all fit. -/
theorem stopping_run (steps : List StreamStep) (c : ConnectionState)
    (hfits : ∀ before l, before ++ [l] <+: steps →
      ∀ c, run ConnectionState.step ConnectionState.new before = some c → RequestFits before c l)
    (hrun : run ConnectionState.step ConnectionState.new steps = some c) : Stopping steps c := by
  induction steps using List.reverseRecOn generalizing c with
  | nil =>
    cases hrun
    exact stopping_new
  | append_singleton steps l ih =>
    obtain ⟨c₁, h₁, hlast⟩ := (run_snoc_eq_some _ _ steps l c).mp hrun
    have hearlier := ih c₁ (fun before k hbefore =>
      hfits before k (hbefore.trans (List.prefix_append steps [l]))) h₁
    exact hearlier.step steps c₁ c l (tasks_length_run steps c₁ h₁)
      (hfits steps l List.prefix_rfl c₁ h₁) hlast

/-- INTERNAL: who sends a span, and which. -/
theorem forwarded_eq_some (c : ConnectionState) (l : StreamStep) (n : ℕ) (record : SpanRecord)
    (h : c.forwarded l = some (n, record)) :
    l = .forward n ∧ ∃ t rest, c.tasks[n]? = some t ∧ t.ended = false ∧
      t.batch = record :: rest ∧ t.passes record = true := by
  cases l with
  | forward m =>
    unfold forwarded at h
    dsimp only at h
    split at h
    · next t ht =>
      obtain ⟨head, hhead, heq⟩ := Option.map_eq_some_iff.mp h
      obtain ⟨hfirst, hguard⟩ := Option.filter_eq_some_iff.mp hhead
      obtain ⟨rest, hbatch⟩ := List.head?_eq_some_iff.mp hfirst
      rw [Bool.and_eq_true] at hguard
      cases heq
      refine ⟨rfl, t, rest, ht, ?_, hbatch, hguard.2⟩
      simpa using hguard.1
    · cases h
  | _ => cases h

/-- INTERNAL: **under the condition a stopped stream stays stopped**. -/
theorem staysStopped_of_fits (steps : List StreamStep)
    (hfits : ∀ before l, before ++ [l] <+: steps →
      ∀ c, run ConnectionState.step ConnectionState.new before = some c → RequestFits before c l) :
    StaysStopped steps := by
  intro before l hbefore c hrun n record hforwarded
  have hstopping := stopping_run before c (fun before' k hk =>
    hfits before' k (hk.trans ((List.prefix_append before [l]).trans hbefore))) hrun
  obtain ⟨-, t, rest, ht, hopen, hbatch, hpasses⟩ := forwarded_eq_some c l n record hforwarded
  exact hstopping.under n t ht hopen record (by rw [hbatch]; exact List.mem_cons_self) hpasses

/-! ## What a failing request leads to -/

/-- INTERNAL: with some traffic from here, the stream `n` comes to send a span. -/
def CanSend (c : ConnectionState) (n : ℕ) : Prop :=
  ∃ more c' record, (∀ l ∈ more, Traffic l) ∧ run ConnectionState.step c more = some c' ∧
    c'.forwarded (.forward n) = some (n, record)

/-- INTERNAL: traffic makes no task able to send. -/
theorem CanSend.step (c c' : ConnectionState) (l : StreamStep) (n : ℕ) (hl : Traffic l)
    (hstep : c.step l = some c') (h : CanSend c' n) : CanSend c n := by
  obtain ⟨more, c₂, record, hmore, hrun, hforwarded⟩ := h
  refine ⟨l :: more, c₂, record, ?_, ?_, hforwarded⟩
  · intro k hk
    rcases List.mem_cons.mp hk with hfirst | hrest
    · rw [hfirst]
      exact hl
    · exact hmore k hrest
  · rw [run_cons, hstep]
    exact hrun

/-- INTERNAL: a step of a running task is a step of the connection. -/
theorem withTask_open (c : ConnectionState) (n : ℕ) (t t' : SpanTask)
    (f : SpanTask → Option SpanTask) (ht : c.tasks[n]? = some t) (hopen : t.ended = false)
    (hf : f t = some t') : c.withTask n f = some { c with tasks := c.tasks.set n t' } := by
  unfold withTask
  simp [ht, hopen, hf]

/-- INTERNAL: the task that was written is found. -/
theorem getElem?_set_task (c : ConnectionState) (n : ℕ) (t t' : SpanTask)
    (ht : c.tasks[n]? = some t) : (c.tasks.set n t')[n]? = some t' :=
  List.getElem?_set_self (List.getElem?_eq_some_iff.mp ht).1

/-- INTERNAL: a step over the next span of a batch. -/
theorem step_forward (c : ConnectionState) (n : ℕ) (t : SpanTask) (record : SpanRecord)
    (rest : List SpanRecord) (ht : c.tasks[n]? = some t) (hopen : t.ended = false)
    (hbatch : t.batch = record :: rest) :
    ∃ c', c.step (.forward n) = some c' ∧ c'.tasks[n]? = some { t with batch := rest } ∧
      c'.state = c.state := by
  have hnext : t.next = some { t with batch := rest } := by
    unfold SpanTask.next
    rw [hbatch]
  have hwith := withTask_open c n t _ SpanTask.next ht hopen hnext
  obtain ⟨c', hc'⟩ : ∃ c', c.step (.forward n) = some c' := by
    unfold ConnectionState.step
    dsimp only
    rw [hwith]
    exact ⟨_, rfl⟩
  obtain ⟨c₁, hc₁, htasks, hstate⟩ := step_forward_eq c c' n hc'
  have hsame := Option.some.inj (hwith.symm.trans hc₁)
  refine ⟨c', hc', ?_, ?_⟩
  · rw [htasks, ← hsame]
    exact getElem?_set_task c n t _ ht
  · rw [hstate, ← hsame]

/-- INTERNAL: a span of the batch under way is sent in the end. -/
theorem canSend_left (batch : List SpanRecord) (c : ConnectionState) (n : ℕ) (t : SpanTask)
    (ht : c.tasks[n]? = some t) (hopen : t.ended = false) (hbatch : t.batch = batch)
    (record : SpanRecord) (hrecord : record ∈ batch) (hpasses : t.passes record = true) :
    CanSend c n := by
  induction batch generalizing c t with
  | nil => cases hrecord
  | cons first rest ih =>
    by_cases hfirst : t.passes first = true
    · refine ⟨[], c, first, fun l hl => absurd hl List.not_mem_nil, rfl, ?_⟩
      simp [forwarded, ht, hbatch, hopen, hfirst]
    · rcases List.mem_cons.mp hrecord with hhead | htail
      · rw [hhead] at hpasses
        exact absurd hpasses hfirst
      · obtain ⟨c', hc', ht', -⟩ := step_forward c n t first rest ht hopen hbatch
        refine CanSend.step c c' _ n ⟨rfl, rfl⟩ hc' ?_
        exact ih c' _ ht' hopen rfl htail hpasses

/-- INTERNAL: a span that passes every filter once the sampling rate is one. -/
def loud : SpanRecord :=
  { id := 0
    parentId := none
    metadata := { name := "", target := "", level := .error }
    fields := []
    events := []
    openedAt := 0
    closedAt := some 0 }

/-- INTERNAL: at the full rate every span passes. -/
theorem passes_loud (t : SpanTask) (hrate : t.samplingRate = F64.one) : t.passes loud = true := by
  have hone : F64.one.toRat = 1 := by
    have hmsb : F64.one.bits.msb = false := by decide
    unfold F64.toRat
    rw [hmsb]
    norm_num [F64.one]
  unfold SpanTask.passes
  rw [hrate, hone, Bool.and_eq_true]
  refine ⟨?_, ?_⟩
  · cases t.minLevel with
    | none => rfl
    | some min => exact decide_eq_true (Nat.zero_le _)
  · unfold samplingPasses
    rw [if_pos le_rfl]

/-- INTERNAL: with the flag set, a subscribed stream between two batches. -/
theorem canSend_subscribed (c : ConnectionState) (n : ℕ) (t : SpanTask) (rx : List SpanRecord)
    (ht : c.tasks[n]? = some t) (hopen : t.ended = false) (hbatch : t.batch = [])
    (hrx : t.spanRx = some rx) (hstreaming : c.state.streaming = true) : CanSend c n := by
  let c₁ := { c with state := { c.state with samplingRate := F64.one } }.respond 0 .ack
  have h₁ : c.step (.request 0 (.setSamplingRate F64.one)) = some c₁ := by
    have hrange : (F64.one.lt F64.zero || F64.one.lt F64.one || F64.one.isNan) = false := by
      decide
    simp [ConnectionState.step, newRpc, hrange, c₁]
  let t₂ := { t with spanRx := some (rx ++ [loud]) }
  let c₂ := { c₁ with tasks := c₁.tasks.mapIdx fun k u => SpanTask.deliver u (k ∈ ([] : List ℕ)) [loud] }
  have h₂ : c₁.step (.fanout [loud] []) = some c₂ := rfl
  have ht₂ : c₂.tasks[n]? = some t₂ := by
    have hdeliver : t.deliver (decide (n ∈ ([] : List ℕ))) [loud] = t₂ := by
      simp [SpanTask.deliver, hopen, hrx, t₂]
    show (c.tasks.mapIdx fun k u => u.deliver (decide (k ∈ ([] : List ℕ))) [loud])[n]? = some t₂
    rw [List.getElem?_mapIdx, ht, Option.map_some, hdeliver]
  let t₃ := { t₂ with
    spanRx := some ((rx ++ [loud]).drop (rx.length + 1))
    minLevel := c₂.state.minLevel
    samplingRate := F64.one
    batch := rx ++ [loud] }
  have hread : t₂.read c₂.state (rx.length + 1) = some t₃ := by
    have hflag : c₂.state.streaming = true := hstreaming
    have htake : (rx ++ [loud]).take (rx.length + 1) = rx ++ [loud] :=
      List.take_of_length_le (by rw [List.length_append]; rfl)
    have hguard : t₂.batch = [] ∧ 0 < rx.length + 1 ∧ rx.length + 1 ≤ (rx ++ [loud]).length :=
      ⟨hbatch, Nat.succ_pos _, by rw [List.length_append]; rfl⟩
    unfold SpanTask.read
    dsimp only [t₂]
    rw [if_pos hguard, if_pos hflag, htake]
    rfl
  have h₃ : c₂.step (.read n (rx.length + 1)) = some { c₂ with tasks := c₂.tasks.set n t₃ } :=
    withTask_open c₂ n t₂ t₃ _ ht₂ hopen hread
  have hlast : CanSend { c₂ with tasks := c₂.tasks.set n t₃ } n :=
    canSend_left (rx ++ [loud]) _ n t₃ (getElem?_set_task c₂ n t₂ t₃ ht₂) hopen rfl loud
      (List.mem_append_right rx List.mem_cons_self) (passes_loud t₃ rfl)
  exact ((hlast.step c₂ _ _ n ⟨rfl, rfl⟩ h₃).step c₁ c₂ _ n ⟨rfl, rfl⟩ h₂).step c c₁ _ n
    ⟨rfl, rfl⟩ h₁

/-- INTERNAL: while the flag is set, every running stream can come to send a span. -/
theorem canSend_streaming (batch : List SpanRecord) (c : ConnectionState) (n : ℕ) (t : SpanTask)
    (ht : c.tasks[n]? = some t) (hopen : t.ended = false) (hbatch : t.batch = batch)
    (hstreaming : c.state.streaming = true) : CanSend c n := by
  induction batch generalizing c t with
  | nil =>
    cases hrx : t.spanRx with
    | some rx => exact canSend_subscribed c n t rx ht hopen hbatch hrx hstreaming
    | none =>
      have hsubscribe : t.subscribe = some { t with spanRx := some [] } := by
        unfold SpanTask.subscribe
        rw [hrx]
        rfl
      refine CanSend.step c _ (.subscribe n) n ⟨rfl, rfl⟩
        (withTask_open c n t _ SpanTask.subscribe ht hopen hsubscribe) ?_
      exact canSend_subscribed _ n _ [] (getElem?_set_task c n t _ ht) hopen hbatch rfl hstreaming
  | cons first rest ih =>
    obtain ⟨c', hc', ht', hstate⟩ := step_forward c n t first rest ht hopen hbatch
    refine CanSend.step c c' _ n ⟨rfl, rfl⟩ hc' (ih c' _ ht' hopen rfl ?_)
    rw [hstate]
    exact hstreaming

/-- INTERNAL: a stream that can send a span has not been stopped, if stopped streams stay stopped
(`StaysStopped`) whatever traffic follows these steps. -/
theorem not_stoppedSince_of_canSend (steps : List StreamStep) (c : ConnectionState) (n : ℕ)
    (hrun : run ConnectionState.step ConnectionState.new steps = some c) (hsend : CanSend c n)
    (hstays : ∀ more, (∀ l ∈ more, Traffic l) → StaysStopped (steps ++ more)) :
    ¬ StoppedSince steps n := by
  obtain ⟨more, c', record, hmore, hrest, hforwarded⟩ := hsend
  intro hsince
  have htraffic : ∀ l ∈ more ++ [StreamStep.forward n], Traffic l := by
    intro l hl
    rcases List.mem_append.mp hl with hin | hlast
    · exact hmore l hin
    · rw [List.mem_singleton.mp hlast]
      exact ⟨rfl, rfl⟩
  have hprefix : steps ++ more ++ [.forward n] <+: steps ++ (more ++ [.forward n]) := by
    rw [List.append_assoc]
  have hall : run ConnectionState.step ConnectionState.new (steps ++ more) = some c' := by
    rw [run_append, hrun]
    exact hrest
  exact hstays _ htraffic (steps ++ more) _ hprefix c' hall n record hforwarded
    (hsince.append steps more n)

/-! ## When stopped streams stay stopped -/

/-- CODE: server.rs:186-219, 283-333 — **a stopped stream stays stopped exactly if the requests
fit**: whatever traffic follows any part of the run, no span is sent on a stream stopped since
it was started, if and only if every `StartStream` finds no running stream that has been
stopped and every `StopStream` none that is yet to send a span of the batch it has read. -/
theorem stopped_stays_stopped_iff (steps : List StreamStep) :
    (∀ seen more, seen <+: steps → (∀ l ∈ more, Traffic l) → StaysStopped (seen ++ more)) ↔
      ∀ before l, before ++ [l] <+: steps →
        ∀ c, run ConnectionState.step ConnectionState.new before = some c →
          RequestFits before c l := by
  constructor
  · intro hstays before l hbefore c hrun
    have hafter (c' : ConnectionState) (n : ℕ) (hstep : c.step l = some c')
        (hsend : CanSend c' n) : ¬ StoppedSince (before ++ [l]) n := by
      refine not_stoppedSince_of_canSend (before ++ [l]) c' n ?_ hsend fun more hmore =>
        hstays (before ++ [l]) more hbefore hmore
      exact (run_snoc_eq_some _ _ before l c').mpr ⟨c, hrun, hstep⟩
    by_cases htraffic : Traffic l
    · exact htraffic.fits before c l
    cases l with
    | request id body =>
      cases body with
      | startStream =>
        intro n t ht hopen hsince
        have ht' : (c.newRpc id .startStream).tasks[n]? = some t := by
          simp only [newRpc]
          rw [List.getElem?_append_left (List.getElem?_eq_some_iff.mp ht).1]
          exact ht
        exact hafter _ n rfl (canSend_streaming t.batch _ n t ht' hopen rfl rfl)
          (hsince.append before _ n)
      | stopStream =>
        intro n t ht hopen record hrecord
        by_contra hpasses
        have hlt : n < started before := by
          rw [← tasks_length_run before c hrun]
          exact (List.getElem?_eq_some_iff.mp ht).1
        refine hafter _ n rfl (canSend_left t.batch _ n t ht hopen rfl record hrecord ?_) ?_
        · exact Bool.eq_true_of_not_eq_false hpasses
        · exact (stoppedSince_snoc before _ n).mpr (Or.inr ⟨rfl, hlt⟩)
      | _ => exact absurd ⟨rfl, rfl⟩ htraffic
    | _ => exact absurd ⟨rfl, rfl⟩ htraffic
  · intro hfits seen more hseen hmore
    refine staysStopped_of_fits (seen ++ more) fun before l hbefore c hrun => ?_
    rcases List.prefix_or_prefix_of_prefix hbefore (List.prefix_append seen more) with
      hearlier | hlater
    · exact hfits before l (hearlier.trans hseen) c hrun
    · rcases List.prefix_concat_iff.mp hlater with hall | hinner
      · rw [hall] at hseen
        exact hfits before l hseen c hrun
      · obtain ⟨mid, hmid⟩ := hinner
        rw [← hmid, List.append_assoc, List.prefix_append_right_inj] at hbefore
        have hl : l ∈ more := hbefore.subset (List.mem_append_right mid List.mem_cons_self)
        exact (hmore l hl).fits before c l

/-- INTERNAL: the connection is started, stopped and started again, and a span is closed. -/
def restart : List StreamStep :=
  [.request 1 .startStream, .subscribe 0, .request 2 .stopStream, .request 3 .startStream,
    .subscribe 1, .fanout [loud] [], .read 0 1, .read 1 1, .forward 0, .forward 1]

/-- INTERNAL: the first stream of `restart` is stopped, and yet the span is sent on both. -/
theorem restart_sends_twice :
    ((run ConnectionState.step ConnectionState.new (restart.take 8)).bind fun c =>
      c.forwarded (.forward 0)) = some (0, loud) ∧
    ((run ConnectionState.step ConnectionState.new (restart.take 9)).bind fun c =>
      c.forwarded (.forward 1)) = some (1, loud) ∧ ¬ StaysStopped restart := by
  have hfirst : ((run ConnectionState.step ConnectionState.new (restart.take 8)).bind fun c =>
      c.forwarded (.forward 0)) = some (0, loud) := by
    decide +kernel
  refine ⟨hfirst, by decide +kernel, fun hstays => ?_⟩
  obtain ⟨c, hrun, hforwarded⟩ := Option.bind_eq_some_iff.mp hfirst
  refine hstays (restart.take 8) (.forward 0) ⟨[.forward 1], rfl⟩ c hrun 0 loud hforwarded ?_
  exact ⟨restart.take 2, .request 2 .stopStream, (restart.take 8).drop 3, rfl, rfl, Nat.one_pos⟩

end TracingConsole.Analysis.SpanStreams
