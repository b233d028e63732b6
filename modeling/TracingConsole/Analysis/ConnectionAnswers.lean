import TracingConsole.Analysis.StoppedStreams

/-!
# What a client is answered

A connection takes requests and sends responses under the ids of the requests.  The requests that
change a setting are answered one by one, in order, whatever its streams do in between; the
settings are those of the requests that were accepted; and a span is sent only under the id of a
stream that was started, once it has been fanned out, and under settings that let it through when
it was read.
-/

set_option autoImplicit false

namespace TracingConsole.Analysis.SpanStreams

open TracingConsole.Library TracingConsole.Model TracingConsole.Model.ConnectionState

/-! ## Requests and their answers -/

/-- INTERNAL: a rate that is no number from 0 to 1.
SRCLINE: server.rs:237-243 -/
def outOfRange (rate : F64) : Bool := rate.lt F64.zero || F64.one.lt rate || rate.isNan

/-- INTERNAL: the requests of a run, in order. -/
def requestsIn (steps : List StreamStep) : List (ℕ × StreamRequest) :=
  steps.filterMap fun l =>
    match l with
    | .request id body => some (id, body)
    | _ => none

/-- INTERNAL: what a request is answered at once; a stream answers on its own. -/
def replyTo : ℕ × StreamRequest → Option (ℕ × StreamResponse)
  | (_, .noop) | (_, .startStream) => none
  | (id, .stopStream) => some (id, .ack)
  | (id, .setLevel _) | (id, .setCacheLevel _) | (id, .setCacheChance _) => some (id, .ack)
  | (id, .setSamplingRate rate) =>
    if outOfRange rate then
      some (id, .error ("sampling rate " ++ rate.display ++ " out of range [0.0, 1.0]"))
    else some (id, .ack)

/-- INTERNAL: the settings after a request; a rate out of range changes nothing. -/
def settingsAfter (s : StreamState) : StreamRequest → StreamState
  | .startStream => { s with streaming := true }
  | .stopStream => { s with streaming := false }
  | .setLevel level => { s with minLevel := some level }
  | .noop | .setCacheLevel _ | .setCacheChance _ => s
  | .setSamplingRate rate => if outOfRange rate then s else { s with samplingRate := rate }

/-- INTERNAL: a response to a request that sets something. -/
def isAnswer : ℕ × StreamResponse → Bool
  | (_, .ack) | (_, .error _) => true
  | _ => false

/-- INTERNAL: what a stream tells of the host and its cache. -/
def isNotice : StreamResponse → Bool
  | .serverInfo _ | .cacheLevel _ | .cacheChance _ => true
  | _ => false

/-- INTERNAL: **what the service does with a request.**
SRCLINE: server.rs:186-250 -/
theorem newRpc_eq (c : ConnectionState) (id : ℕ) (body : StreamRequest) :
    (c.newRpc id body).state = settingsAfter c.state body ∧
      (c.newRpc id body).responses = c.responses ++ (replyTo (id, body)).toList ∧
      ∀ t ∈ (c.newRpc id body).tasks, t ∈ c.tasks ∨
        body = .startStream ∧ t.requestId = id ∧ t.spanRx = none ∧ t.batch = [] := by
  cases body with
  | startStream =>
    refine ⟨rfl, by simp [newRpc, replyTo], fun t ht => ?_⟩
    simp only [newRpc, List.mem_append, List.mem_singleton] at ht
    cases ht with
    | inl hold => exact Or.inl hold
    | inr hnew =>
      subst hnew
      exact Or.inr ⟨rfl, rfl, rfl, rfl⟩
  | noop =>
    exact ⟨rfl, by simp [newRpc, replyTo], fun t ht => Or.inl ht⟩
  | stopStream | setLevel _ | setCacheLevel _ | setCacheChance _ =>
    exact ⟨rfl, rfl, fun t ht => Or.inl ht⟩
  | setSamplingRate rate =>
    by_cases hrate : outOfRange rate
    · have hguard := hrate
      unfold outOfRange at hguard
      simp only [newRpc, hguard, if_true, settingsAfter, replyTo, hrate, respond]
      exact ⟨trivial, rfl, fun t ht => Or.inl ht⟩
    · have hguard := hrate
      unfold outOfRange at hguard
      simp only [newRpc, hguard, settingsAfter, replyTo, hrate, respond, Bool.false_eq_true,
        if_false]
      exact ⟨trivial, rfl, fun t ht => Or.inl ht⟩

/-- INTERNAL: one more step brings its request. -/
theorem requestsIn_snoc (steps : List StreamStep) (l : StreamStep) :
    requestsIn (steps ++ [l]) = requestsIn steps ++ requestsIn [l] := by
  simp [requestsIn]

/-- INTERNAL: a reply is an answer. -/
theorem replyTo_isAnswer (r : ℕ × StreamRequest) :
    (replyTo r).toList.filter isAnswer = (replyTo r).toList := by
  obtain ⟨id, body⟩ := r
  cases body with
  | setSamplingRate rate =>
    by_cases hrate : outOfRange rate
    · simp [replyTo, hrate, isAnswer]
    · simp [replyTo, hrate, isAnswer]
  | _ => rfl

/-! ## What a span has come through -/

/-- INTERNAL: a stream is started under an id. -/
def StartsStream (id : ℕ) (_ : ConnectionState) (l : StreamStep) : Prop :=
  l = .request id .startStream

/-- INTERNAL: a span is fanned out. -/
def FansOut (record : SpanRecord) (_ : ConnectionState) (l : StreamStep) : Prop :=
  ∃ batch full, l = .fanout batch full ∧ record ∈ batch

/-- INTERNAL: a span is read off the channel of a task, while the connection streams with the
given settings. -/
def ReadUnder (record : SpanRecord) (min : Option WireLevel) (rate : F64) (c : ConnectionState)
    (l : StreamStep) : Prop :=
  (∃ n k t rx, l = .read n k ∧ c.tasks[n]? = some t ∧ t.spanRx = some rx ∧ record ∈ rx.take k) ∧
    c.state.streaming = true ∧ c.state.minLevel = min ∧ c.state.samplingRate = rate

/-- INTERNAL: a span is read under settings that let it through. -/
def LetsThrough (record : SpanRecord) (c : ConnectionState) (l : StreamStep) : Prop :=
  ReadUnder record c.state.minLevel c.state.samplingRate c l ∧
    (∀ min, c.state.minLevel = some min → levelAtLeast record.metadata.level min = true) ∧
    samplingPasses record c.state.samplingRate.toRat = true

/-- INTERNAL: a step of the run was so. -/
def Happened (met : ConnectionState → StreamStep → Prop) (steps : List StreamStep) : Prop :=
  Once ConnectionState.step ConnectionState.new met steps

/-- INTERNAL: what has happened has happened. -/
theorem Happened.snoc (met : ConnectionState → StreamStep → Prop) (steps : List StreamStep)
    (l : StreamStep) (h : Happened met steps) : Happened met (steps ++ [l]) :=
  Once.snoc _ _ _ steps l h

/-- INTERNAL: what a task has and what it is about to send. -/
structure TaskServed (steps : List StreamStep) (t : SpanTask) : Prop where
  started : Happened (StartsStream t.requestId) steps
  queued : ∀ rx, t.spanRx = some rx → ∀ record ∈ rx, Happened (FansOut record) steps
  batched : ∀ record ∈ t.batch, Happened (FansOut record) steps ∧
    Happened (ReadUnder record t.minLevel t.samplingRate) steps

/-- INTERNAL: what has been answered and sent. -/
structure Served (steps : List StreamStep) (c : ConnectionState) : Prop where
  answers : c.responses.filter isAnswer = (requestsIn steps).filterMap replyTo
  settings : c.state = (requestsIn steps).foldl (fun s r => settingsAfter s r.2) StreamState.new
  tasks : ∀ t ∈ c.tasks, TaskServed steps t
  notices : ∀ id response, (id, response) ∈ c.responses → isNotice response = true →
    Happened (StartsStream id) steps
  sent : ∀ id record, (id, .span record) ∈ c.responses →
    Happened (StartsStream id) steps ∧ Happened (FansOut record) steps ∧
      Happened (LetsThrough record) steps

/-- INTERNAL: a new connection has served nothing. -/
theorem served_new : Served [] ConnectionState.new where
  answers := rfl
  settings := rfl
  tasks _ ht := by cases ht
  notices _ _ h := by cases h
  sent _ _ h := by cases h

/-- INTERNAL: what a task has served it has served. -/
theorem TaskServed.snoc (steps : List StreamStep) (l : StreamStep) (t : SpanTask)
    (h : TaskServed steps t) : TaskServed (steps ++ [l]) t where
  started := h.started.snoc _ steps l
  queued rx hrx record hin := (h.queued rx hrx record hin).snoc _ steps l
  batched record hin := by
    obtain ⟨hfanned, hread⟩ := h.batched record hin
    exact ⟨hfanned.snoc _ steps l, hread.snoc _ steps l⟩

/-- INTERNAL: what a request is answered is no notice. -/
theorem replyTo_isNotice (r : ℕ × StreamRequest) (id : ℕ) (response : StreamResponse)
    (h : (id, response) ∈ (replyTo r).toList) : isNotice response = false := by
  rw [← replyTo_isAnswer, List.mem_filter] at h
  have hanswer := h.2
  cases response with
  | ack | error _ => rfl
  | _ => cases hanswer

/-- INTERNAL: a step that is no request, and at most sends spans and notices. -/
theorem Served.other (steps : List StreamStep) (l : StreamStep) (c c' : ConnectionState)
    (h : Served steps c) (hl : requestsIn [l] = []) (hstate : c'.state = c.state)
    (htasks : ∀ t ∈ c'.tasks, TaskServed (steps ++ [l]) t)
    (hresponses : c'.responses = c.responses ∨ ∃ id response,
      c'.responses = c.responses ++ [(id, response)] ∧ isAnswer (id, response) = false ∧
        Happened (StartsStream id) steps ∧ ∀ record, response = .span record →
          Happened (FansOut record) steps ∧ Happened (LetsThrough record) steps) :
    Served (steps ++ [l]) c' where
  answers := by
    have hsame : c'.responses.filter isAnswer = c.responses.filter isAnswer := by
      rcases hresponses with hsame | ⟨id, response, hmore, hnot, -⟩
      · rw [hsame]
      · simp [hmore, hnot]
    rw [hsame, requestsIn_snoc, hl, List.append_nil]
    exact h.answers
  settings := by
    rw [hstate, requestsIn_snoc, hl, List.append_nil]
    exact h.settings
  tasks := htasks
  notices id response hin hnotice := by
    rcases hresponses with hsame | ⟨id', response', hmore, -, hstarted, -⟩
    · rw [hsame] at hin
      exact (h.notices id response hin hnotice).snoc _ steps l
    · rw [hmore, List.mem_append, List.mem_singleton] at hin
      cases hin with
      | inl hold => exact (h.notices id response hold hnotice).snoc _ steps l
      | inr hnew =>
        cases hnew
        exact hstarted.snoc _ steps l
  sent id record hin := by
    have hgrows (hsent : Happened (StartsStream id) steps ∧ Happened (FansOut record) steps ∧
        Happened (LetsThrough record) steps) : Happened (StartsStream id) (steps ++ [l]) ∧
          Happened (FansOut record) (steps ++ [l]) ∧
            Happened (LetsThrough record) (steps ++ [l]) :=
      ⟨hsent.1.snoc _ steps l, hsent.2.1.snoc _ steps l, hsent.2.2.snoc _ steps l⟩
    rcases hresponses with hsame | ⟨id', response', hmore, -, hstarted, hsent⟩
    · rw [hsame] at hin
      exact hgrows (h.sent id record hin)
    · rw [hmore, List.mem_append, List.mem_singleton] at hin
      cases hin with
      | inl hold => exact hgrows (h.sent id record hold)
      | inr hnew =>
        cases hnew
        exact hgrows ⟨hstarted, hsent record rfl⟩

/-- INTERNAL: the tasks after one of them has changed. -/
theorem Served.set (steps : List StreamStep) (l : StreamStep) (c : ConnectionState) (n : ℕ)
    (t' : SpanTask) (h : Served steps c) (ht' : TaskServed (steps ++ [l]) t') :
    ∀ t ∈ c.tasks.set n t', TaskServed (steps ++ [l]) t := by
  intro t ht
  cases List.mem_or_eq_of_mem_set ht with
  | inl hold => exact (h.tasks t hold).snoc steps l t
  | inr hnew =>
    rw [hnew]
    exact ht'

/-- INTERNAL: a span that a task sends was let through when it was read. -/
theorem letsThrough_of_passes (steps : List StreamStep) (t : SpanTask) (record : SpanRecord)
    (hread : Happened (ReadUnder record t.minLevel t.samplingRate) steps)
    (hpasses : t.passes record = true) : Happened (LetsThrough record) steps := by
  refine Once.mono _ _ _ _ steps hread fun c l hunder => ?_
  obtain ⟨hfrom, hstreaming, hlevel, hrate⟩ := hunder
  unfold SpanTask.passes at hpasses
  rw [Bool.and_eq_true] at hpasses
  refine ⟨⟨hfrom, hstreaming, rfl, rfl⟩, fun min hmin => ?_, by rw [hrate]; exact hpasses.2⟩
  have hfloor := hpasses.1
  rw [← hlevel, hmin] at hfloor
  exact hfloor

/-- INTERNAL: a request is answered, and settles what it sets.
SRCLINE: server.rs:186-250 -/
theorem Served.request (steps : List StreamStep) (c c' : ConnectionState)
    (id : ℕ) (body : StreamRequest)
    (hrun : run ConnectionState.step ConnectionState.new steps = some c) (h : Served steps c)
    (hstep : c.step (.request id body) = some c') : Served (steps ++ [.request id body]) c' := by
  cases hstep
  obtain ⟨hstate, hresponses, htasks⟩ := newRpc_eq c id body
  have hone : requestsIn [.request id body] = [(id, body)] := rfl
  refine ⟨?_, ?_, fun t ht => ?_, fun id' response hin hnotice => ?_, fun id' record hin => ?_⟩
  · rw [hresponses, List.filter_append, h.answers, replyTo_isAnswer, requestsIn_snoc, hone,
      List.filterMap_append]
    cases hreply : replyTo (id, body) <;> simp [hreply]
  · rw [hstate, h.settings, requestsIn_snoc, hone, List.foldl_append]
    rfl
  · rcases htasks t ht with hold | ⟨hbody, hid, hnone, hempty⟩
    · exact (h.tasks t hold).snoc steps _ t
    · subst hbody
      refine ⟨?_, fun rx hrx => ?_, fun record hin => ?_⟩
      · rw [hid]
        exact once_last _ _ _ steps _ c hrun rfl
      · rw [hnone] at hrx
        cases hrx
      · rw [hempty] at hin
        cases hin
  · rw [hresponses, List.mem_append] at hin
    cases hin with
    | inl hold => exact (h.notices id' response hold hnotice).snoc _ steps _
    | inr hnew => exact absurd hnotice (by simp [replyTo_isNotice _ _ _ hnew])
  · rw [hresponses, List.mem_append] at hin
    cases hin with
    | inl hold =>
      obtain ⟨hstarted, hfanned, hthrough⟩ := h.sent id' record hold
      exact ⟨hstarted.snoc _ steps _, hfanned.snoc _ steps _, hthrough.snoc _ steps _⟩
    | inr hnew =>
      rw [← replyTo_isAnswer, List.mem_filter] at hnew
      cases hnew.2

/-- INTERNAL: a task tells its client of the host.
SRCLINE: server.rs:272-308 -/
theorem Served.tell (steps : List StreamStep) (c c' : ConnectionState)
    (n : ℕ) (response : StreamResponse)
    (h : Served steps c)
    (hstep : c.step (.tell n response) = some c') : Served (steps ++ [.tell n response]) c' := by
  obtain ⟨t, ht, htells, hc'⟩ := step_tell_eq c c' n response hstep
  rw [hc']
  refine h.other steps _ c _ rfl rfl (fun u hu => (h.tasks u hu).snoc steps _ u)
    (Or.inr ⟨t.requestId, response, rfl, ?_, (h.tasks t (List.mem_of_getElem? ht)).started, ?_⟩)
  · cases response with
    | ack | error _ => cases htells
    | _ => rfl
  · intro record hspan
    rw [hspan] at htells
    cases htells

/-- INTERNAL: a batch goes into the channels that have room.
SRCLINE: driver.rs:168-187 -/
theorem Served.fanout (steps : List StreamStep) (c c' : ConnectionState)
    (batch : List SpanRecord) (full : List ℕ)
    (hrun : run ConnectionState.step ConnectionState.new steps = some c) (h : Served steps c)
    (hstep : c.step (.fanout batch full) = some c') : Served (steps ++ [.fanout batch full]) c' := by
  cases hstep
  refine h.other steps _ c _ rfl rfl (fun t ht => ?_) (Or.inl rfl)
  obtain ⟨n, hn, heq⟩ := List.mem_mapIdx.mp ht
  have hserved := (h.tasks c.tasks[n] (List.getElem_mem hn)).snoc steps (.fanout batch full) _
  obtain ⟨hbatch, -, hlevel, hrate⟩ := deliver_frame c.tasks[n] (decide (n ∈ full)) batch
  have hid : (c.tasks[n].deliver (decide (n ∈ full)) batch).requestId =
      c.tasks[n].requestId := by
    unfold SpanTask.deliver
    split <;> rfl
  rw [← heq]
  refine ⟨by rw [hid]; exact hserved.started, fun rx hrx record hin => ?_, ?_⟩
  · unfold SpanTask.deliver at hrx
    split at hrx
    · exact hserved.queued rx hrx record hin
    · obtain ⟨old, hold, hmore⟩ := Option.map_eq_some_iff.mp hrx
      rw [← hmore, List.mem_append] at hin
      cases hin with
      | inl hqueued => exact hserved.queued old hold record hqueued
      | inr hnew => exact once_last _ _ _ steps _ c hrun ⟨batch, full, rfl, hnew⟩
  · rw [hbatch, hlevel, hrate]
    exact hserved.batched

/-- INTERNAL: a task subscribes, with nothing in its channel.
SRCLINE: server.rs:272-291 -/
theorem Served.subscribe (steps : List StreamStep) (c c' : ConnectionState) (n : ℕ)
    (h : Served steps c)
    (hstep : c.step (.subscribe n) = some c') : Served (steps ++ [.subscribe n]) c' := by
  obtain ⟨t, t', ht, -, hsub, rfl⟩ := withTask_eq_some c c' n _ hstep
  have hserved := (h.tasks t (List.mem_of_getElem? ht)).snoc steps (.subscribe n) t
  refine h.other steps _ c _ rfl rfl (h.set steps _ c n t' ?_) (Or.inl rfl)
  unfold SpanTask.subscribe at hsub
  split at hsub
  · cases hsub
    refine ⟨hserved.started, fun rx hrx record hin => ?_, hserved.batched⟩
    cases hrx
    cases hin
  · cases hsub

/-- INTERNAL: a task takes a batch under the settings of the connection.
SRCLINE: server.rs:307-319 -/
theorem Served.read (steps : List StreamStep) (c c' : ConnectionState) (n k : ℕ)
    (hrun : run ConnectionState.step ConnectionState.new steps = some c) (h : Served steps c)
    (hstep : c.step (.read n k) = some c') : Served (steps ++ [.read n k]) c' := by
  obtain ⟨t, t', ht, -, hread, rfl⟩ := withTask_eq_some c c' n _ hstep
  have hserved := (h.tasks t (List.mem_of_getElem? ht)).snoc steps (.read n k) t
  refine h.other steps _ c _ rfl rfl (h.set steps _ c n t' ?_) (Or.inl rfl)
  unfold SpanTask.read at hread
  split at hread
  · next rx hrx =>
    split at hread
    · cases hread
      refine ⟨hserved.started, fun rest hrest record hin => ?_, fun record hin => ?_⟩
      · cases hrest
        exact hserved.queued rx hrx record (List.mem_of_mem_drop hin)
      · dsimp only at hin
        split at hin
        · next hstreaming =>
          exact ⟨hserved.queued rx hrx record (List.mem_of_mem_take hin),
            once_last _ _ _ steps _ c hrun
              ⟨⟨n, k, t, rx, rfl, ht, hrx, hin⟩, hstreaming, rfl, rfl⟩⟩
        · cases hin
    · cases hread
  · cases hread

/-- INTERNAL: a task sends its next span, if the filters let it through.
SRCLINE: server.rs:320-330 -/
theorem Served.forward (steps : List StreamStep) (c c' : ConnectionState) (n : ℕ)
    (h : Served steps c)
    (hstep : c.step (.forward n) = some c') : Served (steps ++ [.forward n]) c' := by
  obtain ⟨c₁, hnext, hc'⟩ := Option.map_eq_some_iff.mp hstep
  obtain ⟨t, t', ht, hopen, hrest, hc₁⟩ := withTask_eq_some c c₁ n _ hnext
  obtain ⟨record, hbatch, ht'⟩ := next_eq_some t t' hrest
  have hserved := h.tasks t (List.mem_of_getElem? ht)
  have hlater := hserved.snoc steps (.forward n) t
  obtain ⟨hfanned, hread⟩ := hserved.batched record (by rw [hbatch]; simp)
  have htasks : ∀ u ∈ c.tasks.set n t', TaskServed (steps ++ [.forward n]) u := by
    refine h.set steps _ c n t' ?_
    rw [ht']
    refine ⟨hlater.started, hlater.queued, fun r hin => hlater.batched r ?_⟩
    rw [hbatch]
    exact List.mem_cons_of_mem record hin
  rw [← hc', hc₁]
  split
  · next m sent hforwarded =>
    obtain ⟨hn, u, rest, hu, -, hubatch, hpasses⟩ := forwarded_eq_some c _ m sent hforwarded
    cases hn
    rw [ht, Option.some.injEq] at hu
    subst hu
    rw [hbatch] at hubatch
    cases hubatch
    refine h.other steps _ c _ rfl rfl htasks
      (Or.inr ⟨t.requestId, .span record, ?_, rfl, hserved.started, fun sent hsent => ?_⟩)
    · simp [respond, ht]
    · cases hsent
      exact ⟨hfanned, letsThrough_of_passes steps t record hread hpasses⟩
  · exact h.other steps _ c _ rfl rfl htasks (Or.inl rfl)

/-- INTERNAL: **the step lemma**. -/
theorem Served.step (steps : List StreamStep) (c c' : ConnectionState) (l : StreamStep)
    (hrun : run ConnectionState.step ConnectionState.new steps = some c) (h : Served steps c)
    (hstep : c.step l = some c') : Served (steps ++ [l]) c' := by
  cases l with
  | request id body => exact Served.request steps c c' id body hrun h hstep
  | tell n response => exact Served.tell steps c c' n response h hstep
  | fanout batch full => exact Served.fanout steps c c' batch full hrun h hstep
  | subscribe n => exact Served.subscribe steps c c' n h hstep
  | read n k => exact Served.read steps c c' n k hrun h hstep
  | forward n => exact Served.forward steps c c' n h hstep
  | finish n =>
    obtain ⟨t, t', ht, -, hend, rfl⟩ := withTask_eq_some c c' n _ hstep
    have hserved := (h.tasks t (List.mem_of_getElem? ht)).snoc steps (.finish n) t
    refine h.other steps _ c _ rfl rfl (h.set steps _ c n t' ?_) (Or.inl rfl)
    cases hend
    exact ⟨hserved.started, hserved.queued, hserved.batched⟩

/-- INTERNAL: so it holds of every run. -/
theorem served_run (steps : List StreamStep) (c : ConnectionState)
    (hrun : run ConnectionState.step ConnectionState.new steps = some c) : Served steps c := by
  induction steps using List.reverseRecOn generalizing c with
  | nil =>
    cases hrun
    exact served_new
  | append_singleton steps l ih =>
    obtain ⟨c₁, hbefore, hlast⟩ :=
      (run_snoc_eq_some ConnectionState.step ConnectionState.new steps l c).mp hrun
    exact (ih c₁ hbefore).step steps c₁ c l hbefore hlast

/-- INTERNAL: the rate in force is always in range. -/
theorem settings_inRange (requests : List (ℕ × StreamRequest)) (s : StreamState)
    (hs : outOfRange s.samplingRate = false) :
    outOfRange (requests.foldl (fun s r => settingsAfter s r.2) s).samplingRate = false := by
  induction requests generalizing s with
  | nil => exact hs
  | cons r requests ih =>
    obtain ⟨id, body⟩ := r
    refine ih _ ?_
    cases body with
    | setSamplingRate rate =>
      simp only [settingsAfter]
      split
      · exact hs
      · next hrate => exact eq_false_of_ne_true hrate
    | _ => exact hs

/-- CODE: server.rs:30-46, 169-333 — **a connection answers what it was asked**: in every run, the
acknowledgements and errors are those of the requests, one by one and in order, each under the id
of its request; the settings are those of the accepted requests, with a sampling rate from 0 to
1; every version, level and chance was told under the id of a stream that had been started; and
so was every span sent, after it had been fanned out, and was let through by the settings in
force when its batch was read. -/
theorem connection_answers (steps : List StreamStep) (c : ConnectionState)
    (hrun : run ConnectionState.step ConnectionState.new steps = some c) :
    c.responses.filter isAnswer = (requestsIn steps).filterMap replyTo ∧
      c.state = (requestsIn steps).foldl (fun s r => settingsAfter s r.2) StreamState.new ∧
      outOfRange c.state.samplingRate = false ∧
      (∀ id response, (id, response) ∈ c.responses → isNotice response = true →
        Once ConnectionState.step ConnectionState.new (StartsStream id) steps) ∧
      ∀ id record, (id, .span record) ∈ c.responses →
        Once ConnectionState.step ConnectionState.new (StartsStream id) steps ∧
        Once ConnectionState.step ConnectionState.new (FansOut record) steps ∧
        Once ConnectionState.step ConnectionState.new (LetsThrough record) steps := by
  have hserved := served_run steps c hrun
  refine ⟨hserved.answers, hserved.settings, ?_, hserved.notices, hserved.sent⟩
  rw [hserved.settings]
  exact settings_inRange (requestsIn steps) StreamState.new (by decide)

/-- INTERNAL: a stream tells its preamble before the connection is restarted; then the cache is
switched to `Info`, which the second stream tells, and a rate of one hundred is asked for. -/
def restartLouder : List StreamStep :=
  [.request 1 .startStream, .tell 0 (.serverInfo "0.2.0"), .tell 0 (.cacheLevel .off),
    .tell 0 (.cacheChance F64.hundred), .subscribe 0, .request 2 .stopStream,
    .request 3 .startStream, .subscribe 1, .request 4 (.setCacheLevel .info),
    .tell 1 (.cacheLevel .info), .fanout [loud] [], .read 0 1, .read 1 1, .forward 0,
    .forward 1, .request 5 .noop, .request 6 (.setSamplingRate F64.hundred)]

/-- CODE: server.rs:186-333 — three requests are answered, and the second stream tells the level
and sends the span under its own id. -/
theorem connection_answers_restart :
    ∃ c, run ConnectionState.step ConnectionState.new restartLouder = some c ∧
      c.responses.filter isAnswer = [(2, .ack), (4, .ack),
        (6, .error ("sampling rate " ++ F64.hundred.display ++ " out of range [0.0, 1.0]"))] ∧
      outOfRange c.state.samplingRate = false ∧
      Once ConnectionState.step ConnectionState.new (StartsStream 3) restartLouder ∧
      (3, .span loud) ∈ c.responses ∧
      Once ConnectionState.step ConnectionState.new (LetsThrough loud) restartLouder := by
  have hruns : (run ConnectionState.step ConnectionState.new restartLouder).isSome = true := by
    decide +kernel
  obtain ⟨c, hrun⟩ := Option.isSome_iff_exists.mp hruns
  obtain ⟨hanswers, -, hrate, htold, hsent⟩ := connection_answers restartLouder c hrun
  have hin : (3, .span loud) ∈ c.responses ∧ (3, .cacheLevel .info) ∈ c.responses := by
    have hresponses : (run ConnectionState.step ConnectionState.new restartLouder).map
        (fun c => decide ((3, .span loud) ∈ c.responses ∧
          (3, .cacheLevel .info) ∈ c.responses)) = some true := by
      decide +kernel
    rw [hrun] at hresponses
    simpa using hresponses
  refine ⟨c, hrun, ?_, hrate, htold 3 _ hin.2 rfl, hin.1, (hsent 3 loud hin.1).2.2⟩
  rw [hanswers]
  rfl

end TracingConsole.Analysis.SpanStreams
