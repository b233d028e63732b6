import TracingConsole.Analysis.PipelineMoves

/-!
# Closed spans on their way to the subscribers

For every thread, the spans it closed are its drained batches followed by its buffer, and the
accepted batches are what the driver took from the thread followed by what is still on the
channel (`Carried`).  A thread's clone of the sender is made once, so the order of its clone
is the order of the thread.  A subscriber that was never full has received all that was fanned
out after it registered (`Served`).
-/

set_option autoImplicit false

namespace TracingConsole.Analysis

open TracingConsole.Library TracingConsole.Model TracingConsole.Analysis.Pipeline

variable {T : Type} [DecidableEq T]

/-! ## The spans of one thread -/

/-- INTERNAL: the spans a thread closed, oldest first. -/
def closedBy (p : Pipeline T) (t : T) : List SpanRecord :=
  (p.closed.filter fun e => e.1 = t).map fun e => e.2

/-- INTERNAL: the batches a thread drained. -/
def batchesBy (p : Pipeline T) (t : T) : List (SpanBatch T) :=
  p.batches.filter fun b => b.thread = t

/-- INTERNAL: the spans of a thread in batches the channel accepted. -/
def acceptedBy (p : Pipeline T) (t : T) : List SpanRecord :=
  ((batchesBy p t).filter fun b => b.accepted).flatMap fun b => b.records

/-- INTERNAL: the spans of a thread in batches the channel rejected. -/
def rejectedBy (p : Pipeline T) (t : T) : List SpanRecord :=
  ((batchesBy p t).filter fun b => !b.accepted).flatMap fun b => b.records

/-- INTERNAL: the spans of a thread on the channel. -/
def channelBy (p : Pipeline T) (t : T) : List SpanRecord :=
  (p.spanChannel.filter fun e => e.2.thread = t).map fun e => e.2.record

/-- INTERNAL: the spans of a thread among those taken by the driver. -/
def takenBy (taken : List (TakenSpan T)) (t : T) : List SpanRecord :=
  (taken.filter fun e => e.thread = t).map fun e => e.record

/-- INTERNAL: what a thread took, in two parts. -/
theorem takenBy_append (l₁ l₂ : List (TakenSpan T)) (t : T) :
    takenBy (l₁ ++ l₂) t = takenBy l₁ t ++ takenBy l₂ t := by
  simp [takenBy]

/-- INTERNAL: where the spans of every thread are, in order. -/
structure Carried (p : Pipeline T) : Prop where
  drained : ∀ t, closedBy p t = ((batchesBy p t).flatMap fun b => b.records) ++ p.pendingSpan t
  accepted : ∀ t, acceptedBy p t = takenBy p.taken t ++ channelBy p t
  /-- a thread's senders are the cache's, and no two threads share them -/
  senders : ∀ t s, p.threadSenders t = some s → s.cacheAddr = p.cacheAddr ∧ s.clone < p.clones
  ownClone : ∀ t t' s s', p.threadSenders t = some s → p.threadSenders t' = some s' →
    s.clone = s'.clone → t = t'
  onChannel : ∀ e ∈ p.spanChannel, ∃ s, p.threadSenders e.2.thread = some s ∧ s.clone = e.1
  arrived : (p.join.joined.map fun j => j.arrived) = p.taken.map fun e => e.record
  sent : p.join.fannedOut = p.join.joined.map fun j => j.sent
  gains : ∀ j ∈ p.join.joined, Joined.OnlyGainsEvents j

/-- INTERNAL: nothing is carried at the start. -/
theorem carried_start (cacheAddr pendingBatch capacity : ℕ) :
    Carried (Pipeline.start cacheAddr pendingBatch capacity : Pipeline T) where
  drained := fun _ => rfl
  accepted := fun _ => rfl
  senders := fun _ _ h => by cases h
  ownClone := fun _ _ _ _ h => by cases h
  onChannel := fun _ h => by cases h
  arrived := rfl
  sent := rfl
  gains := fun _ h => by cases h

/-- INTERNAL: the part of the pipeline the spans go through. -/
def spanPath (p : Pipeline T) :=
  (p.closed, p.batches, p.pendingSpan, p.threadSenders, p.cacheAddr, p.clones, p.spanChannel,
    p.taken, p.join.joined, p.join.fannedOut)

/-- INTERNAL: steps off the path of the spans. -/
theorem Carried.of_same (p p' : Pipeline T) (h : Carried p) (hsame : spanPath p' = spanPath p) :
    Carried p' := by
  simp only [spanPath, Prod.mk.injEq] at hsame
  obtain ⟨hclosed, hbatches, hpending, hsenders, haddr, hclones, hchannel, htaken, hjoined,
    hsent⟩ := hsame
  refine ⟨?_, ?_, ?_, ?_, ?_, ?_, ?_, ?_⟩
  · intro t
    have hbefore := h.drained t
    unfold closedBy batchesBy at hbefore ⊢
    rw [hclosed, hbatches, hpending]
    exact hbefore
  · intro t
    have hbefore := h.accepted t
    unfold acceptedBy batchesBy channelBy at hbefore ⊢
    rw [hbatches, htaken, hchannel]
    exact hbefore
  · rw [hsenders, haddr, hclones]
    exact h.senders
  · rw [hsenders]
    exact h.ownClone
  · rw [hchannel, hsenders]
    exact h.onChannel
  · rw [hjoined, htaken]
    exact h.arrived
  · rw [hjoined, hsent]
    exact h.sent
  · rw [hjoined]
    exact h.gains

/-! ## The steps of a thread -/

/-- INTERNAL: a flush makes a thread's senders once. -/
theorem Carried.startFlush (p : Pipeline T) (h : Carried p) (t : T) :
    Carried (p.startFlush t) := by
  unfold Pipeline.startFlush
  cases hslot : p.threadSenders t with
  | some senders =>
    have haddr := (h.senders t senders hslot).1
    simp only [ThreadSenders.needsInit, haddr, bne_self_eq_false, Bool.false_eq_true, if_false]
    exact h.of_same p _ rfl
  | none =>
    simp only [ThreadSenders.needsInit, if_true]
    -- the new clone has a number no other clone has
    have hcases : ∀ u s, Function.update p.threadSenders t
        (some { cacheAddr := p.cacheAddr, clone := p.clones }) u = some s →
        (u = t ∧ s = { cacheAddr := p.cacheAddr, clone := p.clones }) ∨
          (u ≠ t ∧ p.threadSenders u = some s) := by
      intro u s hs
      by_cases hu : u = t
      · subst hu
        rw [Function.update_self] at hs
        exact Or.inl ⟨rfl, (Option.some.inj hs).symm⟩
      · rw [Function.update_of_ne hu] at hs
        exact Or.inr ⟨hu, hs⟩
    refine ⟨h.drained, h.accepted, ?_, ?_, ?_, h.arrived, h.sent, h.gains⟩
    · intro u s hs
      cases hcases u s hs with
      | inl hnew => rw [hnew.2]; exact ⟨rfl, Nat.lt_succ_self _⟩
      | inr hold =>
        have hbefore := h.senders u s hold.2
        exact ⟨hbefore.1, Nat.lt_succ_of_lt hbefore.2⟩
    · intro u u' s s' hs hs' hclone
      cases hcases u s hs with
      | inl hnew =>
        cases hcases u' s' hs' with
        | inl hnew' => rw [hnew.1, hnew'.1]
        | inr hold' =>
          have hlt := (h.senders u' s' hold'.2).2
          rw [← hclone, hnew.2] at hlt
          exact absurd hlt (Nat.lt_irrefl _)
      | inr hold =>
        cases hcases u' s' hs' with
        | inl hnew' =>
          have hlt := (h.senders u s hold.2).2
          rw [hclone, hnew'.2] at hlt
          exact absurd hlt (Nat.lt_irrefl _)
        | inr hold' => exact h.ownClone u u' s s' hold.2 hold'.2 hclone
    · intro e he
      obtain ⟨s, hs, hclone⟩ := h.onChannel e he
      have hne : e.2.thread ≠ t := by
        intro heq
        rw [heq, hslot] at hs
        cases hs
      exact ⟨s, (Function.update_of_ne hne _ _).trans hs, hclone⟩

/-- INTERNAL: a closed span goes to the end of its thread's buffer. -/
theorem Carried.close (p : Pipeline T) (h : Carried p) (t : T) (record : SpanRecord) :
    Carried (p.close t record) := by
  have hpushed : Carried
      { p with
        pendingSpan := Function.update p.pendingSpan t (p.pendingSpan t ++ [record])
        closed := p.closed ++ [(t, record)] } := by
    refine ⟨?_, h.accepted, h.senders, h.ownClone, h.onChannel, h.arrived, h.sent, h.gains⟩
    intro u
    have hbefore := h.drained u
    unfold closedBy batchesBy at hbefore ⊢
    by_cases hu : u = t
    · subst hu
      simp only [List.filter_append, List.map_append, Function.update_self]
      rw [hbefore]
      simp
    · have hne : ¬ t = u := fun heq => hu heq.symm
      simp only [List.filter_append, List.map_append, Function.update_of_ne hu]
      rw [hbefore]
      simp [hne]
  simp only [Pipeline.close]
  split
  · exact hpushed.startFlush _ t
  · exact hpushed

/-- INTERNAL: an event goes into its thread's buffer. -/
theorem Carried.emit (p : Pipeline T) (h : Carried p) (t : T) (msg : EventMessage) :
    Carried (p.emit t msg) := by
  have hpushed : Carried
      { p with
        pendingEvent := Function.update p.pendingEvent t (p.pendingEvent t ++ [msg]) } :=
    h.of_same p _ rfl
  simp only [Pipeline.emit]
  split
  · exact hpushed.startFlush _ t
  · exact hpushed

/-- INTERNAL: a full buffer of events goes into the channel, or stays. -/
theorem Carried.sendEvents (p : Pipeline T) (h : Carried p) (t : T) (clone : ℕ) (full : Bool) :
    Carried (p.sendEvents t clone full) := by
  simp only [Pipeline.sendEvents]
  split
  · exact h.of_same p _ rfl
  · split
    · exact h.of_same p _ rfl
    · exact h.of_same p _ rfl

/-- INTERNAL: a batch on the channel is its thread's. -/
theorem sentBatch_filter (l : List SpanRecord) (clone count : ℕ) (t u : T) :
    ((l.map fun record =>
        (clone, ({ thread := t, record := record, eventsSent := count } : SentSpan T))).filter
      fun e => e.2.thread = u).map (fun e => e.2.record) = if t = u then l else [] := by
  by_cases htu : t = u
  · simp [List.filter_map, Function.comp_def, htu]
  · simp [List.filter_map, Function.comp_def, htu]

/-- INTERNAL: a drained buffer becomes a batch, on the channel or rejected as a whole. -/
theorem Carried.sendSpans (p : Pipeline T) (h : Carried p) (t : T) (senders : ThreadSenders)
    (full : Bool) (hsenders : p.threadSenders t = some senders) :
    Carried (p.sendSpans t senders.clone full) := by
  simp only [Pipeline.sendSpans]
  by_cases hempty : (p.pendingSpan t).isEmpty
  · rw [if_pos hempty]
    have hpending : Function.update p.pendingSpan t [] = p.pendingSpan := by
      rw [← List.isEmpty_iff.mp hempty]
      exact Function.update_eq_self t p.pendingSpan
    exact h.of_same p _ (by simp only [spanPath, hpending])
  · rw [if_neg hempty]
    have hdrained : ∀ u,
        closedBy p u = (((p.batches ++ [SpanBatch.mk t (p.pendingSpan t) !full]).filter
          fun b : SpanBatch T => b.thread = u).flatMap fun b => b.records) ++
            Function.update p.pendingSpan t [] u := by
      intro u
      have hbefore := h.drained u
      unfold batchesBy at hbefore
      rw [hbefore]
      by_cases hu : u = t
      · subst hu
        rw [Function.update_self]
        simp
      · have hne : ¬ t = u := fun heq => hu heq.symm
        rw [Function.update_of_ne hu]
        simp [hne]
    cases full with
    | true =>
      simp only [if_true]
      refine ⟨hdrained, ?_, h.senders, h.ownClone, h.onChannel, h.arrived, h.sent, h.gains⟩
      intro u
      have hbefore := h.accepted u
      unfold acceptedBy batchesBy channelBy at hbefore ⊢
      simp only [List.filter_append, List.flatMap_append]
      rw [hbefore]
      by_cases hu : t = u <;> simp [hu]
    | false =>
      simp only [Bool.false_eq_true, if_false]
      refine ⟨hdrained, ?_, h.senders, h.ownClone, ?_, h.arrived, h.sent, h.gains⟩
      · intro u
        have hbefore := h.accepted u
        unfold acceptedBy batchesBy channelBy at hbefore ⊢
        simp only [List.filter_append, List.flatMap_append, List.map_append]
        rw [hbefore, List.append_assoc]
        rw [sentBatch_filter]
        by_cases hu : t = u <;> simp [hu]
      · intro e he
        cases List.mem_append.mp he with
        | inl he => exact h.onChannel e he
        | inr he =>
          obtain ⟨record, -, heq⟩ := List.mem_map.mp he
          cases heq
          exact ⟨senders, hsenders, rfl⟩

/-! ## The steps of the driver -/

/-- INTERNAL: the messages of a thread on the channel are those of its clone. -/
theorem Carried.ownMessages (p : Pipeline T) (h : Carried p) (t : T) :
    ∀ e ∈ p.spanChannel, ∀ e' ∈ p.spanChannel, decide (e.2.thread = t) = true →
      (decide (e'.2.thread = t) = true ↔ e'.1 = e.1) := by
  intro e he e' he' hthread
  obtain ⟨s, hs, hclone⟩ := h.onChannel e he
  obtain ⟨s', hs', hclone'⟩ := h.onChannel e' he'
  have hthread : e.2.thread = t := of_decide_eq_true hthread
  constructor
  · intro hthread'
    have hsame : e'.2.thread = e.2.thread := (of_decide_eq_true hthread').trans hthread.symm
    rw [hsame, hs] at hs'
    rw [← hclone, ← hclone', Option.some.inj hs']
  · intro hsame
    have hthreads := h.ownClone _ _ s' s hs' hs (by rw [hclone, hclone', hsame])
    exact decide_eq_true (hthreads.trans hthread)

/-- INTERNAL: the driver takes the spans of each thread in the order they were sent. -/
theorem Carried.tookSpans (p : Pipeline T) (h : Carried p) (clones slow : List ℕ)
    (batch rest : List (ℕ × SentSpan T))
    (htake : takeAll clones p.spanChannel = some (batch, rest)) :
    Carried (tookSpans p slow batch rest) := by
  have horder := flush_order p.capacity p.join (.spans (batch.map fun e => e.2.record))
  refine ⟨h.drained, ?_, h.senders, h.ownClone, ?_, ?_, ?_, ?_⟩
  · intro t
    have hbefore := h.accepted t
    have hmine := takeAll_filter (fun e : ℕ × SentSpan T => e.2.thread = t) clones p.spanChannel
      batch rest (h.ownMessages p t) htake
    unfold acceptedBy batchesBy channelBy at hbefore ⊢
    simp only [Pipeline.tookSpans]
    rw [hbefore, takenBy_append, List.append_assoc, hmine, List.map_append]
    congr 2
    simp [takenBy, List.filter_map, Function.comp_def]
  · intro e he
    have hperm := takeAll_perm clones p.spanChannel batch rest htake
    exact h.onChannel e (hperm.mem_iff.mpr (List.mem_append.mpr (Or.inr he)))
  · simp only [Pipeline.tookSpans]
    rw [horder.2.1, h.arrived, List.map_append, List.map_map]
    simp [spansOf, Function.comp_def]
  · exact horder.2.2 h.sent
  · exact flush_gains p.capacity p.join _ h.gains

/-- INTERNAL: **every step keeps the spans where they are or moves them on in order**. -/
theorem Carried.step (p : Pipeline T) (a : PipelineStep T) (p' : Pipeline T) (h : Carried p)
    (hstep : p.step a = some p') : Carried p' := by
  cases pipeline_moves p p' a hstep with
  | close t record => exact h.close p t record
  | emit t msg => exact h.emit p t msg
  | flushPending t => exact h.startFlush p t
  | sendEvents t full => exact h.sendEvents p t _ full
  | sendSpans t full senders _ hsenders => exact h.sendSpans p t senders full hsenders
  | noEvents => exact h.of_same p _ rfl
  | pollEvents => exact h.of_same p _ rfl
  | noSpans => exact h.of_same p _ rfl
  | pollSpans clones slow batch rest _ htake => exact h.tookSpans p clones slow batch rest htake
  | subscribe => exact h.of_same p _ rfl
  | dropReceiver => exact h.of_same p _ rfl

/-! ## The subscribers -/

/-- INTERNAL: a subscriber after a batch, `none` when its sender is removed.
SRCLINE: driver.rs:178-186 -/
theorem mem_fanout (full : ℕ → Bool) (subs : List Subscriber) (prepared : List SpanRecord)
    (sender' : Subscriber) (h : sender' ∈ Driver.fanoutUnderLock full subs prepared) :
    ∃ sender ∈ subs, sender'.number = sender.number ∧ sender'.dropped = sender.dropped ∧
      (sender'.reportedFull = false → sender.reportedFull = false ∧
        (sender.dropped = false → sender'.delivered = sender.delivered ++ prepared)) := by
  unfold Driver.fanoutUnderLock at h
  by_cases hempty : prepared.isEmpty
  · rw [if_pos hempty] at h
    refine ⟨sender', h, rfl, rfl, fun hfull => ⟨hfull, fun _ => ?_⟩⟩
    rw [List.isEmpty_iff.mp hempty, List.append_nil]
  · rw [if_neg hempty, List.mem_filterMap] at h
    obtain ⟨sender, hmem, hsend⟩ := h
    refine ⟨sender, hmem, ?_⟩
    unfold Driver.sendMany at hsend
    by_cases hslow : full sender.number
    · simp only [hslow, if_true, Option.some.injEq] at hsend
      subst hsend
      exact ⟨rfl, rfl, fun hfull => by cases hfull⟩
    · cases hdropped : sender.dropped with
      | true => simp [hslow, hdropped] at hsend
      | false =>
        simp only [hslow, hdropped, Bool.false_eq_true, if_false, Option.some.injEq] at hsend
        subst hsend
        exact ⟨rfl, rfl, fun hfull => ⟨hfull, fun _ => rfl⟩⟩

/-- INTERNAL: only the senders of dropped receivers are removed. -/
theorem fanout_keeps (full : ℕ → Bool) (subs : List Subscriber) (prepared : List SpanRecord)
    (sender : Subscriber) (hmem : sender ∈ subs) (hlive : sender.dropped = false) :
    ∃ sender' ∈ Driver.fanoutUnderLock full subs prepared, sender'.number = sender.number := by
  unfold Driver.fanoutUnderLock
  by_cases hempty : prepared.isEmpty
  · rw [if_pos hempty]
    exact ⟨sender, hmem, rfl⟩
  · rw [if_neg hempty]
    by_cases hslow : full sender.number
    · refine ⟨{ sender with reportedFull := true }, List.mem_filterMap.mpr ⟨sender, hmem, ?_⟩, rfl⟩
      simp [Driver.sendMany, hslow]
    · refine ⟨{ sender with delivered := sender.delivered ++ prepared },
        List.mem_filterMap.mpr ⟨sender, hmem, ?_⟩, rfl⟩
      simp [Driver.sendMany, hslow, hlive]

/-- INTERNAL: the fanout adds no subscriber. -/
theorem fanout_numbers (full : ℕ → Bool) (subs : List Subscriber) (prepared : List SpanRecord) :
    ((Driver.fanoutUnderLock full subs prepared).map fun s => s.number).Sublist
      (subs.map fun s => s.number) := by
  unfold Driver.fanoutUnderLock
  split
  · exact List.Sublist.refl _
  · induction subs with
    | nil => exact List.Sublist.refl _
    | cons sender subs ih =>
      rw [List.filterMap_cons, List.map_cons]
      cases hsend : Driver.sendMany full prepared sender with
      | mk result sender' =>
        have hnumber : sender'.number = sender.number := by
          unfold Driver.sendMany at hsend
          split at hsend
          · cases hsend; rfl
          · split at hsend
            · cases hsend; rfl
            · cases hsend; rfl
        cases result with
        | ok => rw [List.map_cons, hnumber]; exact ih.cons_cons _
        | closed => exact ih.cons _
        | full => rw [List.map_cons, hnumber]; exact ih.cons_cons _

/-- INTERNAL: what every subscriber has received. -/
structure Served (p : Pipeline T) : Prop where
  numbers : (p.subscribers.map fun s => s.number).Pairwise (· < ·)
  registered : ∀ s ∈ p.subscribers, s.number < p.registered.length
  bounds : ∀ count ∈ p.registered, count ≤ p.join.fannedOut.length
  dropped : ∀ s ∈ p.subscribers, s.dropped = true ↔ s.number ∈ p.dropped
  wasRegistered : ∀ n ∈ p.dropped, n < p.registered.length
  kept : ∀ n < p.registered.length, n ∉ p.dropped → ∃ s ∈ p.subscribers, s.number = n
  delivered : ∀ s ∈ p.subscribers, s.dropped = false → s.reportedFull = false →
    ∀ count, p.registered[s.number]? = some count → s.delivered = p.join.fannedOut.drop count

omit [DecidableEq T] in
/-- INTERNAL: nothing is served at the start. -/
theorem served_start (cacheAddr pendingBatch capacity : ℕ) :
    Served (Pipeline.start cacheAddr pendingBatch capacity : Pipeline T) where
  numbers := List.Pairwise.nil
  registered := fun _ h => by cases h
  bounds := fun _ h => by cases h
  dropped := fun _ h => by cases h
  wasRegistered := fun _ h => by cases h
  kept := fun _ h => by cases h
  delivered := fun _ h => by cases h

/-- INTERNAL: the part of the pipeline subscribers see. -/
def subscriberView (p : Pipeline T) :=
  (p.subscribers, p.registered, p.dropped, p.join.fannedOut)

omit [DecidableEq T] in
/-- INTERNAL: what is served is a matter of the subscribers' part alone. -/
theorem Served.of_same (p p' : Pipeline T) (h : Served p)
    (hsame : subscriberView p' = subscriberView p) : Served p' := by
  simp only [subscriberView, Prod.mk.injEq] at hsame
  obtain ⟨hsubscribers, hregistered, hdropped, hsent⟩ := hsame
  refine ⟨?_, ?_, ?_, ?_, ?_, ?_, ?_⟩
  · rw [hsubscribers]
    exact h.numbers
  · rw [hsubscribers, hregistered]
    exact h.registered
  · rw [hregistered, hsent]
    exact h.bounds
  · rw [hsubscribers, hdropped]
    exact h.dropped
  · rw [hdropped, hregistered]
    exact h.wasRegistered
  · rw [hsubscribers, hregistered, hdropped]
    exact h.kept
  · rw [hsubscribers, hregistered, hsent]
    exact h.delivered

/-- INTERNAL: a flush of a thread serves nobody. -/
theorem Served.startFlush (p : Pipeline T) (h : Served p) (t : T) : Served (p.startFlush t) := by
  simp only [Pipeline.startFlush]
  split
  · exact h.of_same p _ rfl
  · exact h.of_same p _ rfl

/-- INTERNAL: nor does a closed span. -/
theorem Served.close (p : Pipeline T) (h : Served p) (t : T) (record : SpanRecord) :
    Served (p.close t record) := by
  have hpushed : Served
      { p with
        pendingSpan := Function.update p.pendingSpan t (p.pendingSpan t ++ [record])
        closed := p.closed ++ [(t, record)] } := h.of_same p _ rfl
  simp only [Pipeline.close]
  split
  · exact hpushed.startFlush _ t
  · exact hpushed

/-- INTERNAL: nor does an event. -/
theorem Served.emit (p : Pipeline T) (h : Served p) (t : T) (msg : EventMessage) :
    Served (p.emit t msg) := by
  have hpushed : Served
      { p with
        pendingEvent := Function.update p.pendingEvent t (p.pendingEvent t ++ [msg]) } :=
    h.of_same p _ rfl
  simp only [Pipeline.emit]
  split
  · exact hpushed.startFlush _ t
  · exact hpushed

omit [DecidableEq T] in
/-- INTERNAL: a new subscriber starts with nothing. -/
theorem Served.subscribe (p : Pipeline T) (h : Served p) : Served p.subscribe := by
  have hold : ∀ s ∈ p.subscribers, s.number ≠ p.registered.length := fun s hs heq =>
    Nat.lt_irrefl _ (heq ▸ h.registered s hs)
  refine ⟨?_, ?_, ?_, ?_, ?_, ?_, ?_⟩
  · simp only [Pipeline.subscribe, List.map_append, List.pairwise_append]
    refine ⟨h.numbers, List.pairwise_singleton _ _, ?_⟩
    intro n hn m hm
    obtain ⟨s, hs, rfl⟩ := List.mem_map.mp hn
    rw [List.map_singleton, List.mem_singleton] at hm
    rw [hm]
    exact h.registered s hs
  · intro s hs
    simp only [Pipeline.subscribe, List.length_append, List.length_singleton]
    cases List.mem_append.mp hs with
    | inl hs => exact Nat.lt_succ_of_lt (h.registered s hs)
    | inr hs => rw [List.mem_singleton.mp hs]; exact Nat.lt_succ_self _
  · intro count hcount
    cases List.mem_append.mp hcount with
    | inl hcount => exact h.bounds count hcount
    | inr hcount => rw [List.mem_singleton.mp hcount]; exact Nat.le_refl _
  · intro s hs
    cases List.mem_append.mp hs with
    | inl hs => exact h.dropped s hs
    | inr hs =>
      rw [List.mem_singleton.mp hs]
      refine ⟨fun hdrop => absurd hdrop Bool.false_ne_true, fun hmem => ?_⟩
      exact absurd (h.wasRegistered _ hmem) (Nat.lt_irrefl _)
  · intro n hn
    simp only [Pipeline.subscribe, List.length_append, List.length_singleton]
    exact Nat.lt_succ_of_lt (h.wasRegistered n hn)
  · intro n hn hlive
    simp only [Pipeline.subscribe, List.length_append, List.length_singleton] at hn
    by_cases hnew : n = p.registered.length
    · refine ⟨_, List.mem_append.mpr (Or.inr (List.mem_singleton.mpr rfl)), ?_⟩
      exact hnew.symm
    · obtain ⟨s, hs, hnumber⟩ := h.kept n (by omega) hlive
      exact ⟨s, List.mem_append.mpr (Or.inl hs), hnumber⟩
  · intro s hs hlive hfull count hcount
    simp only [Pipeline.subscribe] at hcount ⊢
    cases List.mem_append.mp hs with
    | inl hs =>
      rw [List.getElem?_append_left (h.registered s hs)] at hcount
      exact h.delivered s hs hlive hfull count hcount
    | inr hs =>
      rw [List.mem_singleton.mp hs] at hcount ⊢
      rw [List.getElem?_append_right (Nat.le_refl _), Nat.sub_self] at hcount
      cases hcount
      rw [List.drop_length]

omit [DecidableEq T] in
/-- INTERNAL: dropping a receiver marks its own sender. -/
theorem Served.dropReceiver (p : Pipeline T) (h : Served p) (n : ℕ)
    (hn : n < p.registered.length) : Served (p.dropReceiver n) := by
  have hmark : ∀ s' ∈ (p.dropReceiver n).subscribers, ∃ s ∈ p.subscribers,
      s'.number = s.number ∧ s'.delivered = s.delivered ∧ s'.reportedFull = s.reportedFull ∧
        (s'.dropped = true ↔ s.dropped = true ∨ s.number = n) := by
    intro s' hs'
    obtain ⟨s, hs, heq⟩ := List.mem_map.mp hs'
    refine ⟨s, hs, ?_⟩
    by_cases hnumber : s.number = n
    · rw [if_pos hnumber] at heq
      subst heq
      exact ⟨rfl, rfl, rfl, ⟨fun _ => Or.inr hnumber, fun _ => rfl⟩⟩
    · rw [if_neg hnumber] at heq
      subst heq
      exact ⟨rfl, rfl, rfl, ⟨Or.inl, fun hor => hor.resolve_right hnumber⟩⟩
  have hnumbers : ((p.dropReceiver n).subscribers.map fun s => s.number) =
      p.subscribers.map fun s => s.number := by
    simp only [Pipeline.dropReceiver, List.map_map]
    refine List.map_congr_left fun s _ => ?_
    simp only [Function.comp_apply]
    split <;> rfl
  refine ⟨by rw [hnumbers]; exact h.numbers, ?_, h.bounds, ?_, ?_, ?_, ?_⟩
  · intro s' hs'
    obtain ⟨s, hs, hnumber, -⟩ := hmark s' hs'
    rw [hnumber]
    exact h.registered s hs
  · intro s' hs'
    obtain ⟨s, hs, hnumber, -, -, hdropped⟩ := hmark s' hs'
    rw [hdropped, hnumber, h.dropped s hs]
    simp [Pipeline.dropReceiver]
  · intro m hm
    cases List.mem_append.mp hm with
    | inl hm => exact h.wasRegistered m hm
    | inr hm => rw [List.mem_singleton.mp hm]; exact hn
  · intro m hm hlive
    have hlive : m ∉ p.dropped ∧ m ≠ n := by simpa [Pipeline.dropReceiver] using hlive
    obtain ⟨s, hs, hnumber⟩ := h.kept m hm hlive.1
    refine ⟨s, List.mem_map.mpr ⟨s, hs, ?_⟩, hnumber⟩
    rw [if_neg (hnumber ▸ hlive.2)]
  · intro s' hs' hlive hfull count hcount
    obtain ⟨s, hs, hnumber, hdelivered, hreported, hdropped⟩ := hmark s' hs'
    rw [hdelivered]
    refine h.delivered s hs ?_ (hreported ▸ hfull) count (hnumber ▸ hcount)
    rw [← Bool.not_eq_true] at hlive ⊢
    exact fun hdrop => hlive (hdropped.mpr (Or.inl hdrop))

omit [DecidableEq T] in
/-- INTERNAL: a batch goes to every live subscriber that is not full. -/
theorem Served.tookSpans (p : Pipeline T) (h : Served p) (slow : List ℕ)
    (batch rest : List (ℕ × SentSpan T)) : Served (tookSpans p slow batch rest) := by
  have hmem := mem_fanout (fun n => n ∈ slow) p.subscribers
    (joinedSpans p.join.side (batch.map fun e => e.2.record))
  have hsent := fannedOut_flush_spans p.capacity p.join (batch.map fun e => e.2.record)
  simp only [Pipeline.tookSpans, flushSpanBatch_eq]
  refine ⟨h.numbers.sublist (fanout_numbers _ _ _), ?_, ?_, ?_, h.wasRegistered, ?_, ?_⟩
  · intro s' hs'
    obtain ⟨s, hs, hnumber, -⟩ := hmem s' hs'
    rw [hnumber]
    exact h.registered s hs
  · intro count hcount
    have hbound := h.bounds count hcount
    simp only [hsent, List.length_append]
    omega
  · intro s' hs'
    obtain ⟨s, hs, hnumber, hdropped, -⟩ := hmem s' hs'
    rw [hnumber, hdropped]
    exact h.dropped s hs
  · intro n hn hlive
    obtain ⟨s, hs, hnumber⟩ := h.kept n hn hlive
    have hlive : s.dropped = false := by
      rw [← Bool.not_eq_true, h.dropped s hs, hnumber]
      exact hlive
    obtain ⟨s', hs', hnumber'⟩ := fanout_keeps (fun n => n ∈ slow) p.subscribers
      (joinedSpans p.join.side (batch.map fun e => e.2.record)) s hs hlive
    exact ⟨s', hs', hnumber'.trans hnumber⟩
  · intro s' hs' hlive hfull count hcount
    obtain ⟨s, hs, hnumber, hdropped, hsend⟩ := hmem s' hs'
    have hbefore := hsend hfull
    have hcount : p.registered[s.number]? = some count := hnumber ▸ hcount
    have hprefix := h.delivered s hs (hdropped ▸ hlive) hbefore.1 count hcount
    have hbound := h.bounds count (List.mem_of_getElem? hcount)
    simp only [hsent]
    rw [hbefore.2 (hdropped ▸ hlive), hprefix, List.drop_append_of_le_length hbound]

/-- INTERNAL: what one step preserves. -/
theorem Served.step (p : Pipeline T) (a : PipelineStep T) (p' : Pipeline T) (h : Served p)
    (hstep : p.step a = some p') : Served p' := by
  cases pipeline_moves p p' a hstep with
  | close t record => exact h.close p t record
  | emit t msg => exact h.emit p t msg
  | flushPending t => exact h.startFlush p t
  | sendEvents t full senders =>
    simp only [Pipeline.sendEvents]
    split
    · exact h.of_same p _ rfl
    · split <;> exact h.of_same p _ rfl
  | sendSpans t full senders =>
    simp only [Pipeline.sendSpans]
    split
    · exact h.of_same p _ rfl
    · split <;> exact h.of_same p _ rfl
  | noEvents => exact h.of_same p _ rfl
  | pollEvents => exact h.of_same p _ rfl
  | noSpans => exact h.of_same p _ rfl
  | pollSpans clones slow batch rest => exact h.tookSpans p slow batch rest
  | subscribe => exact h.subscribe p
  | dropReceiver n hn => exact h.dropReceiver p n hn

end TracingConsole.Analysis
