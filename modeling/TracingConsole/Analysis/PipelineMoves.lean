import TracingConsole.Analysis.EventJoin
import TracingConsole.Library.Runs
import TracingConsole.Model.Pipeline

/-!
# What a step of the pipeline does

`Moves` lists the effects of the steps with what the code has checked by then;
`pipeline_moves` is the only place where the step function of the pipeline is taken apart.
-/

set_option autoImplicit false

namespace TracingConsole.Analysis.Pipeline

open TracingConsole.Library TracingConsole.Model

variable {T : Type} [DecidableEq T]

/-- INTERNAL: the pipeline after the driver took a batch of events. -/
def tookEvents (p : Pipeline T) (batch rest : List (ℕ × EventMessage)) : Pipeline T :=
  { p with
    eventChannel := rest
    join := p.join.flush p.capacity (.events (batch.map Prod.snd)) }

/-- INTERNAL: the pipeline after the driver took a batch of spans. -/
def tookSpans (p : Pipeline T) (slow : List ℕ) (batch rest : List (ℕ × SentSpan T)) :
    Pipeline T :=
  { p with
    spanChannel := rest
    poll := .events
    join := p.join.flush p.capacity (.spans (batch.map fun e => e.2.record))
    subscribers := (Driver.flushSpanBatch (fun n => n ∈ slow) p.join.side p.subscribers
      (batch.map fun e => e.2.record)).2.1
    taken := p.taken ++ batch.map fun e =>
      { thread := e.2.thread, record := e.2.record, eventsSent := e.2.eventsSent,
        eventsPolled := p.eventsPolled } }

/-- INTERNAL: the effects of the steps. -/
inductive Moves (p : Pipeline T) : PipelineStep T → Pipeline T → Prop
  | close (t : T) (record : SpanRecord) (hflush : p.flush t = .idle) :
      Moves p (.close t record) (p.close t record)
  | emit (t : T) (msg : EventMessage) (hflush : p.flush t = .idle) :
      Moves p (.emit t msg) (p.emit t msg)
  | flushPending (t : T) (hflush : p.flush t = .idle) :
      Moves p (.flushPending t) (p.startFlush t)
  | sendEvents (t : T) (full : Bool) (senders : ThreadSenders) (hflush : p.flush t = .events)
      (hsenders : p.threadSenders t = some senders) :
      Moves p (.sendEvents t full) (p.sendEvents t senders.clone full)
  | sendSpans (t : T) (full : Bool) (senders : ThreadSenders) (hflush : p.flush t = .spans)
      (hsenders : p.threadSenders t = some senders) :
      Moves p (.sendSpans t full) (p.sendSpans t senders.clone full)
  /-- the event channel is empty, so the span channel is next -/
  | noEvents (clones : List ℕ) (hpoll : p.poll = .events) (hempty : p.eventChannel = []) :
      Moves p (.pollEvents clones)
        { p with poll := .spans, eventsPolled := p.eventsSent.length }
  | pollEvents (clones : List ℕ) (batch rest : List (ℕ × EventMessage)) (hpoll : p.poll = .events)
      (htake : takeAll clones p.eventChannel = some (batch, rest)) :
      Moves p (.pollEvents clones) (tookEvents p batch rest)
  | noSpans (clones slow : List ℕ) (hpoll : p.poll = .spans) :
      Moves p (.pollSpans clones slow) { p with poll := .events }
  | pollSpans (clones slow : List ℕ) (batch rest : List (ℕ × SentSpan T)) (hpoll : p.poll = .spans)
      (htake : takeAll clones p.spanChannel = some (batch, rest)) :
      Moves p (.pollSpans clones slow) (tookSpans p slow batch rest)
  | subscribe : Moves p .subscribe p.subscribe
  | dropReceiver (n : ℕ) (hn : n < p.registered.length) :
      Moves p (.dropReceiver n) (p.dropReceiver n)

/-- INTERNAL: the driver takes the events that wait. -/
theorem pollEvents_moves (p p' : Pipeline T) (clones : List ℕ) (hpoll : p.poll = .events)
    (hstep : p.pollEvents clones = some p') : Moves p (.pollEvents clones) p' := by
  unfold Pipeline.pollEvents at hstep
  by_cases hempty : p.eventChannel.isEmpty
  · rw [if_pos hempty] at hstep
    split at hstep
    · cases hstep
      exact .noEvents clones hpoll (List.isEmpty_iff.mp hempty)
    · cases hstep
  · rw [if_neg hempty] at hstep
    split at hstep
    · cases hstep
    · obtain ⟨r, htake, heq⟩ := Option.map_eq_some_iff.mp hstep
      cases heq
      exact .pollEvents clones r.1 r.2 hpoll htake

/-- INTERNAL: the driver takes the spans that wait. -/
theorem pollSpans_moves (p p' : Pipeline T) (clones slow : List ℕ) (hpoll : p.poll = .spans)
    (hstep : p.pollSpans clones slow = some p') : Moves p (.pollSpans clones slow) p' := by
  unfold Pipeline.pollSpans at hstep
  split at hstep
  · split at hstep
    · cases hstep
      exact .noSpans clones slow hpoll
    · cases hstep
  · split at hstep
    · cases hstep
    · obtain ⟨r, htake, heq⟩ := Option.map_eq_some_iff.mp hstep
      cases heq
      exact .pollSpans clones slow r.1 r.2 hpoll htake

/-- INTERNAL: **every step is a move**. -/
theorem pipeline_moves (p p' : Pipeline T) (a : PipelineStep T) (hstep : p.step a = some p') :
    Moves p a p' := by
  cases a with
  | close t record =>
    simp only [Pipeline.step] at hstep
    split at hstep
    · next hflush => cases hstep; exact .close t record hflush
    · cases hstep
  | emit t msg =>
    simp only [Pipeline.step] at hstep
    split at hstep
    · next hflush => cases hstep; exact .emit t msg hflush
    · cases hstep
  | flushPending t =>
    simp only [Pipeline.step] at hstep
    split at hstep
    · next hflush => cases hstep; exact .flushPending t hflush
    · cases hstep
  | sendEvents t full =>
    simp only [Pipeline.step] at hstep
    split at hstep
    · next senders hflush hsenders => cases hstep; exact .sendEvents t full senders hflush hsenders
    · cases hstep
  | sendSpans t full =>
    simp only [Pipeline.step] at hstep
    split at hstep
    · next senders hflush hsenders => cases hstep; exact .sendSpans t full senders hflush hsenders
    · cases hstep
  | pollEvents clones =>
    simp only [Pipeline.step] at hstep
    split at hstep
    · next hpoll => exact pollEvents_moves p p' clones hpoll hstep
    · cases hstep
  | pollSpans clones slow =>
    simp only [Pipeline.step] at hstep
    split at hstep
    · next hpoll => exact pollSpans_moves p p' clones slow hpoll hstep
    · cases hstep
  | subscribe => cases hstep; exact .subscribe
  | dropReceiver n =>
    simp only [Pipeline.step] at hstep
    split at hstep
    · next hn => cases hstep; exact .dropReceiver n hn
    · cases hstep

end TracingConsole.Analysis.Pipeline
