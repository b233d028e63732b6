import TracingConsole.Analysis.EventsReachSpan
import TracingConsole.Analysis.Messages
import TracingConsole.Analysis.StoppedStreams
import TracingConsole.Model.Relay

/-!
# A span reaches the reducer once

Every hop from the driver to the reducer hands on what it holds in order, or loses some of it.
So what the reducer was given, with what is still on its way to it, is a subsequence of what the
host has fanned out (`Relaying`), and this also over a lost connection: the console reads an old
connection no more once it has made a new one, and the new one brings only what is fanned out
after it.
-/

set_option autoImplicit false

namespace TracingConsole.Analysis.Transit

open TracingConsole.Library TracingConsole.Model TracingConsole.Analysis
open TracingConsole.Analysis.SpanStreams

/-! ## The spans of the messages -/

/-- INTERNAL: the spans of some updates, in order. -/
def spansOf (updates : List Update) : List WireSpan := carried Update.spans updates

/-- INTERNAL: a response becomes an update without its spans changing.
SRCLINE: runtime.rs:142-150 -/
theorem bodyCarried_spans : bodyCarried Update.spans = ResponseBody.spans := by
  funext body
  cases body <;> rfl

/-- INTERNAL: what the console says of itself brings no span. -/
theorem ofItself_spans (u : Update) (hu : ofItself u = true) : u.spans = [] := by
  cases u <;> first | rfl | cases hu

/-- INTERNAL: the spans that wait for the reducer. -/
def channelSpans (n : NetworkTask) : List WireSpan := spansOf n.channel

/-- INTERNAL: beside the bursts no step of the task brings a span. -/
theorem step_quiet (n n' : NetworkTask) (a : NetworkStep) (h : n.step a = some n')
    (hburst : ∀ item items many error last, a ≠ .burst item items many error last) :
    channelSpans n' = channelSpans n ∧
      (n'.phase = .streaming → a ≠ .started → n.phase = .streaming) :=
  step_carried _ ofItself_spans n n' a h hburst

/-- INTERNAL: the spans of a burst that leaves nothing behind are those of the responses taken. -/
theorem burst_spans (taken : List ResponseBody) (ending : Option StreamItem)
    (hending : ending.all StreamItem.endsStream = true) (item : StreamItem)
    (items : List StreamItem)
    (hitems : taken.map StreamItem.response ++ ending.toList = item :: items)
    (hall : (takeBurst item items).2 = []) :
    spansOf (takeBurst item items).1.batch = taken.flatMap ResponseBody.spans := by
  rw [← bodyCarried_spans]
  exact burst_carried _ taken ending hending item items hitems hall

/-- INTERNAL: a burst goes to the channel as a whole, or not at all.
SRCLINE: runtime.rs:199-207 -/
theorem channelSpans_takeBatch (n : NetworkTask) (burst : Burst) (many error last : SendAnswer) :
    (channelSpans (n.takeBatch burst many error last)).Sublist
      (channelSpans n ++ spansOf burst.batch) := by
  unfold channelSpans spansOf
  rw [carried_takeBatch _ ofItself_spans]
  refine List.Sublist.append_left ?_ _
  split
  · exact List.Sublist.refl _
  · exact List.nil_sublist _

/-! ## A connection -/

/-- INTERNAL: the spans a task has taken over and not dealt with, in order. -/
def queued (t : SpanTask) : List SpanRecord := t.batch ++ t.spanRx.getD []

section Link

variable (unfilledInstant : ℕ) (base : TimeBase)

/-- INTERNAL: the spans still to come over a connection, in order. -/
def comingOver (l : Link) : List WireSpan :=
  l.inFlight.flatMap ResponseBody.spans ++
    ((l.server.tasks.flatMap queued).map (spanToWire unfilledInstant base))

/-- INTERNAL: nothing is coming over a new connection. -/
theorem comingOver_open (id : ℕ) : comingOver unfilledInstant base (Link.open id) = [] := rfl

/-- INTERNAL: what the driver fans out comes last. -/
theorem queued_deliver (t : SpanTask) (full : Bool) (batch : List SpanRecord) :
    (queued (t.deliver full batch)).Sublist (queued t ++ batch) := by
  unfold SpanTask.deliver
  split
  · exact List.sublist_append_left _ _
  · unfold queued
    cases hrx : t.spanRx with
    | none =>
      simp only [Option.map_none, Option.getD_none, List.append_nil]
      exact List.sublist_append_left _ _
    | some rx =>
      simp only [Option.map_some, Option.getD_some, List.append_assoc]
      exact List.Sublist.refl _

/-- INTERNAL: a fanout puts its batch at the end, or nothing. -/
theorem comingOver_fanout (l : Link) (t : SpanTask) (htasks : l.server.tasks = [t]) (slow : List ℕ)
    (batch : List SpanRecord) :
    (comingOver unfilledInstant base (Relay.fanout slow batch l)).Sublist
      (comingOver unfilledInstant base l ++ batch.map (spanToWire unfilledInstant base)) := by
  unfold comingOver Relay.fanout
  simp only [ConnectionState.step, Option.getD_some, htasks, List.mapIdx_cons, List.mapIdx_nil,
    List.flatMap_cons, List.flatMap_nil, List.append_nil]
  rw [List.append_assoc, ← List.map_append]
  exact ((queued_deliver t _ batch).map _).append_left _

/-- INTERNAL: the task of a stream stays the only one. -/
theorem tasks_fanout (l : Link) (t : SpanTask) (htasks : l.server.tasks = [t]) (slow : List ℕ)
    (batch : List SpanRecord) : ∃ t', (Relay.fanout slow batch l).server.tasks = [t'] := by
  unfold Relay.fanout
  simp only [ConnectionState.step, Option.getD_some, htasks, List.mapIdx_cons, List.mapIdx_nil]
  exact ⟨_, rfl⟩

/-- INTERNAL: the one task of a connection takes a step. -/
theorem withTask_only (c c' : ConnectionState) (t : SpanTask) (htasks : c.tasks = [t])
    (f : SpanTask → Option SpanTask) (h : c.withTask 0 f = some c') :
    ∃ t', t.ended = false ∧ f t = some t' ∧ c' = { c with tasks := [t'] } := by
  obtain ⟨u, t', hu, hended, hf, hc'⟩ := withTask_eq_some c c' 0 f h
  rw [htasks] at hu
  have hsame : t = u := Option.some.inj hu
  subst hsame
  exact ⟨t', hended, hf, by rw [hc', htasks]; rfl⟩

/-- INTERNAL: a new subscriber has nothing on its channel. -/
theorem queued_subscribe (t t' : SpanTask) (h : t.subscribe = some t') : queued t' = queued t := by
  unfold SpanTask.subscribe at h
  split at h
  · next hnone =>
    cases h
    unfold queued
    rw [Option.isNone_iff_eq_none.mp hnone]
    rfl
  · cases h

/-- INTERNAL: a batch that is read leaves the channel for the task, or is thrown away. -/
theorem queued_read (t t' : SpanTask) (state : StreamState) (k : ℕ) (h : t.read state k = some t') :
    (queued t').Sublist (queued t) := by
  unfold SpanTask.read at h
  split at h
  · next rx hrx =>
    split at h
    · next hready =>
      cases h
      unfold queued
      rw [hready.1, hrx]
      simp only [Option.getD_some, List.nil_append]
      split
      · rw [List.take_append_drop]
      · exact List.drop_sublist k rx
    · cases h
  · cases h

/-- INTERNAL: the next span of a batch goes on the wire or is skipped. -/
theorem comingOver_forward (l : Link) (t : SpanTask) (htasks : l.server.tasks = [t])
    (server : ConnectionState) (h : l.server.step (.forward 0) = some server) :
    (comingOver unfilledInstant base
      { l with
        server := server
        inFlight := l.inFlight ++ Relay.forwardedSpans unfilledInstant base l }).Sublist
      (comingOver unfilledInstant base l) ∧ ∃ t', server.tasks = [t'] := by
  obtain ⟨c, hnext, hserver, -⟩ := step_forward_eq l.server server 0 h
  obtain ⟨t', hended, hnext, hc⟩ := withTask_only l.server c t htasks _ hnext
  obtain ⟨record, hbatch, ht'⟩ := next_eq_some t t' hnext
  have htasks' : server.tasks = [t'] := by
    rw [hserver, hc]
  refine ⟨?_, t', htasks'⟩
  have hqueued : queued t = record :: queued t' := by
    unfold queued
    rw [ht', hbatch, List.cons_append]
  -- either the record is sent, or nothing is
  have hsent : Relay.forwardedSpans unfilledInstant base l =
      if t.passes record then [.span (spanToWire unfilledInstant base record)] else [] := by
    unfold Relay.forwardedSpans
    simp only [ConnectionState.forwarded, htasks, List.getElem?_cons_zero, hbatch, hended,
      List.head?_cons, Option.filter_some, Bool.not_false, Bool.true_and]
    split <;> rfl
  unfold comingOver
  dsimp only
  rw [hsent, htasks', htasks]
  simp only [List.flatMap_append, List.flatMap_cons, List.flatMap_nil, List.append_nil, hqueued,
    List.map_cons, List.append_assoc]
  refine List.Sublist.append_left ?_ _
  split
  · exact List.Sublist.refl _
  · exact List.sublist_cons_self _ _

end Link

/-! ## The host -/

section Host

variable {T : Type} [DecidableEq T]

/-- INTERNAL: a closed span is not joined yet. -/
theorem join_close (p : Pipeline T) (t : T) (record : SpanRecord) :
    (p.close t record).join = p.join := by
  unfold Pipeline.close
  dsimp only
  split
  · exact (join_startFlush _ t).1
  · rfl

/-- INTERNAL: nor is an event. -/
theorem join_emit (p : Pipeline T) (t : T) (msg : EventMessage) : (p.emit t msg).join = p.join := by
  unfold Pipeline.emit
  dsimp only
  split
  · exact (join_startFlush _ t).1
  · rfl

/-- INTERNAL: only a batch of spans adds to what is fanned out, and at the end.
SRCLINE: driver.rs:115-135 -/
theorem fannedOut_step (p p' : Pipeline T) (a : PipelineStep T) (hstep : p.step a = some p') :
    p.join.fannedOut <+: p'.join.fannedOut := by
  cases Pipeline.pipeline_moves p p' a hstep with
  | close t r => rw [join_close]
  | emit t msg => rw [join_emit]
  | flushPending t => rw [(join_startFlush p t).1]
  | sendEvents t full senders =>
    simp only [Pipeline.sendEvents]
    split
    · exact List.prefix_refl _
    · split <;> exact List.prefix_refl _
  | sendSpans t full senders =>
    simp only [Pipeline.sendSpans]
    split
    · exact List.prefix_refl _
    · split <;> exact List.prefix_refl _
  | noEvents => exact List.prefix_refl _
  | pollEvents => exact List.prefix_refl _
  | noSpans => exact List.prefix_refl _
  | pollSpans clones slow batch rest =>
    show _ <+: (p.join.flush p.capacity (.spans (batch.map fun e => e.2.record))).fannedOut
    rw [fannedOut_flush_spans]
    exact List.prefix_append _ _
  | subscribe => exact List.prefix_refl _
  | dropReceiver => exact List.prefix_refl _

/-- INTERNAL: what the host has fanned out only grows. -/
theorem fannedOut_system (s s' : System T) (h : Placed s.world) (a : SystemStep T)
    (hstep : s.step a = some s') :
    s.pipeline.join.fannedOut <+: s'.pipeline.join.fannedOut := by
  obtain ⟨-, hpipeline⟩ := system_step s s' h a hstep
  cases hpipeline with
  | inl hsame => rw [hsame.1]
  | inr hmove =>
    obtain ⟨b, hb, -⟩ := hmove
    exact fannedOut_step _ _ b hb

end Host

/-! ## The whole way -/

section Relay

variable {T : Type} [DecidableEq T] (unfilledInstant : ℕ) (base : TimeBase)

/-- INTERNAL: what the host has fanned out, as it is on the wire. -/
def sentOut (s : Relay T) : List WireSpan :=
  s.host.pipeline.join.fannedOut.map (spanToWire unfilledInstant base)

/-- INTERNAL: what the reducer was given, and what waits for it. -/
def heardSpans (s : Relay T) : List WireSpan := s.given ++ channelSpans s.network

/-- INTERNAL: **the invariant**: every connection has its one task, and what was heard, with what
still comes over the connection the network task is on, is in order and was fanned out. -/
structure Relaying (s : Relay T) : Prop where
  reaching : Reaching s.host
  tasks : ∀ l ∈ s.links, ∃ t, l.server.tasks = [t]
  heard : (heardSpans s).Sublist (sentOut unfilledInstant base s)
  coming : s.network.phase = .streaming → ∃ links l, s.links = links ++ [l] ∧
    (heardSpans s ++ comingOver unfilledInstant base l).Sublist (sentOut unfilledInstant base s)

/-- INTERNAL: nothing is on its way at the start. -/
theorem relaying_start (cache : SpanCache) (capacity : ℕ) (config : CacheConfig)
    (hcache : SpanCache.withConfig capacity config = some cache) (key : ℕ) (keys : T → ℕ)
    (cacheAddr historyBudget : ℕ) :
    Relaying unfilledInstant base
      (Relay.start cache key keys cacheAddr capacity historyBudget : Relay T) where
  reaching := reaching_run cache capacity config hcache key keys cacheAddr [] _ rfl
  tasks := by simp [Relay.start]
  heard := List.Sublist.refl _
  coming := by simp [Relay.start, NetworkTask.start]

variable (s s' : Relay T)

/-- INTERNAL: a step of the host brings what it fans out to the connections. -/
theorem Relaying.host (h : Relaying unfilledInstant base s) (a : SystemStep T)
    (hstep : s.hostStep a = some s') : Relaying unfilledInstant base s' := by
  unfold Relay.hostStep at hstep
  split at hstep
  · cases hstep
  · obtain ⟨host, hhost, hs'⟩ := Option.map_eq_some_iff.mp hstep
    subst hs'
    obtain ⟨more, hmore⟩ := fannedOut_system s.host host h.reaching.delivering.placed a hhost
    have hgrown : host.pipeline.join.fannedOut.drop s.host.pipeline.join.fannedOut.length =
        more := by
      rw [← hmore, List.drop_left]
    have hsent : host.pipeline.join.fannedOut.map (spanToWire unfilledInstant base) =
        sentOut unfilledInstant base s ++ more.map (spanToWire unfilledInstant base) := by
      rw [← hmore, List.map_append]
      rfl
    refine ⟨h.reaching.step s.host a host hhost, ?_, ?_, ?_⟩
    · intro l' hl'
      obtain ⟨l, hl, hfan⟩ := List.mem_map.mp hl'
      obtain ⟨t, ht⟩ := h.tasks l hl
      rw [← hfan]
      exact tasks_fanout l t ht _ _
    · show (heardSpans s).Sublist (host.pipeline.join.fannedOut.map _)
      rw [hsent]
      exact h.heard.trans (List.sublist_append_left _ _)
    · intro hphase
      obtain ⟨links, l, hlinks, hcoming⟩ := h.coming hphase
      obtain ⟨t, ht⟩ := h.tasks l (by simp [hlinks])
      refine ⟨links.map (Relay.fanout (Relay.slowIn a) more),
        Relay.fanout (Relay.slowIn a) more l, ?_, ?_⟩
      · show s.links.map _ = _
        rw [hgrown, hlinks, List.map_append, List.map_singleton]
      · show (heardSpans s ++ _).Sublist (host.pipeline.join.fannedOut.map _)
        rw [hsent]
        have hfan := comingOver_fanout unfilledInstant base l t ht (Relay.slowIn a) more
        refine (hfan.append_left _).trans ?_
        rw [← List.append_assoc]
        exact hcoming.append_right _

/-- INTERNAL: a connection changes, and what comes over it only gets less. -/
theorem Relaying.setLink (h : Relaying unfilledInstant base s) (host : System T)
    (hreaching : Reaching host)
    (hgrows : s.host.pipeline.join.fannedOut <+: host.pipeline.join.fannedOut) (n : ℕ)
    (l l' : Link) (hl : s.links[n]? = some l) (htask : ∃ t, l'.server.tasks = [t])
    (hless : (comingOver unfilledInstant base l').Sublist (comingOver unfilledInstant base l)) :
    Relaying unfilledInstant base { s with host := host, links := s.links.set n l' } := by
  have hsent : (sentOut unfilledInstant base s).Sublist
      (host.pipeline.join.fannedOut.map (spanToWire unfilledInstant base)) :=
    hgrows.sublist.map _
  refine ⟨hreaching, ?_, h.heard.trans hsent, ?_⟩
  · intro k hk
    cases List.mem_or_eq_of_mem_set hk with
    | inl hold => exact h.tasks k hold
    | inr hnew => exact hnew ▸ htask
  · intro hphase
    obtain ⟨links, last, hlinks, hcoming⟩ := h.coming hphase
    have hbound : n < links.length + 1 := by
      have hlt := (List.getElem?_eq_some_iff.mp hl).1
      rw [hlinks, List.length_append, List.length_singleton] at hlt
      exact hlt
    by_cases hlast : n = links.length
    · -- the connection is the one the network task reads
      have hsame : l = last := by
        rw [hlinks, hlast] at hl
        simpa using hl.symm
      refine ⟨links, l', ?_, ?_⟩
      · show s.links.set n l' = _
        rw [hlinks, hlast]
        simp
      · rw [← hsame] at hcoming
        exact ((hless.append_left _).trans hcoming).trans hsent
    · refine ⟨links.set n l', last, ?_, hcoming.trans hsent⟩
      show s.links.set n l' = _
      rw [hlinks, List.set_append_left _ _ (by omega)]

/-- INTERNAL: **a step of a connection's task**. -/
theorem Relaying.link (h : Relaying unfilledInstant base s) (n : ℕ) (a : LinkStep)
    (hstep : s.linkStep unfilledInstant base n a = some s') :
    Relaying unfilledInstant base s' := by
  unfold Relay.linkStep at hstep
  split at hstep
  · cases hstep
  · next l hl =>
    obtain ⟨t, htasks⟩ := h.tasks l (List.mem_of_getElem? hl)
    have hsame : s.host.pipeline.join.fannedOut <+: s.host.pipeline.join.fannedOut :=
      List.prefix_refl _
    cases a with
    | subscribe =>
      obtain ⟨server, hserver, hstep⟩ := Option.bind_eq_some_iff.mp hstep
      obtain ⟨host, hhost, hs'⟩ := Option.map_eq_some_iff.mp hstep
      obtain ⟨t', -, hsub, hc⟩ := withTask_only l.server server t htasks _ hserver
      subst hs'
      refine h.setLink unfilledInstant base s host (h.reaching.step _ _ _ hhost)
        (fannedOut_system _ _ h.reaching.delivering.placed _ hhost) n l _ hl ⟨t', ?_⟩ ?_
      · rw [hc]
      · unfold comingOver
        dsimp only
        rw [hc, htasks]
        simp only [List.flatMap_cons, List.flatMap_nil, List.append_nil, queued_subscribe t t' hsub]
        exact List.Sublist.refl _
    | read k =>
      obtain ⟨server, hserver, hs'⟩ := Option.map_eq_some_iff.mp hstep
      obtain ⟨t', -, hread, hc⟩ := withTask_only l.server server t htasks _ hserver
      subst hs'
      refine h.setLink unfilledInstant base s s.host h.reaching hsame n l _ hl ⟨t', ?_⟩ ?_
      · rw [hc]
      · unfold comingOver
        dsimp only
        rw [hc, htasks]
        simp only [List.flatMap_cons, List.flatMap_nil, List.append_nil]
        exact (((queued_read t t' _ k hread).map _).append_left _)
    | forward =>
      obtain ⟨server, hserver, hs'⟩ := Option.map_eq_some_iff.mp hstep
      subst hs'
      obtain ⟨hless, htask⟩ := comingOver_forward unfilledInstant base l t htasks server hserver
      exact h.setLink unfilledInstant base s s.host h.reaching hsame n l _ hl htask hless
    | finish =>
      obtain ⟨server, hserver, hstep⟩ := Option.bind_eq_some_iff.mp hstep
      obtain ⟨host, hhost, hs'⟩ := Option.map_eq_some_iff.mp hstep
      obtain ⟨t', -, hended, hc⟩ := withTask_only l.server server t htasks _ hserver
      cases hended
      subst hs'
      have hhost : Reaching host ∧
          s.host.pipeline.join.fannedOut <+: host.pipeline.join.fannedOut := by
        cases hsub : l.subscription with
        | some m =>
          rw [hsub] at hhost
          exact ⟨h.reaching.step _ _ _ hhost,
            fannedOut_system _ _ h.reaching.delivering.placed _ hhost⟩
        | none =>
          rw [hsub] at hhost
          cases hhost
          exact ⟨h.reaching, hsame⟩
      refine h.setLink unfilledInstant base s host hhost.1 hhost.2 n l _ hl ⟨_, by rw [hc]⟩ ?_
      unfold comingOver
      dsimp only
      rw [hc, htasks]
      exact List.Sublist.refl _
    | push body =>
      dsimp only at hstep
      split at hstep
      · next hbody =>
        cases hstep
        refine h.setLink unfilledInstant base s s.host h.reaching hsame n l _ hl ⟨t, htasks⟩ ?_
        unfold comingOver
        simp only [List.flatMap_append, List.flatMap_cons, List.flatMap_nil, List.append_nil, hbody]
        exact List.Sublist.refl _
      · cases hstep

/-- INTERNAL: a step of the network task that reads nothing. -/
theorem Relaying.network (h : Relaying unfilledInstant base s) (a : NetworkStep)
    (hstep : s.networkStep a = some s') : Relaying unfilledInstant base s' := by
  have hquiet : ∀ network, s.network.step a = some network →
      (∀ item items many error last, a ≠ .burst item items many error last) → a ≠ .started →
      Relaying unfilledInstant base { s with network := network } := by
    intro network hnetwork hburst hstarted
    obtain ⟨hspans, hphase⟩ := step_quiet s.network network a hnetwork hburst
    have hheard : heardSpans { s with network := network } = heardSpans s := by
      unfold heardSpans
      rw [hspans]
    refine ⟨h.reaching, h.tasks, ?_, fun hstreaming => ?_⟩
    · rw [hheard]
      exact h.heard
    · rw [hheard]
      exact h.coming (hphase hstreaming hstarted)
  unfold Relay.networkStep at hstep
  split at hstep
  · cases hstep
  · -- a new connection, over which nothing comes yet
    obtain ⟨network, hnetwork, hs'⟩ := Option.map_eq_some_iff.mp hstep
    subst hs'
    obtain ⟨hspans, -⟩ := step_quiet s.network network .started hnetwork
      fun _ _ _ _ _ heq => by cases heq
    have hheard : s.given ++ channelSpans network = heardSpans s := by
      unfold heardSpans
      rw [hspans]
    refine ⟨h.reaching, ?_, ?_, fun _ => ⟨s.links, Link.open s.network.nextId, rfl, ?_⟩⟩
    · intro l hl
      cases List.mem_append.mp hl with
      | inl hold => exact h.tasks l hold
      | inr hnew => exact ⟨_, by rw [List.mem_singleton.mp hnew]; rfl⟩
    · show (s.given ++ channelSpans network).Sublist _
      rw [hheard]
      exact h.heard
    · show (s.given ++ channelSpans network ++ _).Sublist _
      rw [hheard, comingOver_open, List.append_nil]
      exact h.heard
  · next hburst hstarted =>
    obtain ⟨network, hnetwork, hs'⟩ := Option.map_eq_some_iff.mp hstep
    subst hs'
    exact hquiet network hnetwork (fun _ _ _ _ _ heq => hburst _ _ _ _ _ heq) hstarted

/-- INTERNAL: **a burst**: what it takes off the connection is heard, or lost as a whole. -/
theorem Relaying.burst (h : Relaying unfilledInstant base s) (ready : ℕ)
    (ending : Option StreamItem) (many error last : SendAnswer)
    (hstep : s.burstStep ready ending many error last = some s') :
    Relaying unfilledInstant base s' := by
  obtain ⟨links, l, item, items, hlinks, hphase, hitems, hending, hall, hs'⟩ :=
    burstStep_eq_some s s' ready ending many error last hstep
  subst hs'
  obtain ⟨links₁, l₁, hlinks₁, hcoming⟩ := h.coming hphase
  obtain ⟨-, hsame⟩ := List.append_inj' (hlinks₁.symm.trans hlinks) rfl
  rw [List.singleton_inj.mp hsame] at hcoming
  -- the spans of the batch are those of the responses taken
  have hbatch : spansOf (takeBurst item items).1.batch =
      (l.inFlight.take ready).flatMap ResponseBody.spans :=
    burst_spans _ ending hending item items hitems hall
  have hflight : l.inFlight.flatMap ResponseBody.spans =
      spansOf (takeBurst item items).1.batch ++
        (l.inFlight.drop ready).flatMap ResponseBody.spans := by
    rw [hbatch, ← List.flatMap_append, List.take_append_drop]
  have hchannel := channelSpans_takeBatch s.network (takeBurst item items).1 many error last
  set network := s.network.takeBatch (takeBurst item items).1 many error last
  have hnew : (s.given ++ channelSpans network ++
      comingOver unfilledInstant base { l with inFlight := l.inFlight.drop ready }).Sublist
      (heardSpans s ++ comingOver unfilledInstant base l) := by
    unfold heardSpans comingOver
    rw [hflight]
    simp only [List.append_assoc]
    refine List.Sublist.append_left ?_ _
    rw [← List.append_assoc (channelSpans s.network)]
    exact hchannel.append_right _
  refine ⟨h.reaching, ?_, ?_, fun _ => ⟨links, _, rfl, hnew.trans hcoming⟩⟩
  · intro l' hl'
    cases List.mem_append.mp hl' with
    | inl hold => exact h.tasks l' (by rw [hlinks]; exact List.mem_append_left _ hold)
    | inr hlast =>
      rw [List.mem_singleton.mp hlast]
      exact h.tasks l (by simp [hlinks])
  · exact ((List.sublist_append_left _ _).trans hnew).trans hcoming

/-- INTERNAL: an update of another sender brings no span. -/
theorem spans_other (u : Update) (hu : ¬ u.fromNetwork = true) : u.spans = [] := by
  cases u <;> first | rfl | exact absurd rfl hu

/-- INTERNAL: **the step lemma**. -/
theorem Relaying.step (a : RelayStep T) (h : Relaying unfilledInstant base s)
    (hstep : s.step unfilledInstant base a = some s') : Relaying unfilledInstant base s' := by
  cases a with
  | host a => exact h.host unfilledInstant base s s' a hstep
  | link n a => exact h.link unfilledInstant base s s' n a hstep
  | network a => exact h.network unfilledInstant base s s' a hstep
  | burst ready ending many error last =>
    exact h.burst unfilledInstant base s s' ready ending many error last hstep
  | take now =>
    simp only [Relay.step] at hstep
    split at hstep
    · cases hstep
    · next u channel hchannel =>
      obtain ⟨r, -, hs'⟩ := Option.map_eq_some_iff.mp hstep
      subst hs'
      have hheard : s.given ++ u.spans ++ spansOf channel = heardSpans s := by
        unfold heardSpans channelSpans
        rw [hchannel, List.append_assoc]
        rfl
      refine ⟨h.reaching, h.tasks, ?_, fun hphase => ?_⟩
      · show (s.given ++ u.spans ++ spansOf channel).Sublist _
        rw [hheard]
        exact h.heard
      · obtain ⟨links, l, hlinks, hcoming⟩ := h.coming hphase
        refine ⟨links, l, hlinks, ?_⟩
        show (s.given ++ u.spans ++ spansOf channel ++ _).Sublist _
        rw [hheard]
        exact hcoming
  | other now u =>
    simp only [Relay.step] at hstep
    split at hstep
    · cases hstep
    · next hu =>
      obtain ⟨r, -, hs'⟩ := Option.map_eq_some_iff.mp hstep
      subst hs'
      have hgiven : s.given ++ u.spans = s.given := by
        rw [spans_other u hu, List.append_nil]
      refine ⟨h.reaching, h.tasks, ?_, fun hphase => ?_⟩
      · show (s.given ++ u.spans ++ channelSpans s.network).Sublist _
        rw [hgiven]
        exact h.heard
      · obtain ⟨links, l, hlinks, hcoming⟩ := h.coming hphase
        refine ⟨links, l, hlinks, ?_⟩
        show (s.given ++ u.spans ++ channelSpans s.network ++ _).Sublist _
        rw [hgiven]
        exact hcoming

end Relay

end TracingConsole.Analysis.Transit
