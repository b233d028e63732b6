import TracingConsole.Analysis.RelayedSpans

/-!
# What the console misses

The converse of `RelayedSpans`.  A span is lost for one of three reasons only: the subscriber of
the connection was full, the reducer's channel refused a burst, or the stream ended.  In a run
without these the reducer is given, in order, everything fanned out since the subscription
(`Complete`): neither the filters of the connection nor the bursts lose anything.
-/

set_option autoImplicit false

namespace TracingConsole.Analysis.Transit

open TracingConsole.Library TracingConsole.Model TracingConsole.Analysis
open TracingConsole.Analysis.SpanStreams

/-! ## The filters of a connection -/

/-- INTERNAL: the full rate is one. -/
theorem one_toRat : F64.one.toRat = 1 := by
  have hmsb : F64.one.bits.msb = false := by decide
  unfold F64.toRat
  rw [hmsb]
  norm_num [F64.one]

/-- INTERNAL: without a level and at the full rate every record passes.
SRCLINE: server.rs:320-328, 343-346 -/
theorem passes_all (t : SpanTask) (hlevel : t.minLevel = none) (hrate : t.samplingRate = F64.one)
    (record : SpanRecord) : t.passes record = true := by
  unfold SpanTask.passes samplingPasses
  rw [hlevel, hrate, one_toRat, if_pos le_rfl]
  rfl

/-- INTERNAL: a connection whose stream runs with the filters it was made with.  The console never
asks for others. -/
structure Unfiltered (c : ConnectionState) (t : SpanTask) : Prop where
  tasks : c.tasks = [t]
  running : t.ended = false
  streaming : c.state.streaming = true
  level : c.state.minLevel = none ∧ t.minLevel = none
  rate : c.state.samplingRate = F64.one ∧ t.samplingRate = F64.one

/-- INTERNAL: a new connection filters nothing. -/
theorem unfiltered_open (id : ℕ) : ∃ t, Unfiltered (Link.open id).server t ∧ t.spanRx = none :=
  ⟨_, ⟨rfl, rfl, rfl, ⟨rfl, rfl⟩, rfl, rfl⟩, rfl⟩

/-! ## Steps that lose nothing -/

section Losses

variable {T : Type} [DecidableEq T] (unfilledInstant : ℕ) (base : TimeBase)

/-- INTERNAL: the subscribers of the console are not full, no stream ends and no burst is
refused. -/
def losesNothing (s : Relay T) : RelayStep T → Bool
  | .host a => s.links.all fun l => Relay.fullTasks (Relay.slowIn a) l.subscription = []
  | .link _ .finish => false
  | .network (.outgoingClosed _) => false
  | .burst _ ending many _ _ => ending = none ∧ many = .accepted
  | _ => true

/-- INTERNAL: what has come and what is to come over a connection is what was fanned out since it
subscribed. -/
def Arrives (s : Relay T) (l : Link) (t : SpanTask) : Prop :=
  (l.subscription = none ∧ t.spanRx = none ∧
      heardSpans s ++ comingOver unfilledInstant base l = []) ∨
    ∃ m count rx, l.subscription = some m ∧ t.spanRx = some rx ∧
      s.host.pipeline.registered[m]? = some count ∧
      heardSpans s ++ comingOver unfilledInstant base l =
        (sentOut unfilledInstant base s).drop count

/-- INTERNAL: **the invariant**: before the first stream nothing is heard, and a stream brings
everything. -/
structure Complete (s : Relay T) : Prop where
  reaching : Reaching s.host
  before : s.network.phase ≠ .streaming → s.links = [] ∧ heardSpans s = []
  since : s.network.phase = .streaming → ∃ l t, s.links = [l] ∧ Unfiltered l.server t ∧
    Arrives unfilledInstant base s l t

variable (s s' : Relay T)

/-- INTERNAL: a registration keeps its place.
SRCLINE: cache.rs:283-292 -/
theorem registered_step (p p' : Pipeline T) (a : PipelineStep T) (hstep : p.step a = some p') :
    p.registered <+: p'.registered := by
  have hflush (p : Pipeline T) (t : T) : (p.startFlush t).registered = p.registered := by
    unfold Pipeline.startFlush
    dsimp only
    split <;> rfl
  cases Pipeline.pipeline_moves p p' a hstep with
  | close t r =>
    unfold Pipeline.close
    dsimp only
    split
    · rw [hflush]
    · exact List.prefix_refl _
  | emit t msg =>
    unfold Pipeline.emit
    dsimp only
    split
    · rw [hflush]
    · exact List.prefix_refl _
  | flushPending t => rw [hflush]
  | sendEvents t full senders =>
    simp only [Pipeline.sendEvents]
    split
    · exact List.prefix_refl _
    · split <;> exact List.prefix_refl _
  | sendSpans t full senders =>
    simp only [Pipeline.sendSpans]
    split
    · exact List.prefix_refl _
    · split <;> exact List.prefix_refl _
  | subscribe => exact List.prefix_append _ _
  | noEvents | pollEvents | noSpans | pollSpans | dropReceiver => exact List.prefix_refl _

/-- INTERNAL: who is registered stays so. -/
theorem registered_system (s s' : System T) (h : Placed s.world) (a : SystemStep T)
    (hstep : s.step a = some s') : s.pipeline.registered <+: s'.pipeline.registered := by
  obtain ⟨-, hpipeline⟩ := system_step s s' h a hstep
  cases hpipeline with
  | inl hsame => rw [hsame.1]
  | inr hmove =>
    obtain ⟨b, hb, -⟩ := hmove
    exact registered_step _ _ b hb

/-- INTERNAL: a batch reaches a task whose subscriber has room. -/
theorem fanout_arrives (l : Link) (t : SpanTask) (h : Unfiltered l.server t) (slow : List ℕ)
    (hfull : Relay.fullTasks slow l.subscription = []) (batch : List SpanRecord) :
    ∃ t', Unfiltered (Relay.fanout slow batch l).server t' ∧
      t'.spanRx = t.spanRx.map fun rx => rx ++ batch := by
  refine ⟨t.deliver false batch, ⟨?_, ?_, h.streaming, ⟨h.level.1, ?_⟩, h.rate.1, ?_⟩, ?_⟩
  · unfold Relay.fanout
    simp only [ConnectionState.step, Option.getD_some, h.tasks, List.mapIdx_cons, List.mapIdx_nil,
      hfull, List.not_mem_nil, decide_false]
  · rw [(deliver_frame t false batch).2.1]
    exact h.running
  · rw [(deliver_frame t false batch).2.2.1]
    exact h.level.2
  · rw [(deliver_frame t false batch).2.2.2]
    exact h.rate.2
  · unfold SpanTask.deliver
    rw [h.running]
    rfl

/-- INTERNAL: what comes over a connection, by its one task. -/
theorem comingOver_eq (l : Link) (t : SpanTask) (htasks : l.server.tasks = [t]) :
    comingOver unfilledInstant base l = l.inFlight.flatMap ResponseBody.spans ++
      (t.batch ++ t.spanRx.getD []).map (spanToWire unfilledInstant base) := by
  unfold comingOver
  rw [htasks]
  simp only [List.flatMap_cons, List.flatMap_nil, List.append_nil]
  rfl

/-- INTERNAL: a step of the host brings all it fans out. -/
theorem Complete.host (h : Complete unfilledInstant base s) (a : SystemStep T)
    (hok : losesNothing s (.host a) = true) (hstep : s.hostStep a = some s') :
    Complete unfilledInstant base s' := by
  unfold Relay.hostStep at hstep
  split at hstep
  · cases hstep
  · obtain ⟨host, hhost, hs'⟩ := Option.map_eq_some_iff.mp hstep
    subst hs'
    obtain ⟨more, hmore⟩ := fannedOut_system s.host host h.reaching.delivering.placed a hhost
    obtain ⟨later, hlater⟩ := registered_system s.host host h.reaching.delivering.placed a hhost
    have hgrown : host.pipeline.join.fannedOut.drop s.host.pipeline.join.fannedOut.length =
        more := by
      rw [← hmore, List.drop_left]
    refine ⟨h.reaching.step s.host a host hhost, fun hphase => ?_, fun hphase => ?_⟩
    · obtain ⟨hlinks, hheard⟩ := h.before hphase
      refine ⟨?_, hheard⟩
      show s.links.map _ = []
      rw [hlinks]
      rfl
    · obtain ⟨l, t, hlinks, hserver, harrives⟩ := h.since hphase
      obtain ⟨t', hserver', hrx'⟩ := fanout_arrives l t hserver (Relay.slowIn a)
        (by simpa using List.all_eq_true.mp hok l (by simp [hlinks])) more
      refine ⟨Relay.fanout (Relay.slowIn a) more l, t', ?_, hserver', ?_⟩
      · show s.links.map _ = _
        rw [hgrown, hlinks]
        rfl
      · have hbatch : t'.batch = t.batch := by
          have htasks : (Relay.fanout (Relay.slowIn a) more l).server.tasks = [t'] := hserver'.tasks
          unfold Relay.fanout at htasks
          simp only [ConnectionState.step, Option.getD_some, hserver.tasks, List.mapIdx_cons,
            List.mapIdx_nil, List.cons.injEq, and_true] at htasks
          rw [← htasks]
          exact (deliver_frame t _ more).1
        have hcoming : comingOver unfilledInstant base (Relay.fanout (Relay.slowIn a) more l) =
            l.inFlight.flatMap ResponseBody.spans ++ (t.batch ++
              (t.spanRx.map fun rx => rx ++ more).getD []).map (spanToWire unfilledInstant base) := by
          rw [comingOver_eq unfilledInstant base _ t' hserver'.tasks, hbatch, hrx']
          rfl
        have hold := comingOver_eq unfilledInstant base l t hserver.tasks
        cases harrives with
        | inl hnone =>
          obtain ⟨hsub, hrx, hnothing⟩ := hnone
          refine Or.inl ⟨hsub, by rw [hrx', hrx]; rfl, ?_⟩
          show heardSpans s ++ _ = []
          rw [hcoming, hrx, Option.map_none, ← hrx, ← hold]
          exact hnothing
        | inr hsome =>
          obtain ⟨m, count, rx, hsub, hrx, hcount, hall⟩ := hsome
          refine Or.inr ⟨m, count, rx ++ more, hsub, by rw [hrx', hrx]; rfl, ?_, ?_⟩
          · show host.pipeline.registered[m]? = some count
            rw [← hlater, List.getElem?_append_left (List.getElem?_eq_some_iff.mp hcount).1]
            exact hcount
          · have hbound := h.reaching.delivering.served.bounds count (List.mem_of_getElem? hcount)
            show heardSpans s ++ _ = (host.pipeline.join.fannedOut.map _).drop count
            have hsplit : host.pipeline.join.fannedOut.map (spanToWire unfilledInstant base) =
                sentOut unfilledInstant base s ++
                  more.map (spanToWire unfilledInstant base) := by
              rw [← hmore, List.map_append]
              rfl
            rw [hsplit, List.drop_append_of_le_length (by simpa [sentOut] using hbound), ← hall,
              hcoming, hold, hrx]
            simp only [Option.map_some, Option.getD_some, List.map_append, List.append_assoc]

/-- INTERNAL: the running connection changes, and nothing is lost. -/
theorem Complete.setLink (h : Complete unfilledInstant base s) (n : ℕ) (l l' : Link)
    (t : SpanTask) (hl : s.links[n]? = some l) (hserver : Unfiltered l.server t)
    (hsub : l'.subscription = l.subscription)
    (hchange : ∃ t', Unfiltered l'.server t' ∧ (t'.spanRx.isNone = t.spanRx.isNone))
    (hsame : comingOver unfilledInstant base l' = comingOver unfilledInstant base l) :
    Complete unfilledInstant base { s with links := s.links.set n l' } := by
  refine ⟨h.reaching, fun hphase => ?_, fun hphase => ?_⟩
  · obtain ⟨hlinks, -⟩ := h.before hphase
    rw [hlinks] at hl
    cases hl
  · obtain ⟨k, u, hlinks, hrunning, harrives⟩ := h.since hphase
    have hn : n = 0 ∧ k = l := by
      rw [hlinks] at hl
      cases n with
      | zero => exact ⟨rfl, Option.some.inj hl⟩
      | succ n => cases hl
    obtain ⟨hn, hk⟩ := hn
    subst hn hk
    have hu : u = t := by
      have htasks := hrunning.tasks.symm.trans hserver.tasks
      exact (List.cons.inj htasks).1
    subst hu
    obtain ⟨t', hserver', hrx⟩ := hchange
    refine ⟨l', t', by rw [hlinks]; rfl, hserver', ?_⟩
    cases harrives with
    | inl hnone =>
      obtain ⟨hnosub, hnorx, hnothing⟩ := hnone
      rw [hnorx] at hrx
      refine Or.inl ⟨hsub.trans hnosub, Option.isNone_iff_eq_none.mp hrx, ?_⟩
      rw [hsame]
      exact hnothing
    | inr hsome =>
      obtain ⟨m, count, rx, hmsub, hmrx, hcount, hall⟩ := hsome
      rw [hmrx] at hrx
      obtain ⟨rx', hrx'⟩ := Option.isSome_iff_exists.mp (Option.isNone_eq_false_iff.mp hrx)
      refine Or.inr ⟨m, count, rx', hsub.trans hmsub, hrx', hcount, ?_⟩
      rw [hsame]
      exact hall

/-- INTERNAL: the one connection of a run that loses nothing. -/
theorem Complete.only (h : Complete unfilledInstant base s) (n : ℕ) (l : Link)
    (hl : s.links[n]? = some l) :
    s.network.phase = .streaming ∧ n = 0 ∧ s.links = [l] ∧
      ∃ t, Unfiltered l.server t ∧ Arrives unfilledInstant base s l t := by
  have hphase : s.network.phase = .streaming := by
    by_contra hidle
    rw [(h.before hidle).1] at hl
    cases hl
  obtain ⟨k, t, hlinks, hserver, harrives⟩ := h.since hphase
  rw [hlinks] at hl
  cases n with
  | zero =>
    have hk : k = l := Option.some.inj hl
    subst hk
    exact ⟨hphase, rfl, hlinks, t, hserver, harrives⟩
  | succ n => cases hl

/-- INTERNAL: the task subscribes: nothing has been heard, and nothing fanned out since.
SRCLINE: server.rs:272-291 -/
theorem Complete.subscribed (h : Complete unfilledInstant base s) (n : ℕ) (l : Link)
    (hl : s.links[n]? = some l)
    (hstep : s.linkStep unfilledInstant base n .subscribe = some s') :
    Complete unfilledInstant base s' := by
  obtain ⟨hphase, hn, hlinks, t, hserver, harrives⟩ := h.only unfilledInstant base s n l hl
  unfold Relay.linkStep at hstep
  rw [hl] at hstep
  obtain ⟨server, hsubscribed, hstep⟩ := Option.bind_eq_some_iff.mp hstep
  obtain ⟨host, hhost, hs'⟩ := Option.map_eq_some_iff.mp hstep
  obtain ⟨t', -, hsub, hc⟩ := withTask_only l.server server t hserver.tasks _ hsubscribed
  subst hs'
  have hnew : t.spanRx = none ∧ t' = { t with spanRx := some [] } := by
    unfold SpanTask.subscribe at hsub
    split at hsub
    · next hnone =>
      cases hsub
      exact ⟨Option.isNone_iff_eq_none.mp hnone, rfl⟩
    · cases hsub
  obtain ⟨hnorx, ht'⟩ := hnew
  have hpipeline : host.pipeline = s.host.pipeline.subscribe := by
    simp only [System.step, PipelineStep.isTransport, Pipeline.step, Option.map_some,
      if_true] at hhost
    cases hhost
    rfl
  have hserver' : Unfiltered server t' := by
    rw [hc, ht']
    exact ⟨rfl, hserver.running, hserver.streaming, hserver.level, hserver.rate⟩
  refine ⟨h.reaching.step _ _ _ hhost, fun hidle => absurd hphase hidle, fun _ => ?_⟩
  refine ⟨_, t', by rw [hlinks, hn]; rfl, hserver', Or.inr
    ⟨_, s.host.pipeline.join.fannedOut.length, [], rfl, by rw [ht'], ?_, ?_⟩⟩
  · show host.pipeline.registered[s.host.pipeline.registered.length]? = _
    rw [hpipeline]
    exact List.getElem?_concat_length
  · -- nothing has been heard, and nothing fanned out since
    have hnothing : heardSpans s ++ comingOver unfilledInstant base l = [] := by
      cases harrives with
      | inl hnone => exact hnone.2.2
      | inr hsome =>
        obtain ⟨m, count, rx, -, hrx, -⟩ := hsome
        rw [hnorx] at hrx
        cases hrx
    show heardSpans s ++ _ = (host.pipeline.join.fannedOut.map _).drop _
    rw [comingOver_eq unfilledInstant base _ t' hserver'.tasks, ht']
    rw [comingOver_eq unfilledInstant base l t hserver.tasks, hnorx] at hnothing
    have hjoin : host.pipeline.join = s.host.pipeline.join := by rw [hpipeline]; rfl
    rw [hjoin, ← List.map_drop, List.drop_length]
    exact hnothing

/-- INTERNAL: a batch comes out of the channel, to be sent.
SRCLINE: server.rs:307-319 -/
theorem Complete.readBatch (h : Complete unfilledInstant base s) (n : ℕ) (l : Link)
    (hl : s.links[n]? = some l) (k : ℕ)
    (hstep : s.linkStep unfilledInstant base n (.read k) = some s') :
    Complete unfilledInstant base s' := by
  obtain ⟨hphase, hn, hlinks, t, hserver, harrives⟩ := h.only unfilledInstant base s n l hl
  unfold Relay.linkStep at hstep
  rw [hl] at hstep
  obtain ⟨server, hread, hs'⟩ := Option.map_eq_some_iff.mp hstep
  obtain ⟨t', -, hread, hc⟩ := withTask_only l.server server t hserver.tasks _ hread
  subst hs'
  unfold SpanTask.read at hread
  split at hread
  · next rx hrx =>
    split at hread
    · next hready =>
      have ht' := Option.some.inj hread
      have hserver' : Unfiltered server t' := by
        rw [hc, ← ht']
        exact ⟨rfl, hserver.running, hserver.streaming, ⟨hserver.level.1, hserver.level.1⟩,
          hserver.rate.1, hserver.rate.1⟩
      refine h.setLink unfilledInstant base s n l _ t hl hserver rfl
        ⟨t', hserver', by rw [← ht', hrx]; rfl⟩ ?_
      rw [comingOver_eq unfilledInstant base _ t' hserver'.tasks,
        comingOver_eq unfilledInstant base l t hserver.tasks, hready.1, hrx, ← ht']
      simp only [hserver.streaming, if_true, Option.getD_some, List.take_append_drop,
        List.nil_append]
    · cases hread
  · cases hread

/-- INTERNAL: the next span goes on the wire: nothing is filtered.
SRCLINE: server.rs:320-330 -/
theorem Complete.forwarded (h : Complete unfilledInstant base s) (n : ℕ) (l : Link)
    (hl : s.links[n]? = some l)
    (hstep : s.linkStep unfilledInstant base n .forward = some s') :
    Complete unfilledInstant base s' := by
  obtain ⟨hphase, hn, hlinks, t, hserver, harrives⟩ := h.only unfilledInstant base s n l hl
  unfold Relay.linkStep at hstep
  rw [hl] at hstep
  obtain ⟨server, hforward, hs'⟩ := Option.map_eq_some_iff.mp hstep
  subst hs'
  obtain ⟨c, hnext, htasks, hstate⟩ := step_forward_eq l.server server 0 hforward
  obtain ⟨t', -, hnext, hc⟩ := withTask_only l.server c t hserver.tasks _ hnext
  obtain ⟨record, hbatch, ht'⟩ := next_eq_some t t' hnext
  have hserver' : Unfiltered server t' := by
    refine ⟨by rw [htasks, hc], ?_, ?_, ?_, ?_⟩
    · rw [ht']
      exact hserver.running
    · rw [hstate, hc]
      exact hserver.streaming
    · rw [hstate, hc, ht']
      exact hserver.level
    · rw [hstate, hc, ht']
      exact hserver.rate
  have hsent : Relay.forwardedSpans unfilledInstant base l =
      [.span (spanToWire unfilledInstant base record)] := by
    unfold Relay.forwardedSpans
    simp only [ConnectionState.forwarded, hserver.tasks, List.getElem?_cons_zero, hbatch,
      hserver.running, List.head?_cons, Option.filter_some, Bool.not_false, Bool.true_and,
      passes_all t hserver.level.2 hserver.rate.2 record, if_true]
    rfl
  refine h.setLink unfilledInstant base s n l _ t hl hserver rfl
    ⟨t', hserver', by rw [ht']⟩ ?_
  rw [comingOver_eq unfilledInstant base _ t' hserver'.tasks,
    comingOver_eq unfilledInstant base l t hserver.tasks, hsent, hbatch]
  have hrx : t'.spanRx = t.spanRx := by rw [ht']
  rw [hrx]
  simp only [List.flatMap_append, List.flatMap_cons, List.flatMap_nil, List.append_nil,
    List.append_assoc, List.cons_append, List.map_cons]
  rfl

/-- INTERNAL: **a step of the connection's task**. -/
theorem Complete.link (h : Complete unfilledInstant base s) (n : ℕ) (a : LinkStep)
    (hok : losesNothing s (.link n a) = true) (hstep : s.linkStep unfilledInstant base n a = some s') :
    Complete unfilledInstant base s' := by
  cases hl : s.links[n]? with
  | none =>
    unfold Relay.linkStep at hstep
    rw [hl] at hstep
    cases hstep
  | some l =>
    cases a with
    | subscribe => exact h.subscribed unfilledInstant base s s' n l hl hstep
    | read k => exact h.readBatch unfilledInstant base s s' n l hl k hstep
    | forward => exact h.forwarded unfilledInstant base s s' n l hl hstep
    | finish => cases hok
    | push body =>
      obtain ⟨-, -, -, t, hserver, -⟩ := h.only unfilledInstant base s n l hl
      unfold Relay.linkStep at hstep
      rw [hl] at hstep
      dsimp only at hstep
      split at hstep
      · next hbody =>
        cases hstep
        refine h.setLink unfilledInstant base s n l _ t hl hserver rfl ⟨t, hserver, rfl⟩ ?_
        unfold comingOver
        simp only [List.flatMap_append, List.flatMap_cons, List.flatMap_nil, List.append_nil, hbody]
      · cases hstep

/-- INTERNAL: a step of the network task that reads nothing and does not end the stream. -/
theorem Complete.network (h : Complete unfilledInstant base s) (a : NetworkStep)
    (hok : losesNothing s (.network a) = true) (hstep : s.networkStep a = some s') :
    Complete unfilledInstant base s' := by
  have hquiet : ∀ network, s.network.step a = some network →
      (∀ item items many error last, a ≠ .burst item items many error last) →
      (network.phase = .streaming ↔ s.network.phase = .streaming) →
      Complete unfilledInstant base { s with network := network } := by
    intro network hnetwork hburst hphase
    obtain ⟨hspans, -⟩ := step_quiet s.network network a hnetwork hburst
    have hheard : s.given ++ channelSpans network = heardSpans s := by
      unfold heardSpans
      rw [hspans]
    refine ⟨h.reaching, fun hidle => ?_, fun hstreaming => ?_⟩
    · obtain ⟨hlinks, hnothing⟩ := h.before fun hold => hidle (hphase.mpr hold)
      exact ⟨hlinks, hheard.trans hnothing⟩
    · obtain ⟨l, t, hlinks, hserver, harrives⟩ := h.since (hphase.mp hstreaming)
      refine ⟨l, t, hlinks, hserver, ?_⟩
      unfold Arrives at harrives ⊢
      show (_ ∧ _ ∧ s.given ++ channelSpans network ++ _ = []) ∨
        ∃ m count rx, _ ∧ _ ∧ _ ∧ s.given ++ channelSpans network ++ _ = _
      rw [hheard]
      exact harrives
  unfold Relay.networkStep at hstep
  split at hstep
  · cases hstep
  · -- the first stream
    obtain ⟨network, hnetwork, hs'⟩ := Option.map_eq_some_iff.mp hstep
    subst hs'
    obtain ⟨hspans, -⟩ := step_quiet s.network network .started hnetwork
      fun _ _ _ _ _ heq => by cases heq
    have hstarting : s.network.phase = .starting ∧ network.phase = .streaming := by
      simp only [NetworkTask.step] at hnetwork
      split at hnetwork
      · next hphase =>
        cases hnetwork
        exact ⟨hphase, rfl⟩
      · cases hnetwork
    obtain ⟨hlinks, hnothing⟩ := h.before (by rw [hstarting.1]; decide)
    obtain ⟨t, hserver, hrx⟩ := unfiltered_open s.network.nextId
    refine ⟨h.reaching, fun hidle => absurd hstarting.2 hidle, fun _ => ?_⟩
    refine ⟨Link.open s.network.nextId, t, ?_, hserver, Or.inl ⟨rfl, hrx, ?_⟩⟩
    · show s.links ++ _ = _
      rw [hlinks]
      rfl
    · show s.given ++ channelSpans network ++ _ = []
      rw [hspans, comingOver_open, List.append_nil]
      exact hnothing
  · next hburst hstarted =>
    obtain ⟨network, hnetwork, hs'⟩ := Option.map_eq_some_iff.mp hstep
    subst hs'
    refine hquiet network hnetwork (fun _ _ _ _ _ heq => hburst _ _ _ _ _ heq) ?_
    cases a with
    | burst item items many error last => exact absurd rfl (hburst item items many error last)
    | started => exact absurd rfl hstarted
    | outgoingClosed last => cases hok
    | outgoing req =>
      simp only [NetworkTask.step] at hnetwork
      split at hnetwork
      · cases hnetwork
        rfl
      · cases hnetwork
    | dial | connectFailed | connected | startFailed | wake =>
      simp only [NetworkTask.step] at hnetwork
      split at hnetwork
      · next hphase =>
        cases hnetwork
        rw [hphase]
        simp
      · cases hnetwork

/-- INTERNAL: responses alone do not end a stream.
SRCLINE: runtime.rs:179-198 -/
theorem drainReady_open (items : List StreamItem) (batch : List Update)
    (h : ∀ item ∈ items, item.endsStream = false) :
    (drainReady batch items).1.streamEndedAt = none ∧
      (drainReady batch items).1.streamDropped = false := by
  induction items generalizing batch with
  | nil => exact ⟨rfl, rfl⟩
  | cons item items ih =>
    have hitem := h item (by simp)
    unfold drainReady
    split
    · cases item with
      | response body => exact ih _ fun k hk => h k (by simp [hk])
      | failed e => cases hitem
      | ended => cases hitem
    · exact ⟨rfl, rfl⟩

/-- INTERNAL: a burst of spans leaves the stream open. -/
theorem takeBurst_open (item : StreamItem) (items : List StreamItem)
    (h : ∀ k ∈ item :: items, k.endsStream = false) :
    (takeBurst item items).1.streamEndedAt = none ∧
      (takeBurst item items).1.streamDropped = false := by
  have hitem := h item (by simp)
  cases item with
  | response body => exact drainReady_open items _ fun k hk => h k (by simp [hk])
  | failed e => cases hitem
  | ended => cases hitem

/-- INTERNAL: **an accepted burst**: what it takes off the connection is heard. -/
theorem Complete.burst (h : Complete unfilledInstant base s) (ready : ℕ)
    (ending : Option StreamItem) (many error last : SendAnswer)
    (hok : losesNothing s (.burst ready ending many error last) = true)
    (hstep : s.burstStep ready ending many error last = some s') :
    Complete unfilledInstant base s' := by
  obtain ⟨hending, hmany⟩ := of_decide_eq_true hok
  subst hending hmany
  obtain ⟨links, k, item, items, hlinks, hphase, hitems, hnone, hall, hs'⟩ :=
    burstStep_eq_some s s' ready none .accepted error last hstep
  subst hs'
  obtain ⟨l, t, hlinks₁, hserver, harrives⟩ := h.since hphase
  obtain ⟨hempty, hsame⟩ := List.append_inj' (hlinks.symm.trans hlinks₁ : _ = [] ++ [l]) rfl
  rw [← List.singleton_inj.mp hsame] at hserver harrives
  subst hempty
  have hbatch : spansOf (takeBurst item items).1.batch =
      (k.inFlight.take ready).flatMap ResponseBody.spans :=
    burst_spans _ none hnone item items hitems hall
  rw [Option.toList_none, List.append_nil] at hitems
  obtain ⟨hended, hdropped⟩ := takeBurst_open item items fun i hi => by
    rw [← hitems] at hi
    obtain ⟨body, -, hbody⟩ := List.mem_map.mp hi
    rw [← hbody]
    rfl
  -- the channel takes the whole batch, and the task stays on the stream
  have hchannel : channelSpans
      (s.network.takeBatch (takeBurst item items).1 .accepted error last) =
        channelSpans s.network ++ spansOf (takeBurst item items).1.batch :=
    carried_takeBatch _ ofItself_spans s.network _ .accepted error last
  have hstreaming :
      (s.network.takeBatch (takeBurst item items).1 .accepted error last).phase = .streaming := by
    unfold NetworkTask.takeBatch
    dsimp only
    rw [if_neg (by simp), hended, hdropped]
    dsimp only
    rw [if_neg (by simp)]
    split <;> exact hphase
  set network := s.network.takeBatch (takeBurst item items).1 .accepted error last
  refine ⟨h.reaching, fun hidle => absurd hstreaming hidle, fun _ => ?_⟩
  refine ⟨{ k with inFlight := k.inFlight.drop ready }, t, rfl, hserver, ?_⟩
  have hmoved : s.given ++ channelSpans network ++
      comingOver unfilledInstant base { k with inFlight := k.inFlight.drop ready } =
      heardSpans s ++ comingOver unfilledInstant base k := by
    unfold heardSpans comingOver
    rw [hchannel, hbatch]
    have hflight : k.inFlight.flatMap ResponseBody.spans =
        (k.inFlight.take ready).flatMap ResponseBody.spans ++
          (k.inFlight.drop ready).flatMap ResponseBody.spans := by
      rw [← List.flatMap_append, List.take_append_drop]
    rw [hflight]
    simp only [List.append_assoc]
  unfold Arrives at harrives ⊢
  show (_ ∧ _ ∧ s.given ++ channelSpans network ++ _ = []) ∨
    ∃ m count rx, _ ∧ _ ∧ _ ∧ s.given ++ channelSpans network ++ _ = _
  rw [hmoved]
  exact harrives

/-- INTERNAL: the reducer takes what was heard. -/
theorem Complete.taken (h : Complete unfilledInstant base s)
    (hsame : heardSpans s' = heardSpans s) (hhost : s'.host = s.host) (hlinks : s'.links = s.links)
    (hphase : s'.network.phase = s.network.phase) : Complete unfilledInstant base s' := by
  refine ⟨hhost ▸ h.reaching, fun hidle => ?_, fun hstreaming => ?_⟩
  · rw [hlinks, hsame]
    exact h.before (hphase ▸ hidle)
  · obtain ⟨l, t, hone, hserver, harrives⟩ := h.since (hphase ▸ hstreaming)
    refine ⟨l, t, hlinks.trans hone, hserver, ?_⟩
    unfold Arrives sentOut at harrives ⊢
    rw [hsame, hhost]
    exact harrives

/-- INTERNAL: **the step lemma**. -/
theorem Complete.step (a : RelayStep T) (h : Complete unfilledInstant base s)
    (hok : losesNothing s a = true) (hstep : s.step unfilledInstant base a = some s') :
    Complete unfilledInstant base s' := by
  cases a with
  | host a => exact h.host unfilledInstant base s s' a hok hstep
  | link n a => exact h.link unfilledInstant base s s' n a hok hstep
  | network a => exact h.network unfilledInstant base s s' a hok hstep
  | burst ready ending many error last =>
    exact h.burst unfilledInstant base s s' ready ending many error last hok hstep
  | take now =>
    simp only [Relay.step] at hstep
    split at hstep
    · cases hstep
    · next u channel hchannel =>
      obtain ⟨r, -, hs'⟩ := Option.map_eq_some_iff.mp hstep
      subst hs'
      refine h.taken unfilledInstant base s _ ?_ rfl rfl rfl
      unfold heardSpans channelSpans
      rw [hchannel]
      exact List.append_assoc _ _ _
  | other now u =>
    simp only [Relay.step] at hstep
    split at hstep
    · cases hstep
    · next hu =>
      obtain ⟨r, -, hs'⟩ := Option.map_eq_some_iff.mp hstep
      subst hs'
      refine h.taken unfilledInstant base s _ ?_ rfl rfl rfl
      unfold heardSpans
      rw [spans_other u hu, List.append_nil]

/-- INTERNAL: nothing is missing at the start. -/
theorem complete_start (cache : SpanCache) (capacity : ℕ) (config : CacheConfig)
    (hcache : SpanCache.withConfig capacity config = some cache) (key : ℕ) (keys : T → ℕ)
    (cacheAddr historyBudget : ℕ) :
    Complete unfilledInstant base
      (Relay.start cache key keys cacheAddr capacity historyBudget : Relay T) where
  reaching := reaching_run cache capacity config hcache key keys cacheAddr [] _ rfl
  before := fun _ => ⟨rfl, rfl⟩
  since := fun hphase => by cases hphase

/-- CODE: driver.rs:115-187, server.rs:253-333, runtime.rs:85-263 — **nothing is missed for any
other reason**: in a run in which no subscriber of the console is full, no stream ends and no
burst is refused, the reducer was given, in order, what the host fanned out since the console's
subscription, up to what is still on its way. -/
theorem relayed_spans_complete (cache : SpanCache) (capacity : ℕ) (config : CacheConfig)
    (hcache : SpanCache.withConfig capacity config = some cache) (key : ℕ) (keys : T → ℕ)
    (cacheAddr historyBudget : ℕ) (steps : List (RelayStep T)) (s : Relay T)
    (hok : RunsUnder (Relay.step unfilledInstant base) (fun s a => losesNothing s a = true)
      (Relay.start cache key keys cacheAddr capacity historyBudget) steps)
    (hrun : run (Relay.step unfilledInstant base)
      (Relay.start cache key keys cacheAddr capacity historyBudget) steps = some s) (l : Link)
    (hl : l ∈ s.links) (m : ℕ) (hm : l.subscription = some m) :
    s.links = [l] ∧ ∃ count, s.host.pipeline.registered[m]? = some count ∧
      s.given ++ channelSpans s.network ++ comingOver unfilledInstant base l =
        (s.host.pipeline.join.fannedOut.drop count).map (spanToWire unfilledInstant base) := by
  have h := run_invariant_under (Relay.step unfilledInstant base)
    (fun s a => losesNothing s a = true)
    (Complete unfilledInstant base)
    (fun s a s' h hok hstep => h.step unfilledInstant base s s' a hok hstep) _ steps s
    (complete_start unfilledInstant base cache capacity config hcache key keys cacheAddr
      historyBudget) hok hrun
  obtain ⟨n, hn⟩ := List.mem_iff_getElem?.mp hl
  obtain ⟨-, -, hlinks, t, -, harrives⟩ := h.only unfilledInstant base s n l hn
  refine ⟨hlinks, ?_⟩
  cases harrives with
  | inl hnone =>
    rw [hm] at hnone
    cases hnone.1
  | inr hsome =>
    obtain ⟨k, count, rx, hk, -, hcount, hall⟩ := hsome
    rw [hm] at hk
    cases hk
    refine ⟨count, hcount, ?_⟩
    rw [List.map_drop]
    exact hall

end Losses

/-- INTERNAL: the first connection of `dialsTwice`, up to the child span. -/
def oneConnection : List (RelayStep Bool) := dialsTwice.take 36

/-- INTERNAL: what is read off the end of the run. -/
theorem oneConnection_ends :
    ((run (Relay.step 0 { instantAtStart := 0, systimeAtStart := 0 })
        (Relay.start twoSlots 0 (fun _ => 0) 7 2 4) oneConnection).map fun s =>
      (s.given.map WireSpan.id, s.links.map Link.subscription)) = some ([1025], [some 0]) := by
  decide +kernel

/-- INTERNAL: the run meets the condition. -/
theorem oneConnection_ok : RunsUnder (Relay.step 0 { instantAtStart := 0, systimeAtStart := 0 })
    (fun s a => losesNothing s a = true) (Relay.start twoSlots 0 (fun _ => 0) 7 2 4)
    oneConnection := by
  decide +kernel

/-- CODE: runtime.rs:85-263 — the span was fanned out after the subscription, and is there. -/
theorem relayed_spans_complete_one_connection :
    ∃ s l, run (Relay.step 0 { instantAtStart := 0, systimeAtStart := 0 })
        (Relay.start twoSlots 0 (fun _ => 0) 7 2 4) oneConnection = some s ∧ s.links = [l] ∧
      s.given.map WireSpan.id = [1025] ∧
      ∃ count, s.host.pipeline.registered[0]? = some count ∧
        s.given ++ channelSpans s.network ++
          comingOver 0 { instantAtStart := 0, systimeAtStart := 0 } l =
        (s.host.pipeline.join.fannedOut.drop count).map
          (spanToWire 0 { instantAtStart := 0, systimeAtStart := 0 }) := by
  obtain ⟨s, hrun, hends⟩ := Option.map_eq_some_iff.mp oneConnection_ends
  obtain ⟨hgiven, hlinks⟩ := Prod.mk.inj hends
  obtain ⟨l, hl, hsub⟩ := List.map_eq_singleton_iff.mp hlinks
  obtain ⟨-, hall⟩ := relayed_spans_complete 0 { instantAtStart := 0, systimeAtStart := 0 } twoSlots
    2 { laneCount := 1, pendingBatch := 8 } (by decide) 0 (fun _ => 0) 7 4 oneConnection s
    oneConnection_ok hrun l (by simp [hl]) 0 hsub
  exact ⟨s, l, hrun, hl, hgiven, hall⟩

end TracingConsole.Analysis.Transit
