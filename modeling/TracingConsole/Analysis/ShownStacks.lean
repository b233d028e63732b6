import TracingConsole.Analysis.Disclosure
import TracingConsole.Analysis.JoinedEvents
import TracingConsole.Analysis.Messages
import TracingConsole.Analysis.OpenedRecords
import TracingConsole.Analysis.RecordedSpans
import TracingConsole.Analysis.RelayedSpans
import TracingConsole.Analysis.SplitChains

/-!
# The stacks shown are nestings of the program

The whole way of a span, from the call that opened it in a thread of the program to a row of the
console.  What is closed was opened (`Copied`), what is fanned out was closed and has its events
(`JoinedTo`), what the reducer is given was fanned out, and the chains of parents among the spans
it was given, which its buckets are named after, are chains of parents among the records of the
program.
-/

set_option autoImplicit false

namespace TracingConsole.Analysis.Transit

open Std (ExtTreeMap)
open TracingConsole.Library TracingConsole.Model TracingConsole.Analysis

variable {T : Type} [DecidableEq T]

/-! ## What is closed was opened -/

/-- INTERNAL: a record as it leaves the slab.
SRCLINE: cache.rs:542-567 -/
def ClosedFrom (log : List (Opening × SpanRecord)) (c : SpanRecord) : Prop :=
  ∃ o r now, (o, r) ∈ log ∧ c = { r with closedAt := some now }

/-- INTERNAL: **the invariant**: what is held and what was closed are the records inserted. -/
structure Copied (w : World T) : Prop where
  opened : Opened w
  slots : ∀ slot r, recordAt w.cache slot = some r → ∃ o, (o, r) ∈ w.inserted
  closed : ∀ t c, (t, c) ∈ w.closed → ClosedFrom w.inserted c

omit [DecidableEq T] in
/-- INTERNAL: nothing is copied at the start. -/
theorem copied_start (capacity : ℕ) (config : CacheConfig) (c : SpanCache)
    (hcache : SpanCache.withConfig capacity config = some c) (key : ℕ) (keys : T → ℕ) :
    Copied (World.start c key keys) where
  opened := opened_start c key keys
  slots slot r h := by
    rw [World.start, recordAt_withConfig capacity config c hcache slot] at h
    cases h
  closed _ _ h := by cases h

/-- INTERNAL: **a step of the cache keeps the invariant**.
SRCLINE: cache.rs:368-567 -/
theorem Copied.move (w w' : World T) (h : Copied w) (a : CacheStep T) (hmove : Move w a w') :
    Copied w' := by
  have hopened := h.opened.move w w' a hmove
  cases hmove with
  | insert _ t o r slot c' hcall hshape hlayout hslot hvacant hrecord hids =>
    refine ⟨hopened, fun s r' hr => ?_, fun u c hc => ?_⟩
    · have hheld : recordAt c' s = some r' := hr
      rw [hrecord] at hheld
      split at hheld
      · cases hheld
        exact ⟨o, List.mem_append_right _ (List.mem_singleton.mpr rfl)⟩
      · obtain ⟨o', hin⟩ := h.slots s r' hheld
        exact ⟨o', List.mem_append_left _ hin⟩
    · obtain ⟨o', r', now, hin, hcopy⟩ := h.closed u c hc
      exact ⟨o', r', now, List.mem_append_left _ hin, hcopy⟩
  | store _ t r slot c' hcall hshape hlayout hrecord hids =>
    refine ⟨hopened, fun s r' hr => h.slots s r' ?_, h.closed⟩
    rw [← hrecord]
    exact hr
  | close t n now sp slot c' hsp hdecode hshape hlayout hrecord hids =>
    refine ⟨hopened, fun s r hr => ?_, fun u c hc => ?_⟩
    · have hheld : recordAt c' s = some r := hr
      rw [hrecord] at hheld
      split at hheld
      · cases hheld
      · exact h.slots s r hheld
    · cases List.mem_append.mp hc with
      | inl hold => exact h.closed u c hold
      | inr hnew =>
        obtain ⟨c₀, hc₀, hpair⟩ := List.mem_map.mp hnew
        obtain ⟨r, hr, hstamp⟩ := Option.map_eq_some_iff.mp (Option.mem_toList.mp hc₀)
        obtain ⟨o, hin⟩ := h.slots slot r hr
        cases hpair
        exact ⟨o, r, now, hin, hstamp.symm⟩
  | _ => exact ⟨hopened, h.slots, h.closed⟩

/-! ## The host of a run -/

/-- INTERNAL: a step of the host is one of its world, or leaves it. -/
theorem system_world (s s' : System T) (a : SystemStep T) (hstep : s.step a = some s') :
    s'.world = s.world ∨ ∃ c, s.world.step c = some s'.world := by
  cases a with
  | cache a =>
    simp only [System.step] at hstep
    split at hstep
    · obtain ⟨w, hw, hs'⟩ := Option.map_eq_some_iff.mp hstep
      rw [← hs']
      exact Or.inr ⟨a, hw⟩
    · cases hstep
  | transport a =>
    simp only [System.step] at hstep
    split at hstep
    · obtain ⟨p, -, hs'⟩ := Option.map_eq_some_iff.mp hstep
      rw [← hs']
      exact Or.inl rfl
    · cases hstep

/-- INTERNAL: the host takes steps of its own only. -/
theorem relay_host (unfilledInstant : ℕ) (base : TimeBase) (s s' : Relay T) (a : RelayStep T)
    (hstep : s.step unfilledInstant base a = some s') :
    s'.host = s.host ∨ ∃ b, s.host.step b = some s'.host := by
  cases a with
  | host a =>
    simp only [Relay.step, Relay.hostStep] at hstep
    split at hstep
    · cases hstep
    · obtain ⟨host, hhost, hs'⟩ := Option.map_eq_some_iff.mp hstep
      rw [← hs']
      exact Or.inr ⟨a, hhost⟩
  | link n a =>
    simp only [Relay.step, Relay.linkStep] at hstep
    split at hstep
    · cases hstep
    · next l hl =>
      cases a with
      | subscribe =>
        obtain ⟨server, -, hstep⟩ := Option.bind_eq_some_iff.mp hstep
        obtain ⟨host, hhost, hs'⟩ := Option.map_eq_some_iff.mp hstep
        rw [← hs']
        exact Or.inr ⟨_, hhost⟩
      | finish =>
        obtain ⟨server, -, hstep⟩ := Option.bind_eq_some_iff.mp hstep
        obtain ⟨host, hhost, hs'⟩ := Option.map_eq_some_iff.mp hstep
        rw [← hs']
        cases hsub : l.subscription with
        | none =>
          simp only [hsub, Option.some.injEq] at hhost
          exact Or.inl hhost.symm
        | some m =>
          simp only [hsub] at hhost
          exact Or.inr ⟨_, hhost⟩
      | read k | forward =>
        obtain ⟨server, -, hs'⟩ := Option.map_eq_some_iff.mp hstep
        rw [← hs']
        exact Or.inl rfl
      | push body =>
        dsimp only at hstep
        split at hstep
        · cases hstep
          exact Or.inl rfl
        · cases hstep
  | network a =>
    obtain ⟨-, network, -, hs'⟩ := networkStep_eq_some s s' a hstep
    rw [hs']
    exact Or.inl rfl
  | burst ready ending many error last =>
    obtain ⟨links, l, item, items, -, -, -, -, -, hs'⟩ :=
      burstStep_eq_some s s' ready ending many error last hstep
    rw [hs']
    exact Or.inl rfl
  | take now =>
    simp only [Relay.step] at hstep
    split at hstep
    · cases hstep
    · obtain ⟨r, -, hs'⟩ := Option.map_eq_some_iff.mp hstep
      rw [← hs']
      exact Or.inl rfl
  | other now u =>
    simp only [Relay.step] at hstep
    split at hstep
    · cases hstep
    · obtain ⟨r, -, hs'⟩ := Option.map_eq_some_iff.mp hstep
      rw [← hs']
      exact Or.inl rfl

/-- INTERNAL: the host is in a state of a run of its own. -/
theorem relay_host_run (unfilledInstant : ℕ) (base : TimeBase) (s : Relay T)
    (steps : List (RelayStep T)) (s' : Relay T)
    (hrun : run (Relay.step unfilledInstant base) s steps = some s') :
    ∃ calls, run System.step s.host calls = some s'.host := by
  refine run_projects (Relay.step unfilledInstant base) System.step (fun s => s.host) ?_ s
    steps s' hrun
  exact fun s a s' hstep => relay_host unfilledInstant base s s' a hstep

/-- INTERNAL: the cache of the host is in a state of a run of the cache alone. -/
theorem system_world_run (s : System T) (steps : List (SystemStep T)) (s' : System T)
    (hrun : run System.step s steps = some s') :
    ∃ calls, run World.step s.world calls = some s'.world := by
  refine run_projects System.step World.step (fun s => s.world) ?_ s steps s' hrun
  exact fun s a s' hstep => system_world s s' a hstep

/-- INTERNAL: what holds of the records and the events in every run of a host and its console. -/
theorem recorded_of_relay (unfilledInstant : ℕ) (base : TimeBase) (cache : SpanCache)
    (capacity : ℕ) (config : CacheConfig)
    (hcache : SpanCache.withConfig capacity config = some cache) (key : ℕ) (keys : T → ℕ)
    (cacheAddr historyBudget : ℕ) (steps : List (RelayStep T)) (s : Relay T)
    (hrun : run (Relay.step unfilledInstant base)
      (Relay.start cache key keys cacheAddr capacity historyBudget) steps = some s) :
    Recorded s.host.world ∧ Copied s.host.world ∧ Emitted.Called s.host := by
  obtain ⟨hostSteps, hhost⟩ := relay_host_run unfilledInstant base _ steps s hrun
  obtain ⟨calls, hcalls⟩ := system_world_run _ hostSteps s.host hhost
  have hcopied := run_invariant World.step (fun w => Recorded w ∧ Copied w)
    (fun w a w' h hstep => ?_) _ calls _ ⟨recorded_start capacity config cache hcache key keys,
      copied_start capacity config cache hcache key keys⟩ hcalls
  · exact ⟨hcopied.1, hcopied.2, Emitted.called_run cache capacity config hcache key keys cacheAddr
      hostSteps s.host hhost⟩
  · have hmove := step_moves w w' h.1.placed a hstep
    exact ⟨h.1.move w w' a hmove, h.2.move w w' a hmove⟩

/-! ## Nestings -/

/-- INTERNAL: records of the program, each the child of the next, up to one that was opened as a
root while nothing was entered. -/
inductive Nested (log : List (Opening × SpanRecord)) : List (Opening × SpanRecord) → Prop
  | root (o : Opening) (r : SpanRecord) (hlog : (o, r) ∈ log) (hparent : r.parentId = none)
      (hroot : o.attrs.parent = .root) (htop : o.top = none) : Nested log [(o, r)]
  | child (o o' : Opening) (r r' : SpanRecord) (rest : List (Opening × SpanRecord))
      (hlog : (o, r) ∈ log) (hparent : r.parentId = some r'.id)
      (hnested : Nested log ((o', r') :: rest)) : Nested log ((o, r) :: (o', r') :: rest)

/-- INTERNAL: the names of a nesting, outermost first. -/
def stackOf (nest : List (Opening × SpanRecord)) : List String :=
  (nest.map fun x => x.1.attrs.metadata.name).reverse

/-- INTERNAL: the stack of a chain, from its innermost span. -/
theorem stackOf_cons (x : Opening × SpanRecord) (rest : List (Opening × SpanRecord)) :
    stackOf (x :: rest) = stackOf rest ++ [x.1.attrs.metadata.name] := by
  simp [stackOf]

section Wire

variable (unfilledInstant : ℕ) (base : TimeBase)

/-- INTERNAL: a span on the wire is the record of a call as a thread closed it, with the events
the driver joined to it. -/
def LivedAs (s : System T) (x : Opening × SpanRecord) (v : WireSpan) : Prop :=
  x ∈ s.world.inserted ∧ OpenedAs x.1 x.2 ∧ ∃ t now f,
    (t, { x.2 with closedAt := some now }) ∈ s.world.closed ∧
    Emitted.JoinedTo s { x.2 with closedAt := some now } f ∧ v = spanToWire unfilledInstant base f

omit [DecidableEq T] in
/-- INTERNAL: all of a record but its events is on the wire as it was closed. -/
theorem LivedAs.wire (s : System T) (x : Opening × SpanRecord) (v : WireSpan)
    (h : LivedAs unfilledInstant base s x v) : ∃ now events,
    (∃ t, (t, { x.2 with closedAt := some now }) ∈ s.world.closed) ∧
    v = spanToWire unfilledInstant base { x.2 with closedAt := some now, events := events } := by
  obtain ⟨-, -, t, now, f, hclosed, ⟨j, -, -, -, attached, hf, -⟩, hv⟩ := h
  exact ⟨now, x.2.events ++ attached, ⟨t, hclosed⟩, by rw [hv, hf]⟩

/-- INTERNAL: what is sent out was lived. -/
theorem sentOut_livedAs (s : Relay T) (h : Relaying unfilledInstant base s)
    (hcopied : Copied s.host.world) (hcalled : Emitted.Called s.host)
    (hlast : s.host.world.ids.reserved < u64Size) (v : WireSpan)
    (hv : v ∈ sentOut unfilledInstant base s) :
    ∃ x, LivedAs unfilledInstant base s.host x v := by
  obtain ⟨f, hf, hwire⟩ := List.mem_map.mp hv
  obtain ⟨t, c, hc, hjoined⟩ := Emitted.fannedOut_joinedTo s.host h.reaching hcalled hlast f hf
  obtain ⟨o, r, now, hin, hcopy⟩ := hcopied.closed t c hc
  rw [hcopy] at hc hjoined
  exact ⟨(o, r), hin, hcopied.opened.log o r hin, t, now, f, hc, hjoined, hwire.symm⟩

omit [DecidableEq T] in
/-- INTERNAL: **a chain of parents on the wire is a nesting of the program**. -/
theorem nested_of_chain (s : System T) (hrecorded : Recorded s.world) (seen : Multiset WireSpan)
    (hseen : ∀ v ∈ seen, ∃ x, LivedAs unfilledInstant base s x v) (v : WireSpan)
    (chain : List WireSpan) (hv : v ∈ seen) (hchain : Chain seen v chain) :
    ∃ x rest, LivedAs unfilledInstant base s x v ∧ Nested s.world.inserted (x :: rest) ∧
      stackOf (x :: rest) = (chain.map WireSpan.name).reverse := by
  induction hchain with
  | root v hroot =>
    obtain ⟨⟨o, r⟩, hlived⟩ := hseen v hv
    obtain ⟨closedAt, events, -, hv'⟩ := hlived.wire unfilledInstant base s _ v
    have hin := hlived.1
    obtain ⟨id, now, hbuilt⟩ := hlived.2.1
    have hnone : r.parentId = none := by
      rw [hv'] at hroot
      exact hroot
    obtain ⟨k, hk⟩ := List.mem_iff_getElem?.mp hin
    obtain ⟨hrooted, hparent⟩ := hrecorded.log k o r hk
    obtain ⟨hasked, htop⟩ := hrooted.root (by rw [← hparent, hnone])
    refine ⟨(o, r), [], hlived, .root o r hin hnone hasked htop, ?_⟩
    rw [hv', hbuilt]
    rfl
  | child v u chain hp hu hrest ih =>
    obtain ⟨⟨o, r⟩, hlived⟩ := hseen v hv
    obtain ⟨closedAt, events, -, hv'⟩ := hlived.wire unfilledInstant base s _ v
    have hin := hlived.1
    obtain ⟨id, now, hbuilt⟩ := hlived.2.1
    obtain ⟨⟨o', r'⟩, rest, hparent, hnested, hnames⟩ := ih hu
    obtain ⟨closedAt', events', -, hu'⟩ := hparent.wire unfilledInstant base s _ u
    have hid : r.parentId = some r'.id := by
      rw [hv', hu'] at hp
      exact hp
    refine ⟨(o, r), (o', r') :: rest, hlived, .child o o' r r' rest hin hid hnested, ?_⟩
    rw [stackOf_cons, hnames, List.map_cons, List.reverse_cons, hv', hbuilt]
    rfl

end Wire

/-! ## From the program to the rows -/

/-- INTERNAL: the chains and the buckets of an aggregator that has absorbed distinct ids, the
minima and maxima too when the ring cannot outgrow a `u32`.
SRCLINE: state.rs:231-306, 393-404 -/
theorem chained_of_run (budget : ℕ) (fits : Prop) (hfits : fits → budget ≤ 2 ^ 32)
    (ops : List AggregatorOp) (a : Aggregator)
    (hrun : run AggregatorOp.perform (Aggregator.new budget) ops = some a)
    (hids : ((absorbedSpans ops).map WireSpan.id).Nodup) :
    (∀ (id : ℕ) e, a.byId[id]? = some e → e.span ∈ absorbedSpans ops ∧
      ∃ chain, Chain (absorbedSpans ops) e.span chain ∧
        e.bucket = bucketOf a.splitKeys chain) ∧
    Locked a ∧ (∀ id x, located a id = some x → x.1.id = id) ∧ Tallied fits a := by
  have hgood : DistinctIds (0 + (absorbedSpans ops : Multiset WireSpan)) := by
    rw [zero_add]
    exact distinctIds_coe (absorbedSpans ops) hids
  have hinvariant := (chained_runInvariant budget).both _ _ _
    (tallied_runInvariant budget fits DistinctIds (fun _ h => h) fun h seen a work _ hkept =>
      hkept.room.trans (hfits h))
  obtain ⟨⟨hkept, hchained⟩, -, htallied⟩ := run_kept DistinctIds _ hinvariant DistinctIds.mono
    (fun seen a h => (Multiset.le_add_right _ _).trans h.1.1.bag) ops 0 (Aggregator.new budget) a
    hgood ⟨⟨kept_new budget, fun id x hx => by simp [located, Aggregator.new] at hx⟩,
      kept_new budget, tallied_new fits budget⟩ hrun
  rw [zero_add] at hkept hchained
  refine ⟨fun id e he => ⟨?_, ?_⟩, hkept.locked, hkept.id_eq, htallied⟩
  · have hring : e.span ∈ ringSpans a := (mem_ringSpans a e.span).mpr ⟨id, e, he, rfl⟩
    exact Multiset.mem_coe.mp
      (Multiset.mem_of_le ((Multiset.le_add_right _ _).trans hkept.bag) hring)
  · exact hchained id (e.span, e.bucket, e.totalNs) (by rw [located, he]; rfl)

/-- INTERNAL: **what the console holds is what the program closed**: in every run each span that
was given, and each span of the ring, which is in the bucket of its nesting.
SRCLINE: cache.rs:368-567, driver.rs:115-187, runtime.rs:85-263, state.rs:231-306 -/
theorem given_lived (unfilledInstant : ℕ) (base : TimeBase) (cache : SpanCache)
    (capacity : ℕ) (config : CacheConfig)
    (hcache : SpanCache.withConfig capacity config = some cache) (key : ℕ) (keys : T → ℕ)
    (cacheAddr historyBudget : ℕ) (fits : Prop) (hfits : fits → historyBudget ≤ 2 ^ 32)
    (steps : List (RelayStep T)) (s : Relay T)
    (hrun : run (Relay.step unfilledInstant base)
      (Relay.start cache key keys cacheAddr capacity historyBudget) steps = some s)
    (hlast : s.host.world.ids.reserved < u64Size) :
    (∀ v ∈ s.given, ∃ x, LivedAs unfilledInstant base s.host x v) ∧
    (∀ (id : ℕ) e, s.console.agg.byId[id]? = some e → ∃ x rest,
      LivedAs unfilledInstant base s.host x e.span ∧
        Nested s.host.world.inserted (x :: rest) ∧ e.bucket.stack = stackOf (x :: rest)) ∧
    Locked s.console.agg ∧ (∀ id x, located s.console.agg id = some x → x.1.id = id) ∧
      Tallied fits s.console.agg := by
  obtain ⟨h, ops, hops, hspans⟩ := relaying_run unfilledInstant base cache capacity config hcache
    key keys cacheAddr historyBudget steps s hrun
  obtain ⟨hrecorded, hcopied, hcalled⟩ := recorded_of_relay unfilledInstant base cache capacity
    config hcache key keys cacheAddr historyBudget steps s hrun
  have hgiven : s.given.Sublist (sentOut unfilledInstant base s) :=
    (List.sublist_append_left _ _).trans h.heard
  have habsorbed : (absorbedSpans ops).Sublist s.given := by
    rw [hspans]
    exact List.filter_sublist
  have hlived (v : WireSpan) (hv : v ∈ s.given) :
      ∃ x, LivedAs unfilledInstant base s.host x v :=
    sentOut_livedAs unfilledInstant base s h hcopied hcalled hlast v (hgiven.subset hv)
  have hids := (h.sentOut_ids unfilledInstant base s hlast).sublist
    ((habsorbed.trans hgiven).map WireSpan.id)
  obtain ⟨hentries, hbooks⟩ := chained_of_run historyBudget fits hfits ops s.console.agg hops hids
  refine ⟨hlived, fun id e he => ?_, hbooks⟩
  obtain ⟨hin, chain, hchain, hbucket⟩ := hentries id e he
  obtain ⟨x, rest, hx, hnest, hnames⟩ := nested_of_chain unfilledInstant base s.host
    hrecorded (absorbedSpans ops) (fun v hv => hlived v (habsorbed.subset hv)) e.span chain hin
    hchain
  exact ⟨x, rest, hx, hnest, by rw [hnames, hbucket]; rfl⟩

end TracingConsole.Analysis.Transit
