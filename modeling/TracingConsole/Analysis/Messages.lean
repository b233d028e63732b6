import TracingConsole.Model.Relay

/-!
# What the messages of a connection carry

A response becomes an update, updates become bursts, and bursts wait in the channel of the
reducer.  Whatever one reads off the updates (the spans, the levels), the network task hands it
on in order; it loses it only with a burst that is refused, as a whole.
-/

set_option autoImplicit false

namespace TracingConsole.Analysis.Transit

open TracingConsole.Library TracingConsole.Model

variable {α : Type} (f : Update → List α)

/-- INTERNAL: what is read off some updates, in order. -/
def carried (updates : List Update) : List α := updates.flatMap f

/-- INTERNAL: what is read off a response. -/
def bodyCarried (body : ResponseBody) : List α := carried f (respToUpdate body).toList

/-- INTERNAL: what is read off an item of a stream. -/
def itemCarried : StreamItem → List α
  | .response body => bodyCarried f body
  | .failed _ | .ended => []

/-- INTERNAL: what two lists carry. -/
theorem carried_append (l₁ l₂ : List Update) :
    carried f (l₁ ++ l₂) = carried f l₁ ++ carried f l₂ :=
  List.flatMap_append

/-- INTERNAL: what one update carries. -/
theorem carried_singleton (u : Update) : carried f [u] = f u := by
  simp [carried]

/-! ## Bursts -/

/-- INTERNAL: the inner loop of a burst keeps everything and its place.
SRCLINE: runtime.rs:179-198 -/
theorem drainReady_carried (items : List StreamItem) (batch : List Update) :
    carried f batch ++ items.flatMap (itemCarried f) =
      carried f (drainReady batch items).1.batch ++
        (drainReady batch items).2.flatMap (itemCarried f) := by
  induction items generalizing batch with
  | nil => rfl
  | cons item items ih =>
    unfold drainReady
    split
    · cases item with
      | ended => rfl
      | failed e => rfl
      | response body =>
        dsimp only
        rw [← ih, carried_append, List.flatMap_cons, List.append_assoc]
        rfl
    · rfl

/-- INTERNAL: a burst takes items from the front. -/
theorem takeBurst_carried (item : StreamItem) (items : List StreamItem) :
    itemCarried f item ++ items.flatMap (itemCarried f) =
      carried f (takeBurst item items).1.batch ++
        (takeBurst item items).2.flatMap (itemCarried f) := by
  cases item with
  | ended => rfl
  | failed e => rfl
  | response body =>
    unfold takeBurst
    dsimp only
    rw [← drainReady_carried]
    rfl

/-- INTERNAL: a burst that leaves nothing behind has the responses that were taken.
SRCLINE: runtime.rs:164-198 -/
theorem burst_carried (taken : List ResponseBody) (ending : Option StreamItem)
    (hending : ending.all StreamItem.endsStream = true) (item : StreamItem)
    (items : List StreamItem)
    (hitems : taken.map StreamItem.response ++ ending.toList = item :: items)
    (hall : (takeBurst item items).2 = []) :
    carried f (takeBurst item items).1.batch = taken.flatMap (bodyCarried f) := by
  have hnone : ending.toList.flatMap (itemCarried f) = [] := by
    cases ending with
    | none => rfl
    | some item =>
      cases item with
      | response body => exact absurd hending (by simp [StreamItem.endsStream])
      | failed e => rfl
      | ended => rfl
  have htaken := takeBurst_carried f item items
  rw [hall, List.flatMap_nil, List.append_nil, ← List.flatMap_cons, ← hitems, List.flatMap_append,
    hnone, List.append_nil] at htaken
  rw [← htaken, List.flatMap_map]
  rfl

/-! ## The channel -/

/-- INTERNAL: what the task says of itself.
SRCLINE: runtime.rs:109-132, 208-211, 256 -/
def ofItself : Update → Bool
  | .connected | .disconnected _ | .status _ => true
  | _ => false

variable (hself : ∀ u, ofItself u = true → f u = [])

include hself in

/-- INTERNAL: a word of the console's own carries nothing. -/
theorem carried_send (n : NetworkTask) (answer : SendAnswer) (u : Update)
    (hu : ofItself u = true) : carried f (n.send answer u).channel = carried f n.channel := by
  unfold NetworkTask.send
  split
  · show carried f (n.channel ++ [u]) = carried f n.channel
    rw [carried_append, carried_singleton, hself u hu, List.append_nil]
  · rfl

include hself in

/-- INTERNAL: leaving the stream carries nothing. -/
theorem carried_leaveStream (n : NetworkTask) (last : SendAnswer) (gone : Bool) :
    carried f (n.leaveStream last gone).channel = carried f n.channel :=
  carried_send f hself n last _ rfl

include hself in
/-- INTERNAL: a step that reads nothing leaves the channel as it was, but for what the task says of
itself, and only a start leads to a stream.
SRCLINE: runtime.rs:108-135, 220-262 -/
theorem step_carried (n n' : NetworkTask) (a : NetworkStep) (h : n.step a = some n')
    (hburst : ∀ item items many error last, a ≠ .burst item items many error last) :
    carried f n'.channel = carried f n.channel ∧
      (n'.phase = .streaming → a ≠ .started → n.phase = .streaming) := by
  cases a with
  | burst item items many error last => exact absurd rfl (hburst item items many error last)
  | dial addr answer =>
    simp only [NetworkTask.step] at h
    split at h
    · cases h
      exact ⟨carried_send f hself n answer _ rfl, fun hphase => by cases hphase⟩
    · cases h
  | connectFailed e answer =>
    simp only [NetworkTask.step] at h
    split at h
    · cases h
      exact ⟨carried_send f hself n answer _ rfl, fun hphase => by cases hphase⟩
    · cases h
  | connected answer =>
    simp only [NetworkTask.step] at h
    split at h
    · cases h
      exact ⟨carried_send f hself n answer _ rfl, fun hphase => by cases hphase⟩
    · cases h
  | startFailed e answer =>
    simp only [NetworkTask.step] at h
    split at h
    · cases h
      exact ⟨carried_send f hself n.request answer _ rfl, fun hphase => by cases hphase⟩
    · cases h
  | started =>
    simp only [NetworkTask.step] at h
    split at h
    · cases h
      exact ⟨rfl, fun _ hstarted => absurd rfl hstarted⟩
    · cases h
  | outgoing req =>
    simp only [NetworkTask.step] at h
    split at h
    · next hphase =>
      cases h
      exact ⟨rfl, fun _ _ => hphase⟩
    · cases h
  | outgoingClosed last =>
    simp only [NetworkTask.step] at h
    split at h
    · next hphase =>
      cases h
      exact ⟨carried_leaveStream f hself n last true, fun _ _ => hphase⟩
    · cases h
  | wake =>
    simp only [NetworkTask.step] at h
    split at h
    · cases h
      exact ⟨rfl, fun hphase => by cases hphase⟩
    · cases h

/-- INTERNAL: a batch goes to the channel as a whole, or not at all.
SRCLINE: runtime.rs:199-207 -/
theorem carried_sendMany (n : NetworkTask) (answer : SendAnswer) (batch : List Update) :
    carried f (n.sendMany answer batch).channel =
      carried f n.channel ++ if answer = .accepted then carried f batch else [] := by
  unfold NetworkTask.sendMany
  split
  · exact carried_append f _ _
  · rw [List.append_nil]

include hself in
/-- INTERNAL: **what a burst adds to the channel**.
SRCLINE: runtime.rs:199-215 -/
theorem carried_takeBatch (n : NetworkTask) (burst : Burst) (many error last : SendAnswer) :
    carried f (n.takeBatch burst many error last).channel =
      carried f n.channel ++ if many = .accepted then carried f burst.batch else [] := by
  have hsent :
      carried f (if burst.batch.isEmpty then n else n.sendMany many burst.batch).channel =
        carried f n.channel ++ if many = .accepted then carried f burst.batch else [] := by
    by_cases hempty : burst.batch.isEmpty = true
    · rw [if_pos hempty, List.isEmpty_iff.mp hempty]
      simp [carried]
    · rw [if_neg hempty]
      exact carried_sendMany f n many burst.batch
  unfold NetworkTask.takeBatch
  dsimp only
  split
  · rw [carried_leaveStream f hself]
    exact hsent
  · split
    · rw [carried_leaveStream f hself, carried_send f hself _ _ _ rfl]
      exact hsent
    · split
      · rw [carried_leaveStream f hself]
        exact hsent
      · exact hsent

/-! ## Steps of the whole -/

section Whole

variable {T : Type} [DecidableEq T] (s s' : Relay T)

/-- INTERNAL: a step that the console takes no part in. -/
structure Aside : Prop where
  console : s'.console = s.console
  network : s'.network = s.network
  given : s'.given = s.given

/-- INTERNAL: the host hands batches to the tasks, and sends nothing itself.
SRCLINE: driver.rs:168-187 -/
theorem hostStep_aside (a : SystemStep T) (h : s.hostStep a = some s') :
    Aside s s' ∧ s'.links.map Link.inFlight = s.links.map Link.inFlight := by
  unfold Relay.hostStep at h
  split at h
  · cases h
  · obtain ⟨host, -, hs'⟩ := Option.map_eq_some_iff.mp h
    rw [← hs']
    refine ⟨⟨rfl, rfl, rfl⟩, ?_⟩
    dsimp only
    rw [List.map_map]
    rfl

/-- INTERNAL: what a step of a connection's task puts on the wire.
SRCLINE: server.rs:265-331 -/
def putOnWire (unfilledInstant : ℕ) (base : TimeBase) (l : Link) : LinkStep → List ResponseBody
  | .forward => Relay.forwardedSpans unfilledInstant base l
  | .push body => [body]
  | _ => []

/-- INTERNAL: a step of one connection leaves the others. -/
theorem linkStep_aside (unfilledInstant : ℕ) (base : TimeBase) (n : ℕ) (a : LinkStep)
    (h : s.linkStep unfilledInstant base n a = some s') :
    Aside s s' ∧ ∃ l l', s.links[n]? = some l ∧ s'.links = s.links.set n l' ∧
      l'.inFlight = l.inFlight ++ putOnWire unfilledInstant base l a := by
  unfold Relay.linkStep at h
  split at h
  · cases h
  · next l hl =>
    cases a with
    | subscribe | finish =>
      obtain ⟨server, -, h⟩ := Option.bind_eq_some_iff.mp h
      obtain ⟨host, -, hs'⟩ := Option.map_eq_some_iff.mp h
      rw [← hs']
      exact ⟨⟨rfl, rfl, rfl⟩, l, _, hl, rfl, (List.append_nil _).symm⟩
    | read k =>
      obtain ⟨server, -, hs'⟩ := Option.map_eq_some_iff.mp h
      rw [← hs']
      exact ⟨⟨rfl, rfl, rfl⟩, l, _, hl, rfl, (List.append_nil _).symm⟩
    | forward =>
      obtain ⟨server, -, hs'⟩ := Option.map_eq_some_iff.mp h
      rw [← hs']
      exact ⟨⟨rfl, rfl, rfl⟩, l, _, hl, rfl, rfl⟩
    | push body =>
      dsimp only at h
      split at h
      · cases h
        exact ⟨⟨rfl, rfl, rfl⟩, l, _, hl, rfl, rfl⟩
      · cases h

omit [DecidableEq T] in
/-- INTERNAL: a step of the network task that reads nothing; a stream that starts is a new
connection. -/
theorem networkStep_eq_some (a : NetworkStep) (h : s.networkStep a = some s') :
    (∀ item items many error last, a ≠ .burst item items many error last) ∧
      ∃ network, s.network.step a = some network ∧
        s' = { s with
          network := network
          links := if a = .started then s.links ++ [Link.open s.network.nextId] else s.links } := by
  unfold Relay.networkStep at h
  split at h
  · cases h
  · obtain ⟨network, hnetwork, hs'⟩ := Option.map_eq_some_iff.mp h
    refine ⟨fun _ _ _ _ _ heq => NetworkStep.noConfusion heq, network, hnetwork, ?_⟩
    rw [if_pos rfl]
    exact hs'.symm
  · next hburst hstarted =>
    obtain ⟨network, hnetwork, hs'⟩ := Option.map_eq_some_iff.mp h
    refine ⟨fun _ _ _ _ _ heq => hburst _ _ _ _ _ heq, network, hnetwork, ?_⟩
    rw [if_neg hstarted]
    exact hs'.symm

omit [DecidableEq T] in
/-- INTERNAL: **step inversion** for a burst: it takes `ready` responses off the connection made
last, all of which are in the batch.
SRCLINE: runtime.rs:164-215 -/
theorem burstStep_eq_some (ready : ℕ) (ending : Option StreamItem)
    (many error last : SendAnswer) (h : s.burstStep ready ending many error last = some s') :
    ∃ links l item items, s.links = links ++ [l] ∧ s.network.phase = .streaming ∧
      (l.inFlight.take ready).map StreamItem.response ++ ending.toList = item :: items ∧
      ending.all StreamItem.endsStream = true ∧ (takeBurst item items).2 = [] ∧
      s' = { s with
        network := s.network.takeBatch (takeBurst item items).1 many error last
        links := links ++ [{ l with inFlight := l.inFlight.drop ready }] } := by
  unfold Relay.burstStep at h
  split at h
  · cases h
  · next l hl =>
    split at h
    · cases h
    · next item items hitems =>
      split at h
      · next hall =>
        obtain ⟨network, hnetwork, hs'⟩ := Option.map_eq_some_iff.mp h
        simp only [NetworkTask.step] at hnetwork
        split at hnetwork
        · next hphase =>
          obtain ⟨links, hlinks⟩ := List.getLast?_eq_some_iff.mp hl
          refine ⟨links, l, item, items, hlinks, hphase, hitems, hall.2.1, hall.2.2, ?_⟩
          rw [← hs', ← Option.some.inj hnetwork, hlinks, List.dropLast_concat]
        · cases hnetwork
      · cases h

/-- INTERNAL: who takes a step: the host's side, the network task, or the reducer. -/
inductive Moved : Prop
  | aside (h : Aside s s')
  | network (b : NetworkStep) (hstep : s.network.step b = some s'.network)
      (hconsole : s'.console = s.console) (hgiven : s'.given = s.given)
  | took (now : ℕ) (u : Update) (channel : List Update) (r : ConsoleModel × Effect)
      (hchannel : s.network.channel = u :: channel) (happly : s.console.apply now u = some r)
      (hs' : s' = { s with
        network := { s.network with channel := channel }
        console := r.1
        given := s.given ++ u.spans })
  | told (now : ℕ) (u : Update) (r : ConsoleModel × Effect) (hu : ¬ u.fromNetwork = true)
      (happly : s.console.apply now u = some r)
      (hs' : s' = { s with console := r.1, given := s.given ++ u.spans })

/-- INTERNAL: **step inversion**. -/
theorem relay_moved (unfilledInstant : ℕ) (base : TimeBase) (a : RelayStep T)
    (h : s.step unfilledInstant base a = some s') : Moved s s' := by
  cases a with
  | host a => exact Moved.aside (hostStep_aside s s' a h).1
  | link n a => exact Moved.aside (linkStep_aside s s' unfilledInstant base n a h).1
  | network a =>
    obtain ⟨-, network, hnetwork, hs'⟩ := networkStep_eq_some s s' a h
    subst hs'
    exact Moved.network a hnetwork rfl rfl
  | burst ready ending many error last =>
    obtain ⟨links, l, item, items, -, hphase, -, -, -, hs'⟩ :=
      burstStep_eq_some s s' ready ending many error last h
    subst hs'
    refine Moved.network (.burst item items many error last) ?_ rfl rfl
    simp only [NetworkTask.step]
    rw [if_pos hphase]
  | take now =>
    simp only [Relay.step] at h
    split at h
    · cases h
    · next u channel hchannel =>
      obtain ⟨r, happly, hs'⟩ := Option.map_eq_some_iff.mp h
      exact Moved.took now u channel r hchannel happly hs'.symm
  | other now u =>
    simp only [Relay.step] at h
    split at h
    · cases h
    · next hu =>
      obtain ⟨r, happly, hs'⟩ := Option.map_eq_some_iff.mp h
      exact Moved.told now u r hu happly hs'.symm

/-! ## What is still to come -/

/-- INTERNAL: what waits for the reducer, and what is on the connection that the task reads. -/
def pending (s : Relay T) : List α :=
  carried f s.network.channel ++
    if s.network.phase = .streaming then
      ((s.links.getLast?.map Link.inFlight).getD []).flatMap (bodyCarried f)
    else []

/-- INTERNAL: a step of the host sends the console nothing. -/
theorem pending_host (a : SystemStep T) (h : s.hostStep a = some s') :
    pending f s' = pending f s := by
  obtain ⟨haside, hflight⟩ := hostStep_aside s s' a h
  unfold pending
  rw [haside.network, ← List.getLast?_map, hflight, List.getLast?_map]

/-- INTERNAL: what a task puts on the wire comes last, if it is the one that is read. -/
theorem pending_link (unfilledInstant : ℕ) (base : TimeBase) (n : ℕ) (a : LinkStep)
    (h : s.linkStep unfilledInstant base n a = some s') :
    ∃ l, s.links[n]? = some l ∧ pending f s' = pending f s ++
      if s.network.phase = .streaming ∧ n + 1 = s.links.length then
        (putOnWire unfilledInstant base l a).flatMap (bodyCarried f)
      else [] := by
  obtain ⟨haside, l, l', hl, hlinks, hflight⟩ := linkStep_aside s s' unfilledInstant base n a h
  refine ⟨l, hl, ?_⟩
  have hlt := (List.getElem?_eq_some_iff.mp hl).1
  unfold pending
  rw [haside.network, hlinks]
  by_cases hphase : s.network.phase = .streaming
  · by_cases hlast : n + 1 = s.links.length
    · have hbefore : s.links.getLast? = some l := by
        rw [List.getLast?_eq_getElem?, ← hlast]
        exact hl
      have hafter : (s.links.set n l').getLast? = some l' := by
        rw [List.getLast?_eq_getElem?, List.length_set, ← hlast]
        simp [hlt]
      rw [if_pos hphase, if_pos hphase, if_pos ⟨hphase, hlast⟩, hbefore, hafter, Option.map_some,
        Option.map_some, Option.getD_some, Option.getD_some, hflight, List.flatMap_append,
        List.append_assoc]
    · have hafter : (s.links.set n l').getLast? = s.links.getLast? := by
        rw [List.getLast?_eq_getElem?, List.getLast?_eq_getElem?, List.length_set,
          List.getElem?_set_ne (by omega)]
      rw [if_neg fun hboth : _ ∧ _ => hlast hboth.2, List.append_nil, hafter]
  · rw [if_neg hphase, if_neg hphase, if_neg fun hboth : _ ∧ _ => hphase hboth.1, List.append_nil]
    exact (List.append_nil _).symm

omit [DecidableEq T] in
include hself in
/-- INTERNAL: the task goes on with its stream, or gives up what is on it. -/
theorem pending_network (a : NetworkStep) (h : s.networkStep a = some s') :
    (pending f s').Sublist (pending f s) ∧
      (s'.network.phase = .streaming → pending f s' = pending f s) := by
  obtain ⟨hburst, network, hnetwork, hs'⟩ := networkStep_eq_some s s' a h
  obtain ⟨hchannel, hphase⟩ := step_carried f hself s.network network a hnetwork hburst
  subst hs'
  have hsame : network.phase = .streaming →
      pending f { s with
        network := network
        links := if a = .started then s.links ++ [Link.open s.network.nextId] else s.links } =
        pending f s := by
    intro hstreaming
    unfold pending
    dsimp only
    rw [hchannel, if_pos hstreaming]
    by_cases hstarted : a = .started
    · subst hstarted
      have hbefore : ¬ s.network.phase = .streaming := by
        intro hwas
        simp [NetworkTask.step, hwas] at hnetwork
      rw [if_pos rfl, if_neg hbefore, List.getLast?_concat]
      rfl
    · rw [if_neg hstarted, if_pos (hphase hstreaming hstarted)]
  refine ⟨?_, hsame⟩
  by_cases hstreaming : network.phase = .streaming
  · rw [hsame hstreaming]
  · unfold pending
    dsimp only
    rw [hchannel, if_neg hstreaming, List.append_nil]
    exact List.sublist_append_left _ _

/-- INTERNAL: no burst was refused. -/
def NothingRefused (n : NetworkTask) : Prop := ∀ b ∈ n.bursts, b.2 = .accepted

/-- INTERNAL: SRCLINE: runtime.rs:199-207 -/
theorem takeBatch_bursts (n : NetworkTask) (burst : Burst) (many error last : SendAnswer) :
    (n.takeBatch burst many error last).bursts =
      n.bursts ++ if burst.batch.isEmpty then [] else [(burst.batch, many)] := by
  have hsend (n : NetworkTask) (answer : SendAnswer) (u : Update) :
      (n.send answer u).bursts = n.bursts := by
    unfold NetworkTask.send
    split <;> rfl
  have hsent : (if burst.batch.isEmpty then n else n.sendMany many burst.batch).bursts =
      n.bursts ++ if burst.batch.isEmpty then [] else [(burst.batch, many)] := by
    split
    · exact (List.append_nil _).symm
    · unfold NetworkTask.sendMany
      split <;> rfl
  unfold NetworkTask.takeBatch NetworkTask.leaveStream
  dsimp only
  split
  · rw [hsend, hsent]
  · split
    · rw [hsend, hsend, hsent]
    · split
      · rw [hsend, hsent]
      · exact hsent

/-- INTERNAL: the history of the bursts only grows. -/
theorem bursts_step (n n' : NetworkTask) (a : NetworkStep) (h : n.step a = some n') :
    n.bursts <+: n'.bursts := by
  have hsend (n : NetworkTask) (answer : SendAnswer) (u : Update) :
      (n.send answer u).bursts = n.bursts := by
    unfold NetworkTask.send
    split <;> rfl
  cases a with
  | burst item items many error last =>
    simp only [NetworkTask.step] at h
    split at h
    · cases h
      rw [takeBatch_bursts]
      exact List.prefix_append _ _
    · cases h
  | dial addr answer | connectFailed e answer | connected answer | startFailed e answer
  | outgoingClosed answer =>
    simp only [NetworkTask.step, NetworkTask.leaveStream] at h
    split at h
    · cases h
      exact (hsend _ _ _).symm ▸ List.prefix_refl _
    · cases h
  | started | outgoing req | wake =>
    simp only [NetworkTask.step] at h
    split at h
    · cases h
      exact List.prefix_refl _
    · cases h

omit [DecidableEq T] in
include hself in
/-- INTERNAL: **a burst loses what the channel refuses**, and what it leaves on a stream that has
ended. -/
theorem pending_burst (ready : ℕ) (ending : Option StreamItem) (many error last : SendAnswer)
    (h : s.burstStep ready ending many error last = some s') :
    (pending f s').Sublist (pending f s) ∧
      (NothingRefused s'.network → s'.network.phase = .streaming → pending f s' = pending f s) := by
  obtain ⟨links, l, item, items, hlinks, hphase, hitems, hending, hall, hs'⟩ :=
    burstStep_eq_some s s' ready ending many error last h
  have hbefore : pending f s = carried f s.network.channel ++
      (carried f (takeBurst item items).1.batch ++
        (l.inFlight.drop ready).flatMap (bodyCarried f)) := by
    unfold pending
    rw [if_pos hphase, hlinks, List.getLast?_concat, Option.map_some, Option.getD_some,
      burst_carried f _ ending hending item items hitems hall, ← List.flatMap_append,
      List.take_append_drop]
  subst hs'
  have hafter : pending f
      { s with
        network := s.network.takeBatch (takeBurst item items).1 many error last
        links := links ++ [{ l with inFlight := l.inFlight.drop ready }] } =
      carried f s.network.channel ++
        ((if many = .accepted then carried f (takeBurst item items).1.batch else []) ++
          if (s.network.takeBatch (takeBurst item items).1 many error last).phase = .streaming then
            (l.inFlight.drop ready).flatMap (bodyCarried f)
          else []) := by
    unfold pending
    dsimp only
    rw [carried_takeBatch f hself, List.append_assoc, List.getLast?_concat]
    rfl
  rw [hbefore, hafter]
  constructor
  · refine List.Sublist.append_left (List.Sublist.append ?_ ?_) _
    · split
      · exact List.Sublist.refl _
      · exact List.nil_sublist _
    · split
      · exact List.Sublist.refl _
      · exact List.nil_sublist _
  · intro htaken hstreaming
    rw [if_pos hstreaming]
    by_cases hempty : (takeBurst item items).1.batch = []
    · simp [hempty, carried]
    · -- the burst is the last of the history
      have hmany : many = .accepted := by
        refine htaken ((takeBurst item items).1.batch, many) ?_
        show _ ∈ (s.network.takeBatch (takeBurst item items).1 many error last).bursts
        rw [takeBatch_bursts, if_neg fun hnil => hempty (List.isEmpty_iff.mp hnil)]
        exact List.mem_append_right _ (List.mem_singleton.mpr rfl)
      rw [if_pos hmany]

/-- INTERNAL: what the reducer takes had waited for it. -/
theorem pending_take (unfilledInstant : ℕ) (base : TimeBase) (now : ℕ) (u : Update)
    (channel : List Update) (hchannel : s.network.channel = u :: channel)
    (h : s.step unfilledInstant base (.take now) = some s') :
    pending f s = f u ++ pending f s' ∧ s'.links = s.links ∧
      s'.network.phase = s.network.phase := by
  simp only [Relay.step, hchannel] at h
  obtain ⟨r, -, hs'⟩ := Option.map_eq_some_iff.mp h
  rw [← hs']
  refine ⟨?_, rfl, rfl⟩
  unfold pending
  rw [hchannel, ← List.append_assoc]
  rfl

end Whole

end TracingConsole.Analysis.Transit
