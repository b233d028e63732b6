import TracingConsole.Analysis.LevelsShown

/-!
# A console that has caught up shows what the host applies

The last value a stream told its console is the last one on the way, as long as no burst is
refused (`Synced`).  So when everything has arrived and the stream has no change to read, the
console shows what the channels hold; and that is what the cache applies, if the host's
connections have sent in order.
-/

set_option autoImplicit false

namespace TracingConsole.Analysis.Transit

open TracingConsole.Library TracingConsole.Model TracingConsole.Analysis.LevelBus

/-! ## The streams of the broadcast -/

section Streams

variable {C : Type} [DecidableEq C]

/-- INTERNAL: what a step does to the streams: nothing, a new stream that has told nothing, a
stream that tells the level or the chance, or one that drops a receiver. -/
inductive StreamsAfter (b b' : Bus C) : BusStep C → Prop
  | same (a : BusStep C) (htold : Deployment.told b a = none) (h : b'.streams = b.streams)
      (hjoin : ∀ c, a = .perform c → (b.connection c).todo.head? ≠ some .subscribeChance) :
      StreamsAfter b b' a
  | joined (c : C) (levelSeen chanceSeen : ℕ)
      (h : b'.streams = b.streams ++
        [{ levelRx := some { seen := levelSeen, sent := none }
           chanceRx := some { seen := chanceSeen, sent := none } }]) :
      StreamsAfter b b' (.perform c)
  | level (n : ℕ) (level : Receiver WireLevelFilter) (chance : Receiver F64)
      (hn : b.streams[n]? = some { levelRx := some level, chanceRx := some chance })
      (h : b'.streams =
        b.streams.set n { levelRx := some b.levelTx.forwarded, chanceRx := some chance }) :
      StreamsAfter b b' (.pushLevel n)
  | chance (n : ℕ) (level : Receiver WireLevelFilter) (chance : Receiver F64)
      (hn : b.streams[n]? = some { levelRx := some level, chanceRx := some chance })
      (h : b'.streams =
        b.streams.set n { levelRx := some level, chanceRx := some b.chanceTx.forwarded }) :
      StreamsAfter b b' (.pushChance n)
  | dropped (a : BusStep C) (htold : Deployment.told b a = none) (n : ℕ) (old new : SpanStream)
      (hperform : ∀ c, a ≠ .perform c) (hn : b.streams[n]? = some old)
      (h : b'.streams = b.streams.set n new)
      (hlevel : new.levelRx = none ∨ new.levelRx = old.levelRx)
      (hchance : new.chanceRx = none ∨ new.chanceRx = old.chanceRx) : StreamsAfter b b' a

/-- INTERNAL: **step inversion** for the streams.
SRCLINE: server.rs:186-235, 253-308 -/
theorem step_streams (b b' : Bus C) (a : BusStep C) (h : b.step a = some b') :
    StreamsAfter b b' a := by
  cases a with
  | request c body =>
    exact StreamsAfter.same _ rfl (request_rests b b' c body h).2.2 fun _ hc => by cases hc
  | disconnect c =>
    simp only [Bus.step] at h
    split at h
    · cases h
    · cases h
      exact StreamsAfter.same _ rfl rfl fun _ hc => by cases hc
  | perform c =>
    simp only [Bus.step] at h
    split at h
    · cases h
    · next a rest htodo =>
      cases h
      cases a with
      | subscribeChance => exact StreamsAfter.joined c _ _ rfl
      | enterStream | subscribeLevel | storeLevel | sendLevel | storeChance | sendChance
      | exitStream =>
        refine StreamsAfter.same _ rfl rfl fun d hd => ?_
        cases hd
        rw [htodo]
        exact fun heq => by cases heq
  | pushLevel n =>
    simp only [Bus.step, Bus.pushLevel] at h
    split at h
    · next level chance hn =>
      split at h
      · cases h
        exact StreamsAfter.level n level chance hn rfl
      · cases h
    · cases h
  | pushChance n =>
    simp only [Bus.step, Bus.pushChance] at h
    split at h
    · next level chance hn =>
      split at h
      · cases h
        exact StreamsAfter.chance n level chance hn rfl
      · cases h
    · cases h
  | dropLevelRx n =>
    simp only [Bus.step, Bus.dropLevelRx] at h
    split at h
    · next level chance hn =>
      cases h
      exact StreamsAfter.dropped _ rfl n _ _ (fun _ hc => by cases hc) hn rfl (Or.inl rfl)
        (Or.inr rfl)
    · cases h
  | dropChanceRx n =>
    simp only [Bus.step, Bus.dropChanceRx] at h
    split at h
    · next level chance hn =>
      cases h
      exact StreamsAfter.dropped _ rfl n _ _ (fun _ hc => by cases hc) hn rfl (Or.inr rfl)
        (Or.inl rfl)
    · cases h

omit [DecidableEq C] in
/-- INTERNAL: a stream keeps its number. -/
theorem streams_length (b b' : Bus C) (a : BusStep C) (h : StreamsAfter b b' a) :
    b.streams.length ≤ b'.streams.length := by
  cases h with
  | same _ htold h hjoin => rw [h]
  | joined c levelSeen chanceSeen h => simp [h]
  | level n level chance hn h => simp [h]
  | chance n level chance hn h => simp [h]
  | dropped _ htold n old new hperform hn h hlevel hchance => simp [h]

/-- INTERNAL: the receivers of one of the two channels: what one has told its client it had told
before, or it is told with this step. -/
def Receives {α : Type} (f : Update → List α) (rx : SpanStream → Option (Receiver α)) : Prop :=
  ∀ (b b' : Bus C) a, StreamsAfter b b' a → ∀ n stream r v, b'.streams[n]? = some stream →
    rx stream = some r → r.sent = some v →
    (∃ body, Deployment.told b a = some (n, body) ∧ bodyCarried f body = [v]) ∨
      (∃ old, b.streams[n]? = some old ∧ rx old = some r) ∧
        ∀ body, Deployment.told b a = some (n, body) → bodyCarried f body = []

/-- INTERNAL: the stream `m` after the stream `n` was replaced. -/
theorem getElem?_replaced (streams : List SpanStream) (n m : ℕ) (new stream : SpanStream)
    (h : (streams.set n new)[m]? = some stream) :
    (n = m ∧ stream = new) ∨ (n ≠ m ∧ streams[m]? = some stream) := by
  by_cases hsame : n = m
  · subst hsame
    have hlt : n < streams.length := by
      have hlt := (List.getElem?_eq_some_iff.mp h).1
      simpa using hlt
    rw [List.getElem?_set_self hlt] at h
    exact Or.inl ⟨rfl, (Option.some.inj h).symm⟩
  · rw [List.getElem?_set_ne hsame] at h
    exact Or.inr ⟨hsame, h⟩

omit [DecidableEq C] in
/-- INTERNAL: it is enough to look at the one stream a step touches. -/
theorem receives_of {α : Type} (f : Update → List α) (rx : SpanStream → Option (Receiver α))
    (hnew : ∀ levelSeen chanceSeen r,
      rx { levelRx := some { seen := levelSeen, sent := none }
           chanceRx := some { seen := chanceSeen, sent := none } } = some r → r.sent = none)
    (hlevel : ∀ (w : Watch WireLevelFilter) level chance r v,
      rx { levelRx := some w.forwarded, chanceRx := some chance } = some r → r.sent = some v →
      bodyCarried f (.cacheLevel w.value) = [v] ∨
        rx { levelRx := some level, chanceRx := some chance } = some r ∧
          bodyCarried f (.cacheLevel w.value) = [])
    (hchance : ∀ (w : Watch F64) level chance r v,
      rx { levelRx := some level, chanceRx := some w.forwarded } = some r → r.sent = some v →
      bodyCarried f (.cacheChance w.value) = [v] ∨
        rx { levelRx := some level, chanceRx := some chance } = some r ∧
          bodyCarried f (.cacheChance w.value) = [])
    (hdrop : ∀ old new : SpanStream, new.levelRx = none ∨ new.levelRx = old.levelRx →
      new.chanceRx = none ∨ new.chanceRx = old.chanceRx → rx new = none ∨ rx new = rx old) :
    Receives (C := C) f rx := by
  intro b b' a hafter n stream r v hstream hrx hsent
  cases hafter with
  | same _ htold h hjoin =>
    rw [h] at hstream
    exact Or.inr ⟨⟨stream, hstream, hrx⟩, fun body hbody => by rw [htold] at hbody; cases hbody⟩
  | joined c levelSeen chanceSeen h =>
    rw [h] at hstream
    by_cases hold : n < b.streams.length
    · rw [List.getElem?_append_left hold] at hstream
      exact Or.inr ⟨⟨stream, hstream, hrx⟩, fun body hbody => by cases hbody⟩
    · -- the new stream has told nothing
      rw [List.getElem?_append_right (Nat.le_of_not_lt hold)] at hstream
      rw [List.mem_singleton.mp (List.mem_of_getElem? hstream)] at hrx
      rw [hnew levelSeen chanceSeen r hrx] at hsent
      cases hsent
  | level m level chance hm h =>
    rw [h] at hstream
    cases getElem?_replaced b.streams m n _ stream hstream with
    | inl hsame =>
      obtain ⟨hsame, hread⟩ := hsame
      rw [hread] at hrx
      subst hsame
      cases hlevel b.levelTx level chance r v hrx hsent with
      | inl htells => exact Or.inl ⟨_, rfl, htells⟩
      | inr hkept => exact Or.inr ⟨⟨_, hm, hkept.1⟩, fun body hbody => by cases hbody; exact hkept.2⟩
    | inr hold =>
      refine Or.inr ⟨⟨stream, hold.2, hrx⟩, fun body hbody => ?_⟩
      cases hbody
      exact absurd rfl hold.1
  | chance m level chance hm h =>
    rw [h] at hstream
    cases getElem?_replaced b.streams m n _ stream hstream with
    | inl hsame =>
      obtain ⟨hsame, hread⟩ := hsame
      rw [hread] at hrx
      subst hsame
      cases hchance b.chanceTx level chance r v hrx hsent with
      | inl htells => exact Or.inl ⟨_, rfl, htells⟩
      | inr hkept => exact Or.inr ⟨⟨_, hm, hkept.1⟩, fun body hbody => by cases hbody; exact hkept.2⟩
    | inr hold =>
      refine Or.inr ⟨⟨stream, hold.2, hrx⟩, fun body hbody => ?_⟩
      cases hbody
      exact absurd rfl hold.1
  | dropped _ htold m old new hperform hm h hlevel hchance =>
    rw [h] at hstream
    refine Or.inr ⟨?_, fun body hbody => by rw [htold] at hbody; cases hbody⟩
    cases getElem?_replaced b.streams m n _ stream hstream with
    | inl hsame =>
      obtain ⟨hsame, hread⟩ := hsame
      rw [hread] at hrx
      subst hsame
      cases hdrop old new hlevel hchance with
      | inl hnone => rw [hnone] at hrx; cases hrx
      | inr hkept => exact ⟨old, hm, hkept ▸ hrx⟩
    | inr hold => exact ⟨stream, hold.2, hrx⟩

omit [DecidableEq C] in
/-- INTERNAL: how the console receives levels. -/
theorem receives_levels : Receives (C := C) levelsOf SpanStream.levelRx :=
  receives_of levelsOf SpanStream.levelRx
    (fun levelSeen chanceSeen r hr => by cases hr; rfl)
    (fun w level chance r v hr hv => by cases hr; cases hv; exact Or.inl rfl)
    (fun w level chance r v hr hv => Or.inr ⟨hr, rfl⟩)
    (fun old new hlevel hchance => hlevel)

omit [DecidableEq C] in
/-- INTERNAL: how it receives chances. -/
theorem receives_chances : Receives (C := C) chancesOf SpanStream.chanceRx :=
  receives_of chancesOf SpanStream.chanceRx
    (fun levelSeen chanceSeen r hr => by cases hr; rfl)
    (fun w level chance r v hr hv => Or.inr ⟨hr, rfl⟩)
    (fun w level chance r v hr hv => by cases hr; cases hv; exact Or.inl rfl)
    (fun old new hlevel hchance => hchance)

end Streams

/-! ## The console's connections -/

section Peers

variable {T C : Type} [DecidableEq T] [DecidableEq C] (unfilledInstant : ℕ) (base : TimeBase)
  (toF64 : ℚ → F64) (d d' : Deployment T C)

/-- INTERNAL: the streams of the console's connections. -/
def peerStreams (d : Deployment T C) : List (Option ℕ) := d.peers.map Peer.stream

/-- INTERNAL: every connection is one of the host's of its own, and so is its stream. -/
structure Peered (d : Deployment T C) : Prop where
  length : d.peers.length = d.relay.links.length
  apart : (d.peers.map Peer.connection).Nodup
  below : ∀ n, some n ∈ peerStreams d → n < d.bus.streams.length
  alone : ∀ i j n : ℕ, (peerStreams d)[i]? = some (some n) → (peerStreams d)[j]? = some (some n) → i = j

omit [DecidableEq T] [DecidableEq C] in
/-- INTERNAL: a step that leaves the connections and the streams as they are. -/
theorem Peered.of_same (h : Peered d)
    (hconnections : d'.peers.map Peer.connection = d.peers.map Peer.connection)
    (hstreams : peerStreams d' = peerStreams d)
    (hlinks : d'.relay.links.length = d.relay.links.length)
    (hbus : d.bus.streams.length ≤ d'.bus.streams.length) : Peered d' := by
  have hlength := congrArg List.length hconnections
  rw [List.length_map, List.length_map] at hlength
  refine ⟨by rw [hlength, hlinks, h.length], by rw [hconnections]; exact h.apart, ?_, ?_⟩
  · rw [hstreams]
    exact fun n hn => (h.below n hn).trans_le hbus
  · rw [hstreams]
    exact h.alone

omit [DecidableEq T] [DecidableEq C] in
/-- INTERNAL: a new connection has no stream yet. -/
theorem Peered.open (h : Peered d) (c : C) (hc : ∀ p ∈ d.peers, p.connection ≠ c)
    (hpeers : d'.peers = d.peers ++ [Peer.open c])
    (hlinks : d'.relay.links.length = d.relay.links.length + 1)
    (hbus : d'.bus = d.bus) : Peered d' := by
  have hstreams : peerStreams d' = peerStreams d ++ [none] := by
    unfold peerStreams
    rw [hpeers, List.map_append]
    rfl
  have hold : ∀ i n : ℕ, (peerStreams d')[i]? = some (some n) → (peerStreams d)[i]? = some (some n) := by
    intro i n hi
    rw [hstreams] at hi
    by_cases hlt : i < (peerStreams d).length
    · rwa [List.getElem?_append_left hlt] at hi
    · rw [List.getElem?_append_right (Nat.le_of_not_lt hlt)] at hi
      cases List.mem_singleton.mp (List.mem_of_getElem? hi)
  refine ⟨by rw [hpeers, hlinks, ← h.length]; simp, ?_, ?_, ?_⟩
  · rw [hpeers, List.map_append, List.map_singleton]
    refine List.nodup_append.mpr ⟨h.apart, List.nodup_singleton _, ?_⟩
    intro x hx y hy heq
    obtain ⟨p, hp, hpx⟩ := List.mem_map.mp hx
    exact hc p hp (hpx.trans (heq.trans (List.mem_singleton.mp hy)))
  · intro n hn
    obtain ⟨i, hi⟩ := List.mem_iff_getElem?.mp hn
    rw [hbus]
    exact h.below n (List.mem_of_getElem? (hold i n hi))
  · exact fun i j n hi hj => h.alone i j n (hold i n hi) (hold j n hj)

/-- INTERNAL: a connection joins the stream that was just made, or goes on with what it has. -/
theorem joined_cases (b b' : Bus C) (a : BusStep C) (hafter : StreamsAfter b b' a) (p : Peer C) :
    (p.joined b a).connection = p.connection ∧
      ((p.joined b a).stream = p.stream ∨
        (p.joined b a).stream = some b.streams.length ∧ a = .perform p.connection ∧
          b'.streams.length = b.streams.length + 1) := by
  unfold Peer.joined
  cases a with
  | perform c =>
    dsimp only
    split
    · next hjoins =>
      refine ⟨rfl, Or.inr ⟨rfl, by rw [hjoins.1], ?_⟩⟩
      cases hafter with
      | same _ htold h hjoin => exact absurd hjoins.2 (hjoin c rfl)
      | joined _ levelSeen chanceSeen h => rw [h, List.length_append, List.length_singleton]
      | dropped _ htold n old new hperform => exact absurd rfl (hperform c)
    · exact ⟨rfl, Or.inl rfl⟩
  | _ => exact ⟨rfl, Or.inl rfl⟩

omit [DecidableEq T] in
/-- INTERNAL: **a step of the broadcast** keeps the streams apart. -/
theorem Peered.bus (h : Peered d) (a : BusStep C) (hafter : StreamsAfter d.bus d'.bus a)
    (hpeers : d'.peers = d.peers.map (Peer.joined d.bus a))
    (hlinks : d'.relay.links.length = d.relay.links.length) : Peered d' := by
  have hjoined := joined_cases d.bus d'.bus a hafter
  have hconnections : d'.peers.map Peer.connection = d.peers.map Peer.connection := by
    rw [hpeers, List.map_map]
    exact List.map_congr_left fun p _ => (hjoined p).1
  have hgrows := streams_length d.bus d'.bus a hafter
  -- what a stream's number says of the connection that has it
  have hnumber : ∀ i n : ℕ, (peerStreams d')[i]? = some (some n) →
      (peerStreams d)[i]? = some (some n) ∨
        (n = d.bus.streams.length ∧ d'.bus.streams.length = d.bus.streams.length + 1 ∧
          ∃ p, d.peers[i]? = some p ∧ a = .perform p.connection) := by
    intro i n hi
    unfold peerStreams at hi ⊢
    rw [hpeers, List.map_map, List.getElem?_map] at hi
    obtain ⟨p, hp, hn⟩ := Option.map_eq_some_iff.mp hi
    rw [List.getElem?_map, hp]
    cases (hjoined p).2 with
    | inl hkept => exact Or.inl (congrArg some (hkept.symm.trans hn))
    | inr hnew =>
      exact Or.inr ⟨Option.some.inj (hn.symm.trans hnew.1), hnew.2.2, p, rfl, hnew.2.1⟩
  refine ⟨?_, by rw [hconnections]; exact h.apart, ?_, ?_⟩
  · rw [hpeers, List.length_map, hlinks, h.length]
  · intro n hn
    obtain ⟨i, hi⟩ := List.mem_iff_getElem?.mp hn
    cases hnumber i n hi with
    | inl hold => exact (h.below n (List.mem_of_getElem? hold)).trans_le hgrows
    | inr hnew => omega
  · intro i j n hi hj
    cases hnumber i n hi with
    | inl hi =>
      cases hnumber j n hj with
      | inl hj => exact h.alone i j n hi hj
      | inr hj =>
        have hlt := h.below n (List.mem_of_getElem? hi)
        omega
    | inr hi =>
      cases hnumber j n hj with
      | inl hj =>
        have hlt := h.below n (List.mem_of_getElem? hj)
        omega
      | inr hj =>
        obtain ⟨-, -, p, hp, hpa⟩ := hi
        obtain ⟨-, -, q, hq, hqa⟩ := hj
        have hsame : p.connection = q.connection := by
          rw [hpa] at hqa
          exact BusStep.perform.inj hqa
        have hlt := (List.getElem?_eq_some_iff.mp hp).1
        refine (List.getElem?_inj (by simpa using hlt) h.apart).mp ?_
        rw [List.getElem?_map, List.getElem?_map, hp, hq, Option.map_some, Option.map_some, hsame]

end Peers

/-! ## The last value told -/

section Synced

variable {α T C : Type} [DecidableEq T] [DecidableEq C] (f : Update → List α)
  (shown : ConsoleModel → Option α) (rx : SpanStream → Option (Receiver α))
  (unfilledInstant : ℕ) (base : TimeBase) (d d' : Deployment T C)

/-- INTERNAL: **the invariant**: the last value that was given to the reducer or is on its way is
the last one told by the stream of the connection that the task is on. -/
def Synced (d : Deployment T C) : Prop :=
  NothingRefused d.relay.network → d.relay.network.phase = .streaming →
    ∀ n stream r v, (peerStreams d).getLast? = some (some n) → d.bus.streams[n]? = some stream →
      rx stream = some r → r.sent = some v →
      (carried f d.received ++ pending f d.relay).getLast? = some v

omit [DecidableEq T] [DecidableEq C] in
/-- INTERNAL: a step that leaves the broadcast alone, and loses nothing while the stream goes on. -/
theorem Synced.of_same (h : Synced f rx d)
    (hrefused : NothingRefused d'.relay.network → NothingRefused d.relay.network)
    (hphase : d'.relay.network.phase = .streaming → d.relay.network.phase = .streaming)
    (hstreams : (peerStreams d').getLast? = (peerStreams d).getLast?)
    (hbus : d'.bus.streams = d.bus.streams)
    (hcarried : NothingRefused d'.relay.network → d'.relay.network.phase = .streaming →
      carried f d'.received ++ pending f d'.relay = carried f d.received ++ pending f d.relay) :
    Synced f rx d' := by
  intro hnone hstreaming n stream r v hn hstream hrx hsent
  rw [hcarried hnone hstreaming]
  rw [hstreams] at hn
  rw [hbus] at hstream
  exact h (hrefused hnone) (hphase hstreaming) n stream r v hn hstream hrx hsent

omit [DecidableEq T] [DecidableEq C] in
/-- INTERNAL: what a step puts on the wire, it tells the stream of that connection. -/
theorem heard_told (a : BusStep C) (i : ℕ) (body : ResponseBody)
    (h : d.heard a = some (i, body)) :
    ∃ n, Deployment.told d.bus a = some (n, body) ∧ (peerStreams d)[i]? = some (some n) := by
  obtain ⟨sent, htold, hfound⟩ := Option.bind_eq_some_iff.mp h
  obtain ⟨j, hj, hpair⟩ := Option.map_eq_some_iff.mp hfound
  obtain ⟨hi, hbody⟩ := Prod.mk.inj hpair
  subst hi hbody
  obtain ⟨hlt, hstream, -⟩ := List.findIdx?_eq_some_iff_getElem.mp hj
  refine ⟨sent.1, htold, ?_⟩
  unfold peerStreams
  rw [List.getElem?_map, List.getElem?_eq_getElem hlt, Option.map_some, of_decide_eq_true hstream]

omit [DecidableEq T] [DecidableEq C] in
/-- INTERNAL: what a stream of the console is told goes on the wire. -/
theorem told_heard (a : BusStep C) (n i : ℕ) (body : ResponseBody)
    (htold : Deployment.told d.bus a = some (n, body))
    (hi : (peerStreams d)[i]? = some (some n)) :
    ∃ j, d.heard a = some (j, body) := by
  unfold Deployment.heard
  rw [htold]
  cases hfound : d.peers.findIdx? fun p => p.stream = some n with
  | some j => exact ⟨j, by rw [Option.bind_some, hfound]; rfl⟩
  | none =>
    unfold peerStreams at hi
    rw [List.getElem?_map] at hi
    obtain ⟨p, hp, hn⟩ := Option.map_eq_some_iff.mp hi
    have hnone := List.findIdx?_eq_none_iff.mp hfound p (List.mem_of_getElem? hp)
    exact absurd hn (of_decide_eq_false hnone)

variable (hrx : Receives (C := C) f rx)

include hrx

/-- INTERNAL: **a step of the broadcast** puts on the wire what its stream is told. -/
theorem Synced.bus (h : Synced f rx d) (hpeered : Peered d) (a : BusStep C)
    (hafter : StreamsAfter d.bus d'.bus a)
    (hpeers : d'.peers = d.peers.map (Peer.joined d.bus a))
    (hrelay : d.onWire unfilledInstant base a = some d'.relay)
    (hreceived : d'.received = d.received) : Synced f rx d' := by
  have hnetwork : d'.relay.network = d.relay.network := by
    unfold Deployment.onWire at hrelay
    split at hrelay
    · rw [Option.some.inj hrelay]
    · next n body _ =>
      exact (linkStep_aside d.relay d'.relay unfilledInstant base n (.push body) hrelay).1.network
  intro hnone hstreaming n stream r v hn hstream hr hsent
  rw [hnetwork] at hnone hstreaming
  rw [hreceived]
  have htold := hrx d.bus d'.bus a hafter n stream r v hstream hr hsent
  -- the stream is not a new one, as that has told nothing
  have hlast : (peerStreams d).getLast? = some (some n) := by
    unfold peerStreams at hn ⊢
    rw [hpeers, List.map_map, List.getLast?_map] at hn
    obtain ⟨p, hp, hstreamed⟩ := Option.map_eq_some_iff.mp hn
    rw [List.getLast?_map, hp]
    cases (joined_cases d.bus d'.bus a hafter p).2 with
    | inl hkept => exact congrArg some (hkept.symm.trans hstreamed)
    | inr hnew =>
      have hfresh : n = d.bus.streams.length := Option.some.inj (hstreamed.symm.trans hnew.1)
      rw [hnew.2.1] at htold
      cases htold with
      | inl hnow =>
        obtain ⟨body, hbody, -⟩ := hnow
        cases hbody
      | inr hbefore =>
        obtain ⟨⟨old, hold, -⟩, -⟩ := hbefore
        rw [hfresh, List.getElem?_eq_none (Nat.le_refl _)] at hold
        cases hold
  rw [List.getLast?_eq_getElem?] at hlast
  have hlength : (peerStreams d).length = d.relay.links.length := by
    rw [← hpeered.length]
    exact List.length_map _
  have hbound := (List.getElem?_eq_some_iff.mp hlast).1
  -- what comes on the wire with this step
  have hpending : ∀ i body, d.heard a = some (i, body) →
      pending f d'.relay = pending f d.relay ++
        if i + 1 = d.relay.links.length then bodyCarried f body else [] := by
    intro i body hheard
    unfold Deployment.onWire at hrelay
    rw [hheard] at hrelay
    obtain ⟨l, -, hpending⟩ :=
      pending_link f d.relay d'.relay unfilledInstant base i (.push body) hrelay
    rw [hpending]
    simp only [hstreaming, true_and, putOnWire, List.flatMap_cons, List.flatMap_nil,
      List.append_nil]
  cases htold with
  | inl hnow =>
    obtain ⟨body, hbody, hcarried⟩ := hnow
    obtain ⟨i, hheard⟩ := told_heard d a n _ body hbody hlast
    obtain ⟨m, hm, hi⟩ := heard_told d a i body hheard
    have hsame : m = n := (Prod.mk.inj (Option.some.inj (hm.symm.trans hbody))).1
    rw [hsame] at hi
    have hindex := hpeered.alone i _ n hi hlast
    rw [hpending i body hheard, if_pos (by omega), hcarried, ← List.append_assoc,
      List.getLast?_concat]
  | inr hbefore =>
    obtain ⟨⟨old, hold, hr⟩, hquiet⟩ := hbefore
    have hsame : pending f d'.relay = pending f d.relay := by
      cases hheard : d.heard a with
      | none =>
        unfold Deployment.onWire at hrelay
        rw [hheard] at hrelay
        rw [Option.some.inj hrelay]
      | some sent =>
        obtain ⟨m, hm, hi⟩ := heard_told d a sent.1 sent.2 hheard
        rw [hpending sent.1 sent.2 hheard]
        split
        · next hlink =>
          have hindex : sent.1 = (peerStreams d).length - 1 := by omega
          rw [hindex, hlast] at hi
          rw [← Option.some.inj (Option.some.inj hi)] at hm
          rw [hquiet sent.2 hm, List.append_nil]
        · exact List.append_nil _
    rw [hsame]
    refine h hnone hstreaming n old r v ?_ hold hr hsent
    rw [List.getLast?_eq_getElem?]
    exact hlast

end Synced

/-! ## Every step -/

section Settled

variable {T C : Type} [DecidableEq T] [DecidableEq C] (unfilledInstant : ℕ) (base : TimeBase)
  (toF64 : ℚ → F64)

/-- INTERNAL: what was not refused was not refused before. -/
theorem refused_earlier (s s' : Relay T) (a : RelayStep T)
    (h : s.step unfilledInstant base a = some s') (hnone : NothingRefused s'.network) :
    NothingRefused s.network := by
  cases relay_moved s s' unfilledInstant base a h with
  | aside haside => exact haside.network ▸ hnone
  | network b hstep hconsole hgiven =>
    exact fun burst hburst => hnone burst ((bursts_step _ _ b hstep).subset hburst)
  | took now u channel r hchannel happly hs' =>
    subst hs'
    exact hnone
  | told now u r hu happly hs' =>
    subst hs'
    exact hnone

/-- INTERNAL: only a start makes a connection, or leads to a stream. -/
theorem leaves_stream (s s' : Relay T) (a : RelayStep T) (ha : a.leavesBus = true)
    (h : s.step unfilledInstant base a = some s') :
    s'.links.length = s.links.length ∧
      (s'.network.phase = .streaming → s.network.phase = .streaming) := by
  cases a with
  | host a =>
    obtain ⟨haside, hflight⟩ := hostStep_aside s s' a h
    have hlength := congrArg List.length hflight
    rw [List.length_map, List.length_map] at hlength
    exact ⟨hlength, fun hphase => haside.network ▸ hphase⟩
  | link n a =>
    obtain ⟨haside, l, l', hl, hlinks, -⟩ := linkStep_aside s s' unfilledInstant base n a h
    exact ⟨by rw [hlinks, List.length_set], fun hphase => haside.network ▸ hphase⟩
  | network a =>
    have hstarted : a ≠ .started := fun heq => by
      rw [heq] at ha
      cases ha
    obtain ⟨hburst, network, hnetwork, hs'⟩ := networkStep_eq_some s s' a h
    rw [if_neg hstarted] at hs'
    rw [hs']
    exact ⟨rfl, fun hphase => (step_carried levelsOf broadcasts_levels.self _ _ a hnetwork
      hburst).2 hphase hstarted⟩
  | burst ready ending many error last =>
    obtain ⟨links, l, item, items, hlinks, hphase, -, -, -, hs'⟩ :=
      burstStep_eq_some s s' ready ending many error last h
    rw [hs', hlinks]
    exact ⟨by simp, fun _ => hphase⟩
  | take now => cases ha
  | other now u => cases ha

omit [DecidableEq C] in
/-- INTERNAL: a request is put on the connection made last, and changes nothing else. -/
theorem send_same (peers : List (Peer C)) (body : RequestBody) :
    (Deployment.send peers body).map Peer.connection = peers.map Peer.connection ∧
      (Deployment.send peers body).map Peer.stream = peers.map Peer.stream ∧
      (Deployment.send peers body).map Peer.handled = peers.map Peer.handled := by
  unfold Deployment.send
  split
  · exact ⟨rfl, rfl, rfl⟩
  · next p hp =>
    obtain ⟨front, hfront⟩ := List.getLast?_eq_some_iff.mp hp
    subst hfront
    simp

omit [DecidableEq C] in
/-- INTERNAL: a peer that is replaced by one that agrees with it. -/
theorem map_replaced {β : Type} (g : Peer C → β) (peers : List (Peer C)) (n : ℕ) (p p' : Peer C)
    (hp : peers[n]? = some p) (hg : g p' = g p) : (peers.set n p').map g = peers.map g := by
  rw [List.map_set, hg]
  refine List.ext_getElem? fun i => ?_
  rw [List.getElem?_set]
  split
  · next hi =>
    subst hi
    rw [List.getElem?_map, hp, List.length_map]
    simp [(List.getElem?_eq_some_iff.mp hp).1]
  · rfl

/-- INTERNAL: all that is kept. -/
structure Settling (d : Deployment T C) : Prop where
  followed : BothFollowed d
  peered : Peered d
  levels : Synced levelsOf SpanStream.levelRx d
  chances : Synced chancesOf SpanStream.chanceRx d

variable (d d' : Deployment T C)

omit [DecidableEq T] [DecidableEq C] in
/-- INTERNAL: a step that leaves the broadcast alone, and loses nothing while the stream goes on. -/
theorem Settling.of_same (h : Settling d) (hfollowed : BothFollowed d')
    (hpeered : Peered d')
    (hrefused : NothingRefused d'.relay.network → NothingRefused d.relay.network)
    (hphase : d'.relay.network.phase = .streaming → d.relay.network.phase = .streaming)
    (hstreams : peerStreams d' = peerStreams d)
    (hbus : d'.bus.streams = d.bus.streams)
    (hlevels : NothingRefused d'.relay.network → d'.relay.network.phase = .streaming →
      carried levelsOf d'.received ++ pending levelsOf d'.relay =
        carried levelsOf d.received ++ pending levelsOf d.relay)
    (hchances : NothingRefused d'.relay.network → d'.relay.network.phase = .streaming →
      carried chancesOf d'.received ++ pending chancesOf d'.relay =
        carried chancesOf d.received ++ pending chancesOf d.relay) : Settling d' :=
  ⟨hfollowed, hpeered,
    h.levels.of_same _ _ d d' hrefused hphase (congrArg List.getLast? hstreams) hbus hlevels,
    h.chances.of_same _ _ d d' hrefused hphase (congrArg List.getLast? hstreams) hbus hchances⟩

/-- INTERNAL: a step of the relay that is none of the ones below. -/
theorem Settling.relay (a : RelayStep T) (h : Settling d) (hfollowed : BothFollowed d')
    (hstep : d.step unfilledInstant base toF64 (.relay a) = some d') : Settling d' := by
  simp only [Deployment.step] at hstep
  split at hstep
  · next ha =>
    obtain ⟨relay, hrelay, hd'⟩ := Option.map_eq_some_iff.mp hstep
    subst hd'
    obtain ⟨hlinks, hphase⟩ := leaves_stream unfilledInstant base d.relay relay a ha hrelay
    obtain ⟨-, -, hlevels⟩ :=
      pending_leaves _ _ broadcasts_levels unfilledInstant base d.relay relay a ha hrelay
    obtain ⟨-, -, hchances⟩ :=
      pending_leaves _ _ broadcasts_chances unfilledInstant base d.relay relay a ha hrelay
    exact h.of_same d _ hfollowed (h.peered.of_same d _ rfl rfl hlinks le_rfl)
      (refused_earlier unfilledInstant base d.relay relay a hrelay) hphase rfl rfl
      (fun hnone hstreaming => congrArg _ (hlevels hnone hstreaming))
      (fun hnone hstreaming => congrArg _ (hchances hnone hstreaming))
  · cases hstep

/-- INTERNAL: a connection is started: it has told its client nothing.
SRCLINE: runtime.rs:124-126 -/
theorem Settling.started (c : C) (h : Settling d) (hfollowed : BothFollowed d')
    (hstep : d.step unfilledInstant base toF64 (.started c) = some d') : Settling d' := by
  simp only [Deployment.step] at hstep
  split at hstep
  · next hfresh =>
    obtain ⟨relay, hrelay, hd'⟩ := Option.map_eq_some_iff.mp hstep
    subst hd'
    obtain ⟨-, network, hnetwork, hmoved⟩ := networkStep_eq_some d.relay relay .started hrelay
    have hapart : ∀ p ∈ d.peers, p.connection ≠ c := fun p hp =>
      of_decide_eq_true (List.all_eq_true.mp hfresh.1 p hp)
    have hpeered : Peered { d with relay := relay, peers := d.peers ++ [Peer.open c] } :=
      h.peered.open d _ c hapart rfl (by rw [hmoved, if_pos rfl]; simp) rfl
    -- the new connection has no stream yet
    have hnew :
        (peerStreams { d with relay := relay, peers := d.peers ++ [Peer.open c] }).getLast? =
          some none := by
      unfold peerStreams
      rw [List.map_append, List.map_singleton, List.getLast?_concat]
      rfl
    refine ⟨hfollowed, hpeered, ?_, ?_⟩
    all_goals
      intro _ _ n stream r v hn
      rw [hnew] at hn
      cases hn
  · cases hstep

/-- INTERNAL: a request arrives: nothing is told by that.
SRCLINE: server.rs:201-216 -/
theorem Settling.deliver (n : ℕ) (h : Settling d) (hfollowed : BothFollowed d')
    (hstep : d.step unfilledInstant base toF64 (.deliver n) = some d') : Settling d' := by
  simp only [Deployment.step] at hstep
  split at hstep
  · cases hstep
  · next p hp =>
    split at hstep
    · cases hstep
    · next body upstream hbody =>
      obtain ⟨bus, hbus, hd'⟩ := Option.map_eq_some_iff.mp hstep
      subst hd'
      obtain ⟨-, -, hstreams⟩ := request_rests d.bus bus p.connection body hbus
      have hsame {β : Type} (g : Peer C → β) := map_replaced g d.peers n p
        { p with handled := p.handled ++ [body], upstream := upstream } hp
      exact h.of_same d _ hfollowed
        (h.peered.of_same d _ (hsame Peer.connection rfl) (hsame Peer.stream rfl) rfl
          (by rw [hstreams] : d.bus.streams.length ≤ bus.streams.length))
        (fun hnone => hnone) (fun hphase => hphase) (hsame Peer.stream rfl) hstreams
        (fun _ _ => rfl) (fun _ _ => rfl)

/-- INTERNAL: a step of the broadcast, whose message goes on the wire.
SRCLINE: server.rs:59-148, 253-308 -/
theorem Settling.bus (a : BusStep C) (h : Settling d) (hfollowed : BothFollowed d')
    (hstep : d.step unfilledInstant base toF64 (.bus a) = some d') : Settling d' := by
  simp only [Deployment.step] at hstep
  split at hstep
  · cases hstep
  · obtain ⟨bus, hbus, hstep⟩ := Option.bind_eq_some_iff.mp hstep
    obtain ⟨relay, hrelay, hd'⟩ := Option.map_eq_some_iff.mp hstep
    subst hd'
    have hafter := step_streams d.bus bus a hbus
    have hlinks : relay.links.length = d.relay.links.length := by
      unfold Deployment.onWire at hrelay
      split at hrelay
      · rw [Option.some.inj hrelay]
      · next n body _ =>
        obtain ⟨-, l, l', -, hlinks, -⟩ :=
          linkStep_aside d.relay relay unfilledInstant base n (.push body) hrelay
        rw [hlinks, List.length_set]
    exact ⟨hfollowed, h.peered.bus d _ a hafter rfl hlinks,
      h.levels.bus _ _ unfilledInstant base d _ receives_levels h.peered a hafter rfl hrelay rfl,
      h.chances.bus _ _ unfilledInstant base d _ receives_chances h.peered a hafter rfl hrelay
        rfl⟩

/-- INTERNAL: the console sends a request, or cannot.
SRCLINE: runtime.rs:234-241 -/
theorem Settling.outgoing (sent : Bool) (h : Settling d) (hfollowed : BothFollowed d')
    (hstep : d.step unfilledInstant base toF64 (.outgoing sent) = some d') : Settling d' := by
  simp only [Deployment.step] at hstep
  split at hstep
  · cases hstep
  · next req outgoing _ =>
    obtain ⟨relay, hrelay, hd'⟩ := Option.map_eq_some_iff.mp hstep
    subst hd'
    obtain ⟨-, network, hnetwork, hmoved⟩ :=
      networkStep_eq_some d.relay relay (.outgoing req) hrelay
    rw [if_neg (by simp)] at hmoved
    have hpeers := send_same d.peers (req.request toF64)
    have hphase : relay.network.phase = .streaming → d.relay.network.phase = .streaming := by
      intro hstreaming
      refine (step_carried levelsOf broadcasts_levels.self _ _ (.outgoing req) hnetwork
        fun _ _ _ _ _ heq => by cases heq).2 ?_ fun heq => by cases heq
      rw [hmoved] at hstreaming
      exact hstreaming
    have hrefused := refused_earlier unfilledInstant base d.relay relay (.network _) hrelay
    have hlevels :=
      (pending_network _ broadcasts_levels.self d.relay relay (.outgoing req) hrelay).2
    have hchances :=
      (pending_network _ broadcasts_chances.self d.relay relay (.outgoing req) hrelay).2
    cases sent with
    | true =>
      exact h.of_same d _ hfollowed
        (h.peered.of_same d _ hpeers.1 hpeers.2.1 (by rw [hmoved]) le_rfl) hrefused hphase
        hpeers.2.1
        rfl (fun _ hstreaming => congrArg _ (hlevels hstreaming))
        (fun _ hstreaming => congrArg _ (hchances hstreaming))
    | false =>
      exact h.of_same d _ hfollowed
        (h.peered.of_same d _ rfl rfl (by rw [hmoved]) le_rfl) hrefused hphase rfl
        rfl (fun _ hstreaming => congrArg _ (hlevels hstreaming))
        (fun _ hstreaming => congrArg _ (hchances hstreaming))

/-- INTERNAL: the reducer is given an update.
SRCLINE: runtime.rs:340-345 -/
theorem Settling.take (now : ℕ) (queued : Bool) (h : Settling d) (hfollowed : BothFollowed d')
    (hstep : d.step unfilledInstant base toF64 (.take now queued) = some d') : Settling d' := by
  simp only [Deployment.step] at hstep
  split at hstep
  · cases hstep
  · next u channel hchannel =>
    obtain ⟨relay, hrelay, hd'⟩ := Option.map_eq_some_iff.mp hstep
    have hrefused := refused_earlier unfilledInstant base d.relay relay _ hrelay
    obtain ⟨hlevels, hlinks, hphase⟩ :=
      pending_take levelsOf d.relay relay unfilledInstant base now u channel hchannel hrelay
    obtain ⟨hchances, -, -⟩ :=
      pending_take chancesOf d.relay relay unfilledInstant base now u channel hchannel hrelay
    subst hd'
    refine h.of_same d _ hfollowed (h.peered.of_same d _ rfl rfl (by rw [hlinks]) le_rfl) hrefused
      (fun hstreaming => hphase ▸ hstreaming) rfl rfl (fun _ _ => ?_) fun _ _ => ?_
    · show carried levelsOf (d.received ++ [u]) ++ _ = _
      rw [carried_append, carried_singleton, hlevels, List.append_assoc]
    · show carried chancesOf (d.received ++ [u]) ++ _ = _
      rw [carried_append, carried_singleton, hchances, List.append_assoc]

/-- INTERNAL: the reducer is given a key.
SRCLINE: runtime.rs:337-345 -/
theorem Settling.other (now : ℕ) (u : Update) (queued : Bool) (h : Settling d)
    (hfollowed : BothFollowed d')
    (hstep : d.step unfilledInstant base toF64 (.other now u queued) = some d') :
    Settling d' := by
  simp only [Deployment.step] at hstep
  obtain ⟨relay, hrelay, hd'⟩ := Option.map_eq_some_iff.mp hstep
  have hrefused := refused_earlier unfilledInstant base d.relay relay _ hrelay
  have hsame : relay.network = d.relay.network ∧ relay.links = d.relay.links := by
    simp only [Relay.step] at hrelay
    split at hrelay
    · cases hrelay
    · obtain ⟨r, -, hr⟩ := Option.map_eq_some_iff.mp hrelay
      exact ⟨by rw [← hr], by rw [← hr]⟩
  have hpending {α : Type} (f : Update → List α) : pending f relay = pending f d.relay := by
    unfold pending
    rw [hsame.1, hsame.2]
  subst hd'
  exact h.of_same d _ hfollowed (h.peered.of_same d _ rfl rfl (by rw [hsame.2]) le_rfl) hrefused
    (fun hstreaming => hsame.1 ▸ hstreaming) rfl rfl (fun _ _ => congrArg _ (hpending levelsOf))
    (fun _ _ => congrArg _ (hpending chancesOf))

/-- INTERNAL: **the step lemma**. -/
theorem Settling.step (a : DeploymentStep T C) (h : Settling d)
    (hstep : d.step unfilledInstant base toF64 a = some d') : Settling d' := by
  have hfollowed := h.followed.step unfilledInstant base toF64 d d' a hstep
  cases a with
  | relay a => exact h.relay unfilledInstant base toF64 d d' a hfollowed hstep
  | started c => exact h.started unfilledInstant base toF64 d d' c hfollowed hstep
  | deliver n => exact h.deliver unfilledInstant base toF64 d d' n hfollowed hstep
  | bus a => exact h.bus unfilledInstant base toF64 d d' a hfollowed hstep
  | outgoing sent => exact h.outgoing unfilledInstant base toF64 d d' sent hfollowed hstep
  | take now queued => exact h.take unfilledInstant base toF64 d d' now queued hfollowed hstep
  | other now u queued => exact h.other unfilledInstant base toF64 d d' now u queued hfollowed hstep

omit [DecidableEq T] [DecidableEq C] in
/-- INTERNAL: the deployment starts settling. -/
theorem settling_start (cache : SpanCache) (key : ℕ) (keys : T → ℕ)
    (cacheAddr capacity historyBudget : ℕ) (level : LevelFilter) (chance : F64)
    (setLevel : Option WireLevelFilter) (setChance : Option ℚ) :
    Settling (newDeployment cache key keys cacheAddr capacity historyBudget level chance
      setLevel setChance : Deployment T C) where
  followed := bothFollowed_start cache key keys cacheAddr capacity historyBudget level chance
    setLevel setChance
  peered := ⟨rfl, List.nodup_nil, fun _ hn => (by cases hn), fun _ _ _ hi => (by cases hi)⟩
  levels := fun _ _ n stream r v hn => by cases hn
  chances := fun _ _ n stream r v hn => by cases hn

/-- INTERNAL: no burst was refused, everything on the way has arrived, and the stream has told its
client both values and has no change to read. -/
structure Settled (d : Deployment T C) (level : Receiver WireLevelFilter)
    (chance : Receiver F64) : Prop where
  refused : NothingRefused d.relay.network
  streaming : d.relay.network.phase = .streaming
  channel : d.relay.network.channel = []
  inFlight : ∀ l, d.relay.links.getLast? = some l → l.inFlight = []
  stream : ∃ n, (peerStreams d).getLast? = some (some n) ∧
    d.bus.streams[n]? = some { levelRx := some level, chanceRx := some chance }
  told : level.sent ≠ none ∧ chance.sent ≠ none
  read : level.seen = d.bus.levelTx.version ∧ chance.seen = d.bus.chanceTx.version

omit [DecidableEq T] [DecidableEq C] in
/-- INTERNAL: nothing is pending when everything has arrived. -/
theorem Settled.nothing_pending {α : Type} (f : Update → List α) (level : Receiver WireLevelFilter)
    (chance : Receiver F64) (h : Settled d level chance) : pending f d.relay = [] := by
  unfold pending
  rw [h.channel, if_pos h.streaming]
  cases hlast : d.relay.links.getLast? with
  | none => rfl
  | some l =>
    rw [Option.map_some, Option.getD_some, h.inFlight l hlast]
    rfl

omit [DecidableEq T] [DecidableEq C] in
/-- INTERNAL: one of the two channels: the value it holds is shown. -/
theorem shows_held {α : Type} (f : Update → List α) (shown : ConsoleModel → Option α)
    (watch : Bus C → Watch α) (rx : SpanStream → Option (Receiver α)) (log : List α)
    (hfollowing : Following f shown watch log d) (hsynced : Synced f rx d)
    (level : Receiver WireLevelFilter) (chance : Receiver F64) (hsettled : Settled d level chance)
    (r : Receiver α) (hrx : rx { levelRx := some level, chanceRx := some chance } = some r)
    (hvalue : r.sent = some (watch d.bus).value) :
    shown d.relay.console = some (watch d.bus).value := by
  obtain ⟨n, hn, hstream⟩ := hsettled.stream
  have hlast := hsynced hsettled.refused hsettled.streaming n _ r _ hn hstream hrx hvalue
  rw [hsettled.nothing_pending d f, List.append_nil] at hlast
  rw [hfollowing.shows, hlast]

/-- INTERNAL: the host's connections send in order. -/
def SendsInOrder (d : Deployment T C) : DeploymentStep T C → Prop
  | .bus a => InOrder d.bus a
  | _ => True

/-- INTERNAL: a step whose sends are in order keeps the clients told. -/
theorem clientsTold_step (a : DeploymentStep T C) (h : BothFollowed d) (htold : ClientsTold d.bus)
    (hordered : SendsInOrder d a) (hstep : d.step unfilledInstant base toF64 a = some d') :
    ClientsTold d'.bus := by
  cases a with
  | relay a =>
    simp only [Deployment.step] at hstep
    split at hstep
    · obtain ⟨relay, -, hd'⟩ := Option.map_eq_some_iff.mp hstep
      subst hd'
      exact htold
    · cases hstep
  | started c =>
    simp only [Deployment.step] at hstep
    split at hstep
    · obtain ⟨relay, -, hd'⟩ := Option.map_eq_some_iff.mp hstep
      subst hd'
      exact htold
    · cases hstep
  | deliver n =>
    simp only [Deployment.step] at hstep
    split at hstep
    · cases hstep
    · next p hp =>
      split at hstep
      · cases hstep
      · next body upstream hbody =>
        obtain ⟨bus, hbus, hd'⟩ := Option.map_eq_some_iff.mp hstep
        subst hd'
        -- a request that is taken sends nothing yet
        refine (inOrder_iff d.bus bus _ h.announcing htold hbus).mp ⟨?_, ?_⟩
        · exact fun c filter hsent => by cases hsent
        · exact fun c pct hsent => by cases hsent
  | bus a =>
    simp only [Deployment.step] at hstep
    split at hstep
    · cases hstep
    · obtain ⟨bus, hbus, hstep⟩ := Option.bind_eq_some_iff.mp hstep
      obtain ⟨relay, -, hd'⟩ := Option.map_eq_some_iff.mp hstep
      subst hd'
      exact (inOrder_iff d.bus bus a h.announcing htold hbus).mp hordered
  | outgoing sent =>
    simp only [Deployment.step] at hstep
    split at hstep
    · cases hstep
    · obtain ⟨relay, -, hd'⟩ := Option.map_eq_some_iff.mp hstep
      subst hd'
      exact htold
  | take now queued =>
    simp only [Deployment.step] at hstep
    split at hstep
    · cases hstep
    · obtain ⟨relay, -, hd'⟩ := Option.map_eq_some_iff.mp hstep
      subst hd'
      exact htold
  | other now u queued =>
    obtain ⟨relay, -, hd'⟩ := Option.map_eq_some_iff.mp hstep
    subst hd'
    exact htold

variable {unfilledInstant base toF64}

/-- CODE: server.rs:59-148, 186-308, runtime.rs:85-263, core.rs:482-496 — **a console that has
caught up shows what the host applies**: when no burst was refused, everything told has arrived
and its stream has no change to read, the console shows the level and the chance that the watch
channels hold; and if all connections have sent in order and none is between a store and its
send, these are the level and the chance that the cache applies. -/
theorem settled_console_shows_applied (cache : SpanCache) (key : ℕ) (keys : T → ℕ)
    (cacheAddr capacity historyBudget : ℕ) (level : LevelFilter) (chance : F64)
    (setLevel : Option WireLevelFilter) (setChance : Option ℚ) (steps : List (DeploymentStep T C))
    (d : Deployment T C)
    (hrun : run (Deployment.step unfilledInstant base toF64)
      (newDeployment cache key keys cacheAddr capacity historyBudget level chance setLevel
        setChance) steps = some d)
    (levelRx : Receiver WireLevelFilter) (chanceRx : Receiver F64)
    (hsettled : Settled d levelRx chanceRx) :
    (d.relay.console.cacheLevel = some d.bus.levelTx.value ∧
      d.relay.console.cacheChance = some d.bus.chanceTx.value) ∧
    (RunsUnder (Deployment.step unfilledInstant base toF64) SendsInOrder
        (newDeployment cache key keys cacheAddr capacity historyBudget level chance setLevel
          setChance) steps →
      (∀ c, sendsLevel (d.bus.connection c).todo = none ∧
        sendsChance (d.bus.connection c).todo = none) →
      d.relay.console.cacheLevel = some (WireLevelFilter.fromTracing d.bus.level) ∧
        d.relay.console.cacheChance = some d.bus.chanceHandle) := by
  have h := run_invariant _ Settling
    (fun d a d' h hstep => h.step unfilledInstant base toF64 d d' a hstep) _ steps d
    (settling_start cache key keys cacheAddr capacity historyBudget level chance setLevel
      setChance) hrun
  obtain ⟨n, -, hstream⟩ := hsettled.stream
  have hmem := List.mem_of_getElem? hstream
  have hlevel := (h.followed.announcing.level levelRx
    (List.mem_filterMap.mpr ⟨_, hmem, rfl⟩) hsettled.told.1).2 hsettled.read.1
  have hchance := (h.followed.announcing.chance chanceRx
    (List.mem_filterMap.mpr ⟨_, hmem, rfl⟩) hsettled.told.2).2 hsettled.read.2
  have hshown : d.relay.console.cacheLevel = some d.bus.levelTx.value ∧
      d.relay.console.cacheChance = some d.bus.chanceTx.value :=
    ⟨shows_held d _ _ _ _ _ h.followed.levels h.levels levelRx chanceRx hsettled levelRx rfl
        hlevel,
      shows_held d _ _ _ _ _ h.followed.chances h.chances levelRx chanceRx hsettled chanceRx
        rfl hchance⟩
  refine ⟨hshown, fun hordered hquiet => ?_⟩
  have htold := (run_invariant_under _ SendsInOrder
    (fun d => BothFollowed d ∧ ClientsTold d.bus)
    (fun d a d' hd hok hstep => ⟨hd.1.step unfilledInstant base toF64 d d' a hstep,
      clientsTold_step unfilledInstant base toF64 d d' a hd.1 hd.2 hok hstep⟩) _ steps d
    ⟨bothFollowed_start cache key keys cacheAddr capacity historyBudget level chance setLevel
      setChance, clientsTold_new level chance⟩ hordered hrun).2
  rw [hshown.1, hshown.2, (htold.level fun c => (hquiet c).1).1,
    (htold.chance fun c => (hquiet c).2).1]
  exact ⟨rfl, rfl⟩

end Settled

/-! ## A level asked for on the command line -/

section Decide

variable {P α : Type} [Fintype P] [DecidableEq P] [DecidableEq α]

/-- INTERNAL: decidable. -/
instance (b : Cell P α) (p : P) (v : α) : Decidable (b.Settles p v) :=
  inferInstanceAs (Decidable (_ ∨ _ ∨ _))

/-- INTERNAL: decidable. -/
instance (b : Bus P) (a : BusStep P) : Decidable (InOrder b a) :=
  decidable_of_iff
    ((∀ x ∈ sentLevel b a, (levelCell b).Settles x.1 x.2) ∧
      ∀ x ∈ sentChance b a, (chanceCell b).Settles x.1 x.2)
    (and_congr ⟨fun h c filter hsent => h (c, filter) hsent, fun h x hx => h x.1 x.2 hx⟩
      ⟨fun h c pct hsent => h (c, pct) hsent, fun h x hx => h x.1 x.2 hx⟩)

/-- INTERNAL: decidable, so that it can be tested on a run. -/
instance {T : Type} (d : Deployment T P) : (a : DeploymentStep T P) → Decidable (SendsInOrder d a)
  | .bus a => inferInstanceAs (Decidable (InOrder d.bus a))
  | .relay _ | .started _ | .deliver _ | .outgoing _ | .take _ _ | .other _ _ _ =>
    inferInstanceAs (Decidable True)

end Decide

/-- INTERNAL: where the run ends: what is on the way, and the broadcast. -/
theorem asksForInfo_ends :
    (run (Deployment.step 0 { instantAtStart := 0, systimeAtStart := 0 } fun _ => F64.hundred)
        infoDeployment asksForInfo).map (fun d =>
      ((d.relay.network.phase, d.relay.network.channel.length,
        d.relay.network.bursts.map Prod.snd), d.relay.links.map Link.inFlight, peerStreams d)) =
      some ((.streaming, 0, [.accepted]), [[]], [some 0]) := by
  decide +kernel

set_option synthInstance.maxSize 400 in
/-- INTERNAL: what the bus of the run comes to. -/
theorem asksForInfo_bus :
    (run (Deployment.step 0 { instantAtStart := 0, systimeAtStart := 0 } fun _ => F64.hundred)
        infoDeployment asksForInfo).map (fun d =>
      ((d.bus.streams.map SpanStream.levelRx, d.bus.streams.map SpanStream.chanceRx),
        (d.bus.levelTx.version, d.bus.chanceTx.version), d.bus.level,
        [false, true].map fun c => (d.bus.connection c).todo)) =
      some (([some { seen := 1, sent := some .info }], [some { seen := 0, sent := some F64.hundred }]),
        (1, 0), .info, [[], []]) := by
  decide +kernel

/-- INTERNAL: the run sends in order. -/
theorem asksForInfo_ordered : RunsUnder
    (Deployment.step 0 { instantAtStart := 0, systimeAtStart := 0 } fun _ => F64.hundred)
    SendsInOrder infoDeployment asksForInfo := by
  decide +kernel

/-- CODE: server.rs:59-148, runtime.rs:71-76 — the level asked for on the command line is applied
and shown. -/
theorem settled_console_shows_applied_info :
    ∃ d, run (Deployment.step 0 { instantAtStart := 0, systimeAtStart := 0 } fun _ => F64.hundred)
        infoDeployment asksForInfo = some d ∧
      d.bus.level = .info ∧ d.relay.console.cacheLevel = some .info := by
  obtain ⟨d, hrun, hends⟩ := Option.map_eq_some_iff.mp asksForInfo_ends
  have hbus := asksForInfo_bus
  rw [hrun, Option.map_some, Option.some.injEq] at hbus
  simp only [Prod.mk.injEq] at hends hbus
  obtain ⟨⟨hphase, hchannel, hbursts⟩, hflight, hpeers⟩ := hends
  obtain ⟨⟨hlevels, hchances⟩, ⟨hlevel, hchance⟩, hbus, htodo⟩ := hbus
  refine ⟨d, hrun, hbus, ?_⟩
  have hrefused : NothingRefused d.relay.network := by
    intro b hb
    have hmem : b.2 ∈ [SendAnswer.accepted] := hbursts ▸ List.mem_map_of_mem hb
    exact List.mem_singleton.mp hmem
  have hinFlight : ∀ l, d.relay.links.getLast? = some l → l.inFlight = [] := by
    intro l hl
    have hmem : l.inFlight ∈ [([] : List ResponseBody)] :=
      hflight ▸ List.mem_map_of_mem (List.mem_of_getLast? hl)
    exact List.mem_singleton.mp hmem
  obtain ⟨stream, hstream, hlevelRx⟩ := List.map_eq_singleton_iff.mp hlevels
  rw [hstream, List.map_singleton, List.singleton_inj] at hchances
  have hstream0 : d.bus.streams[0]? =
      some (SpanStream.mk (some { seen := 1, sent := some .info })
        (some { seen := 0, sent := some F64.hundred })) := by
    rw [hstream, ← hlevelRx, ← hchances]
    rfl
  have hsettled : Settled d { seen := 1, sent := some .info }
      { seen := 0, sent := some F64.hundred } :=
    ⟨hrefused, hphase, List.eq_nil_of_length_eq_zero hchannel, hinFlight,
      ⟨0, by rw [hpeers]; rfl, hstream0⟩, by simp, by rw [hlevel, hchance]; simp⟩
  have hshown := (settled_console_shows_applied oneSlot 0 (fun _ => 0) 7 1 4 .off F64.hundred
    (some .info) none asksForInfo d hrun _ _ hsettled).2 asksForInfo_ordered
    (fun c => by
      simp only [List.map_cons, List.map_nil, List.cons.injEq] at htodo
      cases c <;> simp [htodo, sendsLevel, sendsChance])
  rw [hshown.1, hbus]
  rfl

end TracingConsole.Analysis.Transit
