import TracingConsole.Analysis.Panel
import TracingConsole.Analysis.RelayOrder

/-!
# The network task along its runs

The task numbers its requests through all its connections and keeps its bursts small.  What it
tells the reducer about the connection is true as long as the channel takes it: when the reducer
has caught up, it shows a connection exactly while there is one.
-/

set_option autoImplicit false

namespace TracingConsole.Analysis.Transit

open TracingConsole.Library TracingConsole.Model TracingConsole.Analysis

/-! ## Requests and bursts -/

/-- INTERNAL: the requests are numbered from one on, and no burst is empty or larger than
`maxBatch`. -/
structure Orderly (n : NetworkTask) : Prop where
  next : n.nextId = (n.requested.length + 1) % 2 ^ 64
  ids : ∀ i id, n.requested[i]? = some id → id = (i + 1) % 2 ^ 64
  bursts : ∀ b ∈ n.bursts, 0 < b.1.length ∧ b.1.length ≤ maxBatch

/-- INTERNAL: the task starts orderly. -/
theorem orderly_start : Orderly NetworkTask.start where
  next := rfl
  ids := fun i id h => by simp [NetworkTask.start] at h
  bursts := fun b h => by simp [NetworkTask.start] at h

/-- INTERNAL: a change of the task that leaves the requests and the bursts alone. -/
theorem Orderly.of_same (n n' : NetworkTask) (h : Orderly n) (hnext : n'.nextId = n.nextId)
    (hrequested : n'.requested = n.requested) (hbursts : n'.bursts = n.bursts) : Orderly n' := by
  refine ⟨?_, ?_, ?_⟩
  · rw [hnext, hrequested]
    exact h.next
  · rw [hrequested]
    exact h.ids
  · rw [hbursts]
    exact h.bursts

/-- INTERNAL: a message that is sent keeps the order. -/
theorem Orderly.send (n : NetworkTask) (h : Orderly n) (answer : SendAnswer) (u : Update)
    (phase : NetworkPhase) : Orderly { n.send answer u with phase := phase } := by
  unfold NetworkTask.send
  split <;> exact h.of_same n _ rfl rfl rfl

/-- INTERNAL: so does leaving the stream. -/
theorem Orderly.leaveStream (n : NetworkTask) (h : Orderly n) (last : SendAnswer) (gone : Bool) :
    Orderly (n.leaveStream last gone) :=
  h.send n last _ _

/-- INTERNAL: SRCLINE: runtime.rs:124-125, 242 -/
theorem Orderly.request (n : NetworkTask) (h : Orderly n) : Orderly n.request := by
  have hlength : n.request.requested.length = n.requested.length + 1 := by
    simp [NetworkTask.request]
  refine ⟨?_, ?_, h.bursts⟩
  · rw [hlength]
    show (n.nextId + 1) % 2 ^ 64 = _
    rw [h.next, Nat.mod_add_mod]
  · intro i id hid
    show id = _
    by_cases hold : i < n.requested.length
    · rw [show n.request.requested = n.requested ++ [n.nextId] from rfl,
        List.getElem?_append_left hold] at hid
      exact h.ids i id hid
    · have hlt := (List.getElem?_eq_some_iff.mp hid).1
      have hi : i = n.requested.length := by omega
      rw [show n.request.requested = n.requested ++ [n.nextId] from rfl, hi,
        List.getElem?_concat_length] at hid
      rw [← Option.some.inj hid, h.next, hi]

/-- INTERNAL: a batch grows by one update at most, and only below the limit.
SRCLINE: runtime.rs:179-198 -/
theorem drainReady_length (items : List StreamItem) (batch : List Update)
    (h : batch.length ≤ maxBatch) : (drainReady batch items).1.batch.length ≤ maxBatch := by
  induction items generalizing batch with
  | nil => exact h
  | cons item items ih =>
    unfold drainReady
    split
    · next hroom =>
      cases item with
      | ended => exact h
      | failed e => exact h
      | response body =>
        refine ih _ ?_
        rw [List.length_append]
        cases respToUpdate body with
        | none => simpa using h
        | some u => simpa using hroom
    · exact h

/-- INTERNAL: a burst is cut at its bound. -/
theorem takeBurst_length (item : StreamItem) (items : List StreamItem) :
    (takeBurst item items).1.batch.length ≤ maxBatch := by
  cases item with
  | ended => exact Nat.zero_le _
  | failed e => exact Nat.zero_le _
  | response body =>
    refine drainReady_length items _ ?_
    cases respToUpdate body with
    | none => exact Nat.zero_le _
    | some u => exact Nat.succ_le_of_lt (by decide)

/-- INTERNAL: a burst is sent in order. -/
theorem Orderly.takeBatch (n : NetworkTask) (h : Orderly n) (burst : Burst)
    (hlength : burst.batch.length ≤ maxBatch) (many error last : SendAnswer) :
    Orderly (n.takeBatch burst many error last) := by
  have hsent : Orderly (if burst.batch.isEmpty then n else n.sendMany many burst.batch) := by
    split
    · exact h
    · next hsome =>
      have hnonempty : 0 < burst.batch.length :=
        List.length_pos_of_ne_nil fun hnil => hsome (List.isEmpty_iff.mpr hnil)
      have hlogged : ∀ b ∈ n.bursts ++ [(burst.batch, many)],
          0 < b.1.length ∧ b.1.length ≤ maxBatch := by
        intro b hb
        cases List.mem_append.mp hb with
        | inl hold => exact h.bursts b hold
        | inr hnew =>
          rw [List.mem_singleton.mp hnew]
          exact ⟨hnonempty, hlength⟩
      unfold NetworkTask.sendMany
      split <;> exact ⟨h.next, h.ids, hlogged⟩
  unfold NetworkTask.takeBatch
  dsimp only
  split
  · exact hsent.leaveStream _ _ _
  · split
    · exact (hsent.send _ error _ _).leaveStream _ last false
    · split
      · exact hsent.leaveStream _ _ _
      · exact hsent

/-- INTERNAL: **the step lemma**. -/
theorem Orderly.step (n n' : NetworkTask) (a : NetworkStep) (h : Orderly n)
    (hstep : n.step a = some n') : Orderly n' := by
  cases a with
  | burst item items many error last =>
    simp only [NetworkTask.step] at hstep
    split at hstep
    · cases hstep
      exact h.takeBatch n _ (takeBurst_length item items) many error last
    · cases hstep
  | outgoing req =>
    simp only [NetworkTask.step] at hstep
    split at hstep
    · cases hstep
      exact h.request n
    · cases hstep
  | started =>
    simp only [NetworkTask.step] at hstep
    split at hstep
    · cases hstep
      exact (h.request n).of_same _ _ rfl rfl rfl
    · cases hstep
  | startFailed e answer =>
    simp only [NetworkTask.step] at hstep
    split at hstep
    · cases hstep
      exact (h.request n).send _ answer _ _
    · cases hstep
  | outgoingClosed last =>
    simp only [NetworkTask.step] at hstep
    split at hstep
    · cases hstep
      exact h.leaveStream n last true
    · cases hstep
  | wake =>
    simp only [NetworkTask.step] at hstep
    split at hstep
    · cases hstep
      exact h.of_same n _ rfl rfl rfl
    · cases hstep
  | dial | connectFailed | connected =>
    simp only [NetworkTask.step] at hstep
    split at hstep
    · cases hstep
      exact h.send n _ _ _
    · cases hstep

/-- CODE: runtime.rs:85-263 — **requests never share an id, and bursts stay small**: over any
number of connections the `i`-th request has the id `i + 1`, up to the width of the counter, and
every burst offered to the channel has between one and `maxBatch` updates. -/
theorem network_orderly (steps : List NetworkStep) (n : NetworkTask)
    (hrun : run NetworkTask.step NetworkTask.start steps = some n) :
    (∀ i id, n.requested[i]? = some id → id = (i + 1) % 2 ^ 64) ∧
      (n.requested.length ≤ 2 ^ 64 → n.requested.Nodup) ∧
      ∀ b ∈ n.bursts, 0 < b.1.length ∧ b.1.length ≤ 256 := by
  have h := run_invariant NetworkTask.step Orderly (fun n a n' h hstep => h.step n n' a hstep)
    NetworkTask.start steps n orderly_start hrun
  refine ⟨h.ids, fun hfits => ?_, h.bursts⟩
  rw [List.nodup_iff_getElem?_ne_getElem?]
  intro i j hij hj heq
  have hi : i < n.requested.length := by omega
  have hfirst := h.ids i _ (List.getElem?_eq_getElem hi)
  have hsecond := h.ids j _ ((heq.symm.trans (List.getElem?_eq_getElem hi)))
  rw [hfirst] at hsecond
  omega

/-- INTERNAL: the channel is full when the first stream ends, and the task dials again. -/
def twoConnections : List NetworkStep :=
  [.dial "host" .accepted, .connected .full, .started, .outgoing (.setCacheChance 50),
    .burst (.response .ack) [.response (.cacheLevel .off), .ended] .full .full .full, .wake,
    .dial "host" .accepted, .connected .accepted, .started]

/-- CODE: runtime.rs:85-263 — the requests of two connections. -/
theorem network_orderly_two_connections :
    ∃ n, run NetworkTask.step NetworkTask.start twoConnections = some n ∧
      n.requested = [1, 2, 3] ∧ n.requested.Nodup :=
  ⟨_, rfl, rfl, (network_orderly twoConnections _ rfl).2.1 (by decide)⟩

/-! ## The connection shown -/

/-- INTERNAL: what an update makes of the connection shown. -/
def connectionAfter (connection : ConnectionStatus) : Update → ConnectionStatus
  | .connected => .connected
  | .disconnected reason => .disconnected reason
  | _ => connection

/-- INTERNAL: SRCLINE: core.rs:472-481 -/
theorem connection_after (now : ℕ) (p : Console.Panel) (u : Update) :
    (p.after now u).connection = connectionAfter p.connection u := by
  cases u <;> rfl

/-- INTERNAL: what an update does to the shown connection. -/
theorem apply_connection (now : ℕ) (m m' : ConsoleModel) (u : Update) (e : Effect)
    (h : m.apply now u = some (m', e)) : m'.connection = connectionAfter m.connection u := by
  have hpanel := (Console.apply_panel now m m' u e h).1
  have hconnection := congrArg Console.Panel.connection hpanel
  rw [connection_after] at hconnection
  exact hconnection

/-- INTERNAL: the texts a lost connection is shown with. -/
def LostReason (reason : String) : Prop :=
  reason = "stream ended" ∨ (∃ e, reason = "connect failed: " ++ e) ∨
    ∃ e, reason = "StartStream failed: " ++ e

/-- INTERNAL: what is to be shown where the task is. -/
def Fits : NetworkPhase → ConnectionStatus → Prop
  | .starting, c | .streaming, c => c = .connected
  | .dialing, c | .connecting, c =>
    c = .connecting ∨ ∃ reason, c = .disconnected reason ∧ LostReason reason
  | .sleeping, c | .stopped, c => ∃ reason, c = .disconnected reason ∧ LostReason reason

/-- INTERNAL: what will be shown when the channel is empty. -/
def upcoming (connection : ConnectionStatus) (n : NetworkTask) : ConnectionStatus :=
  n.channel.foldl connectionAfter connection

/-- INTERNAL: unless a message was refused, what will be shown is where the task is. -/
def Truthful (connection : ConnectionStatus) (n : NetworkTask) : Prop :=
  n.refused = [] → Fits n.phase (upcoming connection n)

/-- INTERNAL: a message that is not refused changes what is coming. -/
theorem upcoming_send (connection : ConnectionStatus) (n : NetworkTask) (answer : SendAnswer)
    (u : Update) (h : (n.send answer u).refused = []) :
    n.refused = [] ∧
      upcoming connection (n.send answer u) = connectionAfter (upcoming connection n) u := by
  unfold NetworkTask.send at h ⊢
  split at h
  · next haccepted =>
    rw [if_pos haccepted]
    refine ⟨h, ?_⟩
    unfold upcoming
    rw [List.foldl_append]
    rfl
  · simp at h

/-- INTERNAL: what comes from the host says nothing about the connection.
SRCLINE: runtime.rs:142-150 -/
theorem connectionAfter_response (connection : ConnectionStatus) (body : ResponseBody) :
    ((respToUpdate body).toList).foldl connectionAfter connection = connection := by
  cases body <;> rfl

/-- INTERNAL: what is drained from the stream says nothing of the connection. -/
theorem connectionAfter_drain (connection : ConnectionStatus) (items : List StreamItem)
    (batch : List Update) (h : batch.foldl connectionAfter connection = connection) :
    (drainReady batch items).1.batch.foldl connectionAfter connection = connection := by
  induction items generalizing batch with
  | nil => exact h
  | cons item items ih =>
    unfold drainReady
    split
    · cases item with
      | ended => exact h
      | failed e => exact h
      | response body =>
        refine ih _ ?_
        rw [List.foldl_append, h, connectionAfter_response]
    · exact h

/-- INTERNAL: nor does the burst. -/
theorem connectionAfter_burst (connection : ConnectionStatus) (item : StreamItem)
    (items : List StreamItem) :
    (takeBurst item items).1.batch.foldl connectionAfter connection = connection := by
  cases item with
  | ended => rfl
  | failed e => rfl
  | response body =>
    exact connectionAfter_drain connection items _ (connectionAfter_response connection body)

/-- INTERNAL: leaving the stream tells of it. -/
theorem Truthful.leaveStream (connection : ConnectionStatus) (n : NetworkTask) (last : SendAnswer)
    (gone : Bool) : Truthful connection (n.leaveStream last gone) := by
  intro hnone
  obtain ⟨-, hupcoming⟩ := upcoming_send connection n last (.disconnected "stream ended") hnone
  have hends : ∃ reason, upcoming connection (n.leaveStream last gone) = .disconnected reason ∧
      LostReason reason := ⟨"stream ended", hupcoming, Or.inl rfl⟩
  unfold NetworkTask.leaveStream at hends ⊢
  cases gone <;> exact hends

/-- INTERNAL: a burst says nothing of the connection, unless it ends the stream.
SRCLINE: runtime.rs:164-215 -/
theorem Truthful.takeBatch (connection : ConnectionStatus) (n : NetworkTask)
    (h : Truthful connection n) (item : StreamItem) (items : List StreamItem)
    (many error last : SendAnswer) :
    Truthful connection (n.takeBatch (takeBurst item items).1 many error last) := by
  unfold NetworkTask.takeBatch
  dsimp only
  split
  · exact Truthful.leaveStream connection _ last true
  · split
    · exact Truthful.leaveStream connection _ last false
    · split
      · exact Truthful.leaveStream connection _ last false
      · -- the stream goes on, and the batch says nothing about the connection
        split
        · exact h
        · intro hnone
          have hkeeps : (n.sendMany many (takeBurst item items).1.batch).refused = n.refused ∧
              (n.sendMany many (takeBurst item items).1.batch).phase = n.phase ∧
              upcoming connection (n.sendMany many (takeBurst item items).1.batch) =
                upcoming connection n := by
            unfold NetworkTask.sendMany
            split
            · refine ⟨rfl, rfl, ?_⟩
              unfold upcoming
              rw [List.foldl_append, connectionAfter_burst]
            · exact ⟨rfl, rfl, rfl⟩
          rw [hkeeps.2.1, hkeeps.2.2]
          exact h (hkeeps.1 ▸ hnone)

/-- INTERNAL: **the step lemma**, for the task. -/
theorem Truthful.step (connection : ConnectionStatus) (n n' : NetworkTask) (a : NetworkStep)
    (h : Truthful connection n) (hstep : n.step a = some n') : Truthful connection n' := by
  cases a with
  | dial addr answer =>
    simp only [NetworkTask.step] at hstep
    split at hstep
    · next hphase =>
      cases hstep
      intro hnone
      obtain ⟨hbefore, hupcoming⟩ := upcoming_send connection n answer _ hnone
      have hfits := h hbefore
      rw [hphase] at hfits
      show Fits .connecting (upcoming connection (n.send answer _))
      rw [hupcoming]
      exact hfits
    · cases hstep
  | connectFailed e answer =>
    simp only [NetworkTask.step] at hstep
    split at hstep
    · cases hstep
      intro hnone
      obtain ⟨-, hupcoming⟩ := upcoming_send connection n answer _ hnone
      exact ⟨_, hupcoming, Or.inr (Or.inl ⟨e, rfl⟩)⟩
    · cases hstep
  | connected answer =>
    simp only [NetworkTask.step] at hstep
    split at hstep
    · cases hstep
      intro hnone
      exact (upcoming_send connection n answer _ hnone).2
    · cases hstep
  | startFailed e answer =>
    simp only [NetworkTask.step] at hstep
    split at hstep
    · cases hstep
      intro hnone
      obtain ⟨-, hupcoming⟩ := upcoming_send connection n.request answer _ hnone
      exact ⟨_, hupcoming, Or.inr (Or.inr ⟨e, rfl⟩)⟩
    · cases hstep
  | started =>
    simp only [NetworkTask.step] at hstep
    split at hstep
    · next hphase =>
      cases hstep
      intro hnone
      have hfits := h hnone
      rw [hphase] at hfits
      exact hfits
    · cases hstep
  | burst item items many error last =>
    simp only [NetworkTask.step] at hstep
    split at hstep
    · cases hstep
      exact h.takeBatch connection n item items many error last
    · cases hstep
  | outgoing req =>
    simp only [NetworkTask.step] at hstep
    split at hstep
    · cases hstep
      exact h
    · cases hstep
  | outgoingClosed last =>
    simp only [NetworkTask.step] at hstep
    split at hstep
    · cases hstep
      exact Truthful.leaveStream connection n last true
    · cases hstep
  | wake =>
    simp only [NetworkTask.step] at hstep
    split at hstep
    · next hphase =>
      cases hstep
      intro hnone
      have hfits := h hnone
      rw [hphase] at hfits
      exact Or.inr hfits
    · cases hstep

section Shown

variable {T : Type} [DecidableEq T] (unfilledInstant : ℕ) (base : TimeBase)

/-- INTERNAL: **the step lemma**, for the whole. -/
theorem truthful_step (s s' : Relay T) (a : RelayStep T)
    (h : Truthful s.console.connection s.network)
    (hstep : s.step unfilledInstant base a = some s') :
    Truthful s'.console.connection s'.network := by
  cases relay_moved s s' unfilledInstant base a hstep with
  | aside haside =>
    rw [haside.console, haside.network]
    exact h
  | network b hnetwork hconsole hgiven =>
    rw [hconsole]
    exact h.step _ _ _ b hnetwork
  | took now u channel r hchannel happly hs' =>
    subst hs'
    have hconnection := apply_connection now s.console r.1 u r.2 happly
    intro hnone
    have hfits := h hnone
    unfold upcoming at hfits ⊢
    rw [hchannel] at hfits
    dsimp only
    rw [hconnection]
    exact hfits
  | told now u r hu happly hs' =>
    subst hs'
    have hconnection := apply_connection now s.console r.1 u r.2 happly
    have hother : connectionAfter s.console.connection u = s.console.connection := by
      cases u <;> first | rfl | exact absurd rfl hu
    show Truthful r.1.connection s.network
    rw [hconnection, hother]
    exact h

/-- CODE: runtime.rs:85-263, core.rs:472-481 — **the connection shown is the connection there
is**: in every run in which the channel took all single messages, once the reducer has caught up
it shows a connection exactly while the network task has one, and a lost one never with the
error of its stream, which "stream ended" follows at once. -/
theorem connection_shown (cache : SpanCache) (key : ℕ) (keys : T → ℕ)
    (cacheAddr capacity historyBudget : ℕ) (steps : List (RelayStep T)) (s : Relay T)
    (hrun : run (Relay.step unfilledInstant base)
      (Relay.start cache key keys cacheAddr capacity historyBudget) steps = some s)
    (htold : s.network.refused = []) (hcaught : s.network.channel = []) :
    (s.console.connection = .connected ↔
      s.network.phase = .starting ∨ s.network.phase = .streaming) ∧
    ∀ reason, s.console.connection = .disconnected reason → LostReason reason := by
  have hstart : Truthful ConnectionStatus.connecting NetworkTask.start := fun _ => Or.inl rfl
  have h := run_invariant (Relay.step unfilledInstant base)
    (fun s => Truthful s.console.connection s.network)
    (fun s a s' h hstep => truthful_step unfilledInstant base s s' a h hstep) _ steps s hstart
    hrun htold
  unfold upcoming at h
  rw [hcaught, List.foldl_nil] at h
  have hlost (hfits : ∃ reason, s.console.connection = .disconnected reason ∧ LostReason reason) :
      ¬ s.console.connection = .connected ∧
        ∀ reason, s.console.connection = .disconnected reason → LostReason reason := by
    obtain ⟨reason, hshown, hreason⟩ := hfits
    rw [hshown]
    refine ⟨ConnectionStatus.noConfusion, fun other hother => ?_⟩
    cases hother
    exact hreason
  cases hphase : s.network.phase with
  | starting | streaming =>
    rw [hphase] at h
    have hshown : s.console.connection = .connected := h
    simp [hshown]
  | sleeping | stopped =>
    rw [hphase] at h
    simpa using hlost h
  | dialing | connecting =>
    rw [hphase] at h
    cases h with
    | inl hconnecting => simp [hconnecting]
    | inr hfits => simpa using hlost hfits

end Shown

/-- INTERNAL: the console dials and starts its stream, which ends. -/
def hangsUp : List (RelayStep Bool) :=
  [.network (.dial "host" .accepted), .network (.connected .accepted), .network .started, .take 0,
    .take 0, .burst 0 (some .ended) .accepted .accepted .accepted, .take 0]

/-- CODE: runtime.rs:85-263, core.rs:472-481 — the connection is lost, and is shown so. -/
theorem connection_shown_hangs_up :
    ∃ s, run (Relay.step 0 { instantAtStart := 0, systimeAtStart := 0 })
        (Relay.start oneSlot 0 (fun _ => 0) 7 1 4) hangsUp = some s ∧
      s.network.phase = .sleeping ∧ s.console.connection = .disconnected "stream ended" ∧
      s.console.connection ≠ .connected ∧ LostReason "stream ended" := by
  have hends : ((run (Relay.step 0 { instantAtStart := 0, systimeAtStart := 0 })
      (Relay.start oneSlot 0 (fun _ => 0) 7 1 4) hangsUp).map fun s =>
        (s.network.phase, s.console.connection, s.network.refused.isEmpty,
          s.network.channel.isEmpty)) =
      some (.sleeping, .disconnected "stream ended", true, true) := by
    decide +kernel
  obtain ⟨s, hrun, hread⟩ := Option.map_eq_some_iff.mp hends
  simp only [Prod.mk.injEq, List.isEmpty_iff] at hread
  obtain ⟨hphase, hshown, htold, hcaught⟩ := hread
  obtain ⟨hconnected, hlost⟩ := connection_shown 0 { instantAtStart := 0, systimeAtStart := 0 }
    oneSlot 0 (fun _ => 0) 7 1 4 hangsUp s hrun htold hcaught
  refine ⟨s, hrun, hphase, hshown, fun hup => ?_, hlost _ hshown⟩
  rw [hphase] at hconnected
  cases hconnected.mp hup with
  | inl hstarting => cases hstarting
  | inr hstreaming => cases hstreaming

end TracingConsole.Analysis.Transit
