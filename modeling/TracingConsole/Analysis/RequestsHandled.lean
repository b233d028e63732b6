import TracingConsole.Analysis.LevelsSettled

/-!
# What becomes of a request

A request of the console waits in the queue of the runtime, then on its connection, and is then
handled, once at most and in the order the console asked.  A channel of the broadcast is sent
nothing but what some client asked for and what the last stream to end resets; so a console shows
no level that nobody asked for.
-/

set_option autoImplicit false

namespace TracingConsole.Analysis.Transit

open TracingConsole.Library TracingConsole.Model TracingConsole.Analysis.LevelBus

/-! ## What is sent was asked for -/

section Sourced

variable {α C : Type} [DecidableEq C] (send : α → Action) (watch : Bus C → Watch α)

/-- INTERNAL: what the channel has held, and what is about to be sent to it, meets `ok`. -/
structure Sourced (log : List α) (ok : α → Prop) (b : Bus C) : Prop where
  todo : ∀ c x, send x ∈ (b.connection c).todo → ok x
  log : ∀ x ∈ log, ok x

/-- INTERNAL: what a connection has to do was to do before, resets the broadcast, or is what it was
asked.
SRCLINE: server.rs:137-146, 186-235 -/
theorem todo_step (b b' : Bus C) (a : BusStep C) (h : b.step a = some b') (c : C) (x : Action)
    (hx : x ∈ (b'.connection c).todo) :
    x ∈ (b.connection c).todo ∨ x ∈ idleReset ∨ x = .exitStream ∨
      ∃ body, a = .request c body ∧ x ∈ (b.connection c).newRpc body := by
  cases step_stepped b b' a h with
  | requested d body hlive hidle hafter =>
    rw [hafter] at hx
    by_cases hd : c = d
    · subst hd
      have hx : x ∈ (b.connection c).newRpc body := by
        simpa [Bus.assign] using hx
      exact Or.inr (Or.inr (Or.inr ⟨body, rfl, hx⟩))
    · exact Or.inl (by simpa [Bus.assign, hd] using hx)
  | disconnected d hlive hidle hafter =>
    rw [hafter] at hx
    by_cases hd : c = d
    · subst hd
      have hx : x ∈ if (b.connection c).streamGuard then [Action.exitStream] else [] := by
        simpa [Bus.assign] using hx
      split at hx
      · exact Or.inr (Or.inr (Or.inl (List.mem_singleton.mp hx)))
      · cases hx
    · exact Or.inl (by simpa [Bus.assign, hd] using hx)
  | acted d rest act htodo hafter =>
    rw [hafter, act_todo] at hx
    split at hx
    · next hd =>
      subst hd
      have hold : x ∈ rest → x ∈ (b.connection c).todo := fun hmem => by
        rw [htodo]
        exact List.mem_cons_of_mem _ hmem
      cases act with
      | exitStream =>
        have hx : x ∈ if b.activeStreams = 1 then idleReset else rest := hx
        split at hx
        · exact Or.inr (Or.inl hx)
        · exact Or.inl (hold hx)
      | _ => exact Or.inl (hold hx)
    · exact Or.inl hx
  | streamed _ hsent hafter =>
    rw [hafter.connection] at hx
    exact Or.inl hx

/-- INTERNAL: **a step of the broadcast**. -/
theorem Sourced.step (log : List α) (ok ok' : α → Prop) (b b' : Bus C)
    (h : Sourced send log ok b) (a : BusStep C) (hstep : b.step a = some b')
    (hmore : ∀ x, ok x → ok' x) (hexit : ∀ x, send x ≠ .exitStream)
    (hreset : ∀ x, send x ∈ idleReset → ok' x)
    (hasked : ∀ c body x, a = .request c body → send x ∈ (b.connection c).newRpc body → ok' x)
    (hsent : (watch b').version ≠ (watch b).version →
      ∃ c, send (watch b').value ∈ (b.connection c).todo) :
    Sourced send (logged log (watch b) (watch b')) ok' b' := by
  constructor
  · intro c x hx
    obtain hold | hreset' | hexit' | ⟨body, ha, hbody⟩ := todo_step b b' a hstep c _ hx
    · exact hmore x (h.todo c x hold)
    · exact hreset x hreset'
    · exact absurd hexit' (hexit x)
    · exact hasked c body x ha hbody
  · intro x hx
    unfold logged at hx
    split at hx
    · exact hmore x (h.log x hx)
    · next hversion =>
      cases List.mem_append.mp hx with
      | inl hold => exact hmore x (h.log x hold)
      | inr hnew =>
        obtain ⟨c, hc⟩ := hsent hversion
        rw [List.mem_singleton.mp hnew]
        exact hmore _ (h.todo c _ hc)

/-- INTERNAL: a channel moves on with a send of what it holds then.
SRCLINE: server.rs:83-99 -/
theorem sent_from_todo (b b' : Bus C) (a : BusStep C) (h : b.step a = some b') :
    (b'.levelTx.version ≠ b.levelTx.version →
        ∃ c, Action.sendLevel b'.levelTx.value ∈ (b.connection c).todo) ∧
      (b'.chanceTx.version ≠ b.chanceTx.version →
        ∃ c, Action.sendChance b'.chanceTx.value ∈ (b.connection c).todo) := by
  cases step_stepped b b' a h with
  | requested c body hlive hidle hafter =>
    subst hafter
    exact ⟨fun hne => absurd rfl hne, fun hne => absurd rfl hne⟩
  | disconnected c hlive hidle hafter =>
    subst hafter
    exact ⟨fun hne => absurd rfl hne, fun hne => absurd rfl hne⟩
  | streamed _ hsent hafter =>
    exact ⟨fun hne => absurd hafter.level.version hne, fun hne => absurd hafter.chance.version hne⟩
  | acted c rest act htodo hafter =>
    subst hafter
    cases act with
    | sendLevel filter =>
      refine ⟨fun hne => ⟨c, ?_⟩, fun hne => absurd rfl hne⟩
      have hsent : (b.act c rest (.sendLevel filter)).levelTx = b.levelTx.send filter := rfl
      rw [hsent] at hne ⊢
      unfold Watch.send at hne ⊢
      split at hne
      · exact absurd rfl hne
      · next hsome =>
        rw [if_neg hsome, htodo]
        exact List.mem_cons_self
    | sendChance pct =>
      refine ⟨fun hne => absurd rfl hne, fun hne => ⟨c, ?_⟩⟩
      have hsent : (b.act c rest (.sendChance pct)).chanceTx = b.chanceTx.send pct := rfl
      rw [hsent] at hne ⊢
      unfold Watch.send at hne ⊢
      split at hne
      · exact absurd rfl hne
      · next hsome =>
        rw [if_neg hsome, htodo]
        exact List.mem_cons_self
    | enterStream | subscribeLevel | subscribeChance | storeLevel | storeChance | exitStream =>
      exact ⟨fun hne => absurd rfl hne, fun hne => absurd rfl hne⟩

end Sourced

/-! ## The requests of the console -/

section Requests

variable {T C : Type} [DecidableEq T] [DecidableEq C] (unfilledInstant : ℕ) (base : TimeBase)
  (toF64 : ℚ → F64) (d d' : Deployment T C)

/-- INTERNAL: a request that sets something. -/
def sets : RequestBody → Bool
  | .startStream => false
  | .setCacheLevel _ | .setCacheChance _ => true

/-- INTERNAL: what was handled on a connection, and what is on its way there. -/
def peerRequests (p : Peer C) : List RequestBody := p.handled ++ p.upstream

/-- INTERNAL: the settings that left the queue, connection by connection. -/
def settings (peers : List (Peer C)) : List RequestBody := (peers.flatMap peerRequests).filter sets

/-- INTERNAL: the settings that left the queue, and those in it, are settings that were asked for, in
the order they were asked for. -/
def KeepsOrder (d : Deployment T C) : Prop :=
  (settings d.peers ++ d.outgoing.map (Outgoing.request toF64)).Sublist
    (d.asked.map (Outgoing.request toF64))

omit [DecidableEq C] in
/-- INTERNAL: the requests of the peers are all the settings need. -/
theorem settings_same (peers peers' : List (Peer C))
    (h : peers'.map peerRequests = peers.map peerRequests) : settings peers' = settings peers := by
  unfold settings
  rw [List.flatMap_def, List.flatMap_def, h]

omit [DecidableEq C] in
/-- INTERNAL: a request goes behind all that was sent.
SRCLINE: runtime.rs:228-250 -/
theorem settings_send (peers : List (Peer C)) (body : RequestBody) :
    (settings (Deployment.send peers body)).Sublist (settings peers ++ [body]) := by
  unfold Deployment.send
  split
  · exact List.sublist_append_left _ _
  · next p hp =>
    obtain ⟨front, hfront⟩ := List.getLast?_eq_some_iff.mp hp
    subst hfront
    rw [List.dropLast_concat]
    unfold settings
    simp only [List.flatMap_append, List.flatMap_cons, List.flatMap_nil, List.append_nil,
      peerRequests, List.filter_append, List.append_assoc]
    refine List.Sublist.append_left (List.Sublist.append_left (List.Sublist.append_left ?_ _) _) _
    exact List.filter_sublist

/-- INTERNAL: **the step lemma**. -/
theorem keepsOrder_step (a : DeploymentStep T C) (h : KeepsOrder toF64 d)
    (hstep : d.step unfilledInstant base toF64 a = some d') : KeepsOrder toF64 d' := by
  have hqueued (accepted : List Outgoing) :
      (settings d.peers ++ (d.outgoing ++ accepted).map (Outgoing.request toF64)).Sublist
        ((d.asked ++ accepted).map (Outgoing.request toF64)) := by
    rw [List.map_append, List.map_append, ← List.append_assoc]
    exact List.Sublist.append_right h _
  cases a with
  | relay a =>
    simp only [Deployment.step] at hstep
    split at hstep
    · obtain ⟨relay, -, hd'⟩ := Option.map_eq_some_iff.mp hstep
      subst hd'
      exact h
    · cases hstep
  | started c =>
    simp only [Deployment.step] at hstep
    split at hstep
    · obtain ⟨relay, -, hd'⟩ := Option.map_eq_some_iff.mp hstep
      subst hd'
      have hsame : settings (d.peers ++ [Peer.open c]) = settings d.peers := by
        unfold settings
        simp [peerRequests, Peer.open, sets]
      show (settings (d.peers ++ [Peer.open c]) ++ _).Sublist _
      rw [hsame]
      exact h
    · cases hstep
  | deliver n =>
    simp only [Deployment.step] at hstep
    split at hstep
    · cases hstep
    · next p hp =>
      split at hstep
      · cases hstep
      · next body upstream hbody =>
        obtain ⟨bus, -, hd'⟩ := Option.map_eq_some_iff.mp hstep
        subst hd'
        have hsame := settings_same d.peers _ (map_replaced peerRequests d.peers n p
          { p with handled := p.handled ++ [body], upstream := upstream } hp
          (by simp [peerRequests, hbody]))
        show (settings (d.peers.set n _) ++ _).Sublist _
        rw [hsame]
        exact h
  | bus a =>
    simp only [Deployment.step] at hstep
    split at hstep
    · cases hstep
    · obtain ⟨bus, hbus, hstep⟩ := Option.bind_eq_some_iff.mp hstep
      obtain ⟨relay, -, hd'⟩ := Option.map_eq_some_iff.mp hstep
      subst hd'
      have hsame : settings (d.peers.map (Peer.joined d.bus a)) = settings d.peers := by
        refine settings_same d.peers _ ?_
        rw [List.map_map]
        refine List.map_congr_left fun p _ => ?_
        show peerRequests (p.joined d.bus a) = peerRequests p
        unfold Peer.joined
        split
        · split <;> rfl
        · rfl
      show (settings (d.peers.map _) ++ _).Sublist _
      rw [hsame]
      exact h
  | outgoing sent =>
    simp only [Deployment.step] at hstep
    split at hstep
    · cases hstep
    · next req outgoing houtgoing =>
      obtain ⟨relay, -, hd'⟩ := Option.map_eq_some_iff.mp hstep
      subst hd'
      have hall : (settings d.peers ++ [req.request toF64] ++
          outgoing.map (Outgoing.request toF64)).Sublist
            (d.asked.map (Outgoing.request toF64)) := by
        unfold KeepsOrder at h
        rw [houtgoing, List.map_cons] at h
        simpa using h
      cases sent with
      | true => exact ((settings_send d.peers _).append_right _).trans hall
      | false => exact ((List.sublist_append_left _ _).append_right _).trans hall
  | take now queued =>
    simp only [Deployment.step] at hstep
    split at hstep
    · cases hstep
    · obtain ⟨relay, -, hd'⟩ := Option.map_eq_some_iff.mp hstep
      subst hd'
      exact hqueued _
  | other now u queued =>
    obtain ⟨relay, -, hd'⟩ := Option.map_eq_some_iff.mp hstep
    subst hd'
    exact hqueued _

/-! ## Where a value comes from -/

/-- INTERNAL: a request that the host has handled. -/
def Handled (d : Deployment T C) (body : RequestBody) : Prop :=
  body ∈ d.others ∨ ∃ p ∈ d.peers, body ∈ p.handled

/-- INTERNAL: a level that the host began with, the reset, or what somebody asked for.
SRCLINE: server.rs:69-86, 137-146 -/
def LevelFrom (level : LevelFilter) (d : Deployment T C) (filter : WireLevelFilter) : Prop :=
  filter = WireLevelFilter.fromTracing level ∨ filter = .off ∨ Handled d (.setCacheLevel filter)

/-- INTERNAL: SRCLINE: server.rs:69-81, 88-99, 137-146 -/
def ChanceFrom (chance : F64) (d : Deployment T C) (pct : F64) : Prop :=
  pct = clampPct chance ∨ pct = F64.hundred ∨
    ∃ asked, pct = clampPct asked ∧ Handled d (.setCacheChance asked)

/-- INTERNAL: both channels hold what the host was asked for. -/
structure FromRequests (level : LevelFilter) (chance : F64) (d : Deployment T C) : Prop where
  levels : Sourced Action.sendLevel d.levelLog (LevelFrom level d) d.bus
  chances : Sourced Action.sendChance d.chanceLog (ChanceFrom chance d) d.bus

variable (level : LevelFilter) (chance : F64)

omit [DecidableEq T] in
/-- INTERNAL: a step of the broadcast, when what is asked with it counts as handled after it. -/
theorem FromRequests.bus (h : FromRequests level chance d) (a : BusStep C)
    (hstep : d.bus.step a = some d'.bus)
    (hlogs : d'.levelLog = logged d.levelLog d.bus.levelTx d'.bus.levelTx ∧
      d'.chanceLog = logged d.chanceLog d.bus.chanceTx d'.bus.chanceTx)
    (hmore : ∀ body, Handled d body → Handled d' body)
    (hasked : ∀ c body, a = .request c body → Handled d' body) :
    FromRequests level chance d' := by
  have hlevelMore : ∀ filter, LevelFrom level d filter → LevelFrom level d' filter :=
    fun filter => Or.imp_right (Or.imp_right (hmore _))
  have hchanceMore : ∀ pct, ChanceFrom chance d pct → ChanceFrom chance d' pct := by
    intro pct hpct
    refine Or.imp_right (Or.imp_right ?_) hpct
    exact fun hasked => hasked.imp fun asked hvalue => ⟨hvalue.1, hmore _ hvalue.2⟩
  have hsent := sent_from_todo d.bus d'.bus a hstep
  constructor
  · rw [hlogs.1]
    refine h.levels.step _ _ _ _ _ d.bus d'.bus a hstep hlevelMore (fun _ => by simp) ?_ ?_ hsent.1
    · intro filter hreset
      have hoff : filter = .off := by simpa [idleReset] using hreset
      exact Or.inr (Or.inl hoff)
    · intro c body filter ha hbody
      cases body with
      | startStream =>
        simp only [Connection.newRpc] at hbody
        split at hbody <;> simp at hbody
      | setCacheLevel asked =>
        have heq : filter = asked := by simpa [Connection.newRpc, setLevel] using hbody
        exact Or.inr (Or.inr (heq ▸ hasked c _ ha))
      | setCacheChance pct => simp [Connection.newRpc, setChance] at hbody
  · rw [hlogs.2]
    refine h.chances.step _ _ _ _ _ d.bus d'.bus a hstep hchanceMore (fun _ => by simp) ?_ ?_
      hsent.2
    · intro pct hreset
      have hhundred : pct = F64.hundred := by simpa [idleReset] using hreset
      exact Or.inr (Or.inl hhundred)
    · intro c body pct ha hbody
      cases body with
      | startStream =>
        simp only [Connection.newRpc] at hbody
        split at hbody <;> simp at hbody
      | setCacheLevel asked => simp [Connection.newRpc, setLevel] at hbody
      | setCacheChance asked =>
        have heq : pct = clampPct asked := by
          simpa [Connection.newRpc, setChance, clampPct] using hbody
        exact Or.inr (Or.inr ⟨asked, heq, hasked c _ ha⟩)

omit [DecidableEq T] [DecidableEq C] in
/-- INTERNAL: a step that leaves the broadcast and what was handled as they are. -/
theorem FromRequests.same (h : FromRequests level chance d) (hbus : d'.bus = d.bus)
    (hlogs : d'.levelLog = d.levelLog ∧ d'.chanceLog = d.chanceLog)
    (hhandled : ∀ body, Handled d body → Handled d' body) : FromRequests level chance d' := by
  refine ⟨⟨fun c x hx => ?_, fun x hx => ?_⟩, ⟨fun c x hx => ?_, fun x hx => ?_⟩⟩
  · rw [hbus] at hx
    exact Or.imp_right (Or.imp_right (hhandled _)) (h.levels.todo c x hx)
  · rw [hlogs.1] at hx
    exact Or.imp_right (Or.imp_right (hhandled _)) (h.levels.log x hx)
  · rw [hbus] at hx
    exact Or.imp_right (Or.imp_right fun hasked => hasked.imp fun asked hvalue =>
      ⟨hvalue.1, hhandled _ hvalue.2⟩) (h.chances.todo c x hx)
  · rw [hlogs.2] at hx
    exact Or.imp_right (Or.imp_right fun hasked => hasked.imp fun asked hvalue =>
      ⟨hvalue.1, hhandled _ hvalue.2⟩) (h.chances.log x hx)

/-- INTERNAL: a request arrives and is handled.
SRCLINE: server.rs:201-216 -/
theorem FromRequests.delivered (n : ℕ) (h : FromRequests level chance d)
    (hstep : d.step unfilledInstant base toF64 (.deliver n) = some d') :
    FromRequests level chance d' := by
  simp only [Deployment.step] at hstep
  split at hstep
  · cases hstep
  · next p hp =>
    split at hstep
    · cases hstep
    · next body upstream hbody =>
      obtain ⟨bus, hbus, hd'⟩ := Option.map_eq_some_iff.mp hstep
      subst hd'
      have hlt := (List.getElem?_eq_some_iff.mp hp).1
      have hnew : { p with handled := p.handled ++ [body], upstream := upstream } ∈
          d.peers.set n { p with handled := p.handled ++ [body], upstream := upstream } :=
        List.mem_set hlt _
      refine h.bus d _ level chance _ hbus ⟨rfl, rfl⟩ ?_ ?_
      · intro other hother
        refine Or.imp_right (fun hpeer => ?_) hother
        obtain ⟨q, hq, hmem⟩ := hpeer
        obtain ⟨i, hi⟩ := List.mem_iff_getElem?.mp hq
        by_cases hn : n = i
        · subst hn
          have hpq : p = q := Option.some.inj (hp.symm.trans hi)
          exact ⟨_, hnew, List.mem_append_left _ (hpq ▸ hmem)⟩
        · refine ⟨q, List.mem_iff_getElem?.mpr ⟨i, ?_⟩, hmem⟩
          show (d.peers.set n _)[i]? = some q
          rw [List.getElem?_set_ne hn]
          exact hi
      · intro c asked ha
        cases ha
        exact Or.inr ⟨_, hnew, List.mem_append_right _ List.mem_cons_self⟩

/-- INTERNAL: **the step lemma**. -/
theorem FromRequests.step (a : DeploymentStep T C) (h : FromRequests level chance d)
    (hstep : d.step unfilledInstant base toF64 a = some d') : FromRequests level chance d' := by
  have hsame := h.same d d' level chance
  cases a with
  | relay a =>
    simp only [Deployment.step] at hstep
    split at hstep
    · obtain ⟨relay, -, hd'⟩ := Option.map_eq_some_iff.mp hstep
      subst hd'
      exact hsame rfl ⟨rfl, rfl⟩ fun body hbody => hbody
    · cases hstep
  | started c =>
    simp only [Deployment.step] at hstep
    split at hstep
    · obtain ⟨relay, -, hd'⟩ := Option.map_eq_some_iff.mp hstep
      subst hd'
      refine hsame rfl ⟨rfl, rfl⟩ fun body hbody => Or.imp_right ?_ hbody
      exact fun hpeer => hpeer.imp fun p hp => ⟨List.mem_append_left _ hp.1, hp.2⟩
    · cases hstep
  | deliver n => exact h.delivered unfilledInstant base toF64 d d' level chance n hstep
  | bus a =>
    simp only [Deployment.step] at hstep
    split at hstep
    · cases hstep
    · obtain ⟨bus, hbus, hstep⟩ := Option.bind_eq_some_iff.mp hstep
      obtain ⟨relay, -, hd'⟩ := Option.map_eq_some_iff.mp hstep
      subst hd'
      have hjoined (p : Peer C) : (p.joined d.bus a).handled = p.handled := by
        unfold Peer.joined
        split
        · split <;> rfl
        · rfl
      refine h.bus d _ level chance a hbus ⟨rfl, rfl⟩ ?_ ?_
      · intro body hbody
        refine Or.imp (List.mem_append_left _) (fun hpeer => ?_) hbody
        obtain ⟨p, hp, hmem⟩ := hpeer
        exact ⟨_, List.mem_map_of_mem hp, (hjoined p).symm ▸ hmem⟩
      · intro c body ha
        subst ha
        exact Or.inl (List.mem_append_right _ (List.mem_singleton.mpr rfl))
  | outgoing sent =>
    simp only [Deployment.step] at hstep
    split at hstep
    · cases hstep
    · next req outgoing _ =>
      obtain ⟨relay, -, hd'⟩ := Option.map_eq_some_iff.mp hstep
      subst hd'
      refine hsame rfl ⟨rfl, rfl⟩ fun body hbody => ?_
      cases sent with
      | false => exact hbody
      | true =>
        refine Or.imp_right (fun hpeer => ?_) hbody
        obtain ⟨p, hp, hmem⟩ := hpeer
        have hhandled := (send_same d.peers (req.request toF64)).2.2
        have hin : p.handled ∈ (Deployment.send d.peers (req.request toF64)).map Peer.handled := by
          rw [hhandled]
          exact List.mem_map_of_mem hp
        obtain ⟨q, hq, hqp⟩ := List.mem_map.mp hin
        exact ⟨q, hq, hqp.symm ▸ hmem⟩
  | take now queued =>
    simp only [Deployment.step] at hstep
    split at hstep
    · cases hstep
    · obtain ⟨relay, -, hd'⟩ := Option.map_eq_some_iff.mp hstep
      subst hd'
      exact hsame rfl ⟨rfl, rfl⟩ fun body hbody => hbody
  | other now u queued =>
    obtain ⟨relay, -, hd'⟩ := Option.map_eq_some_iff.mp hstep
    subst hd'
    exact hsame rfl ⟨rfl, rfl⟩ fun body hbody => hbody

omit [DecidableEq T] [DecidableEq C] in
/-- INTERNAL: nothing is asked at the start. -/
theorem keepsOrder_start (cache : SpanCache) (key : ℕ) (keys : T → ℕ)
    (cacheAddr capacity historyBudget : ℕ) (setLevel : Option WireLevelFilter)
    (setChance : Option ℚ) :
    KeepsOrder toF64 (newDeployment cache key keys cacheAddr capacity historyBudget level
      chance setLevel setChance : Deployment T C) := by
  show ((initialRequests setLevel setChance).map _).Sublist _
  exact List.Sublist.refl _

omit [DecidableEq T] [DecidableEq C] in
/-- INTERNAL: nothing is applied at the start. -/
theorem fromRequests_start (cache : SpanCache) (key : ℕ) (keys : T → ℕ)
    (cacheAddr capacity historyBudget : ℕ) (setLevel : Option WireLevelFilter)
    (setChance : Option ℚ) :
    FromRequests level chance (newDeployment cache key keys cacheAddr capacity historyBudget level
      chance setLevel setChance : Deployment T C) where
  levels := ⟨fun c x hx => (by cases hx), fun x hx => Or.inl (List.mem_singleton.mp hx)⟩
  chances := ⟨fun c x hx => (by cases hx), fun x hx => Or.inl (List.mem_singleton.mp hx)⟩

variable {unfilledInstant base toF64 level chance}

omit [DecidableEq T] [DecidableEq C] in
/-- INTERNAL: what was handled was asked for by another client, or by the console. -/
theorem handled_asked (h : KeepsOrder toF64 d) (body : RequestBody) (hbody : Handled d body)
    (hsets : sets body = true) :
    body ∈ d.others ∨ body ∈ d.asked.map (Outgoing.request toF64) := by
  refine Or.imp_right (fun hpeer => ?_) hbody
  obtain ⟨p, hp, hmem⟩ := hpeer
  refine h.subset (List.mem_append_left _ (List.mem_filter.mpr ⟨?_, hsets⟩))
  exact List.mem_flatMap.mpr ⟨p, hp, List.mem_append_left _ hmem⟩

/-- CODE: runtime.rs:66-90, 220-262, 337-345, server.rs:83-148, 186-235 — **a request is handled
once at most, and nothing is shown that nobody asked for**: in every run, what was handled on the
console's connections, what is on its way there and what is queued, is a subsequence of what the
console asked for; and the level and the chance that it shows are those the host began with, those
of the reset, or asked for by it or another client. -/
theorem requests_handled_once (cache : SpanCache) (key : ℕ) (keys : T → ℕ)
    (cacheAddr capacity historyBudget : ℕ) (setLevel : Option WireLevelFilter)
    (setChance : Option ℚ) (steps : List (DeploymentStep T C))
    (hrun : run (Deployment.step unfilledInstant base toF64)
      (newDeployment cache key keys cacheAddr capacity historyBudget level chance setLevel
        setChance) steps = some d) :
    (settings d.peers ++ d.outgoing.map (Outgoing.request toF64)).Sublist
        (d.asked.map (Outgoing.request toF64)) ∧
      (∀ filter, d.relay.console.cacheLevel = some filter →
        filter = WireLevelFilter.fromTracing level ∨ filter = .off ∨
          .setCacheLevel filter ∈ d.others ∨
            .setCacheLevel filter ∈ d.asked.map (Outgoing.request toF64)) ∧
      ∀ pct, d.relay.console.cacheChance = some pct →
        pct = clampPct chance ∨ pct = F64.hundred ∨ ∃ asked, pct = clampPct asked ∧
          (.setCacheChance asked ∈ d.others ∨
            .setCacheChance asked ∈ d.asked.map (Outgoing.request toF64)) := by
  have hfollowed := bothFollowed_run cache key keys cacheAddr capacity historyBudget level chance
    setLevel setChance steps d hrun
  obtain ⟨horder, hfrom⟩ := run_invariant _ (fun d => KeepsOrder toF64 d ∧
      FromRequests level chance d)
    (fun d a d' h hstep => ⟨keepsOrder_step unfilledInstant base toF64 d d' a h.1 hstep,
      h.2.step unfilledInstant base toF64 d d' level chance a hstep⟩) _ steps d
    ⟨keepsOrder_start toF64 level chance cache key keys cacheAddr capacity historyBudget setLevel
      setChance, fromRequests_start level chance cache key keys cacheAddr capacity
      historyBudget setLevel setChance⟩ hrun
  refine ⟨horder, fun filter hshown => ?_, fun pct hshown => ?_⟩
  · rw [hfollowed.levels.shows] at hshown
    have hlog := (hfollowed.levels.forward.sublist _ _ _ (List.sublist_append_left _ _)).mem _ _
      filter (List.mem_of_getLast? hshown)
    exact Or.imp_right (Or.imp_right fun hhandled => handled_asked d horder _ hhandled rfl)
      (hfrom.levels.log filter hlog)
  · rw [hfollowed.chances.shows] at hshown
    have hlog := (hfollowed.chances.forward.sublist _ _ _ (List.sublist_append_left _ _)).mem _ _
      pct (List.mem_of_getLast? hshown)
    refine Or.imp_right (Or.imp_right fun hasked => ?_) (hfrom.chances.log pct hlog)
    exact hasked.imp fun asked hvalue => ⟨hvalue.1, handled_asked d horder _ hvalue.2 rfl⟩

end Requests

/-- CODE: runtime.rs:71-76, server.rs:83-86 — the one request of the command line. -/
theorem requests_handled_once_info :
    ∃ d, run (Deployment.step 0 { instantAtStart := 0, systimeAtStart := 0 } fun _ => F64.hundred)
        infoDeployment asksForInfo = some d ∧ (settings d.peers ++ d.outgoing.map
          (Outgoing.request fun _ => F64.hundred)).Sublist
            (d.asked.map (Outgoing.request fun _ => F64.hundred)) := by
  obtain ⟨d, hrun, -⟩ := Option.map_eq_some_iff.mp asksForInfo_given
  exact ⟨d, hrun, (requests_handled_once d oneSlot 0 (fun _ => 0) 7 1 4 (some .info) none
    asksForInfo hrun).1⟩

end TracingConsole.Analysis.Transit
