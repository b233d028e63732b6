import TracingConsole.Analysis.ClientsTold
import TracingConsole.Analysis.Delivery
import TracingConsole.Analysis.Messages
import TracingConsole.Analysis.Panel
import TracingConsole.Library.ReadForward
import TracingConsole.Model.Deployment

/-!
# The levels the console shows

The level and the chance come to the console on the stream of spans, read off two watch channels
of the host.  Whatever is lost or late on the way, what the reducer is given was read forward off
the history of its channel (`Following`): a console never goes back to a level older than the one
it shows, nor does it show one that the host has not told.
-/

set_option autoImplicit false

namespace TracingConsole.Analysis.Transit

open TracingConsole.Library TracingConsole.Model TracingConsole.Analysis.LevelBus

/-! ## What is read off the updates -/

/-- INTERNAL: the level an update brings. -/
def levelsOf : Update → List WireLevelFilter
  | .cacheLevelReceived filter => [filter]
  | _ => []

/-- INTERNAL: the chance an update brings. -/
def chancesOf : Update → List F64
  | .cacheChanceReceived pct => [pct]
  | _ => []

/-- INTERNAL: something that only the broadcast's messages carry, with the field of the console
that shows the last of it. -/
structure Broadcasts {α : Type} (f : Update → List α) (shown : ConsoleModel → Option α) : Prop where
  self : ∀ u, ofItself u = true → f u = []
  elsewhere : ∀ u, ¬ u.fromNetwork = true → f u = []
  span : ∀ span, f (.spanReceived span) = []
  apart : ∀ body, body.tellsOfBus = false → bodyCarried f body = []
  apply : ∀ now m m' u e, m.apply now u = some (m', e) → shown m' = (f u).getLast?.or (shown m)

/-- INTERNAL: SRCLINE: core.rs:482-488 -/
theorem broadcasts_levels : Broadcasts levelsOf ConsoleModel.cacheLevel where
  self := fun u hu => by cases u <;> first | rfl | cases hu
  elsewhere := fun u hu => by cases u <;> first | rfl | exact absurd rfl hu
  span := fun _ => rfl
  apart := fun body hbody => by cases body <;> first | rfl | cases hbody
  apply := fun now m m' u e h => by
    have hpanel := congrArg Console.Panel.cacheLevel (Console.apply_panel now m m' u e h).1
    show (Console.panel m').cacheLevel = _
    rw [hpanel]
    cases u <;> rfl

/-- INTERNAL: SRCLINE: core.rs:490-496 -/
theorem broadcasts_chances : Broadcasts chancesOf ConsoleModel.cacheChance where
  self := fun u hu => by cases u <;> first | rfl | cases hu
  elsewhere := fun u hu => by cases u <;> first | rfl | exact absurd rfl hu
  span := fun _ => rfl
  apart := fun body hbody => by cases body <;> first | rfl | cases hbody
  apply := fun now m m' u e h => by
    have hpanel := congrArg Console.Panel.cacheChance (Console.apply_panel now m m' u e h).1
    show (Console.panel m').cacheChance = _
    rw [hpanel]
    cases u <;> rfl

section Field

variable {α T : Type} [DecidableEq T] (f : Update → List α) (shown : ConsoleModel → Option α)
  (hf : Broadcasts f shown) (unfilledInstant : ℕ) (base : TimeBase)

include hf

/-- INTERNAL: a span on the wire tells nothing of the broadcast. -/
theorem putOnWire_apart (l : Link) (a : LinkStep)
    (ha : ∀ body, a = .push body → body.tellsOfBus = false) :
    (putOnWire unfilledInstant base l a).flatMap (bodyCarried f) = [] := by
  cases a with
  | subscribe | read | finish => rfl
  | push body =>
    show (bodyCarried f body ++ [] : List α) = []
    rw [hf.apart body (ha body rfl), List.append_nil]
  | forward =>
    unfold putOnWire Relay.forwardedSpans
    cases l.server.forwarded (.forward 0) with
    | none => rfl
    | some sent => exact (List.append_nil _).trans (hf.apart (.span _) rfl)

/-- INTERNAL: **a step of the spans' way** brings nothing of the broadcast, and loses it only with
a refused burst or a stream. -/
theorem pending_leaves (s s' : Relay T) (a : RelayStep T) (ha : a.leavesBus = true)
    (h : s.step unfilledInstant base a = some s') :
    s'.console = s.console ∧ (pending f s').Sublist (pending f s) ∧
      (NothingRefused s'.network → s'.network.phase = .streaming → pending f s' = pending f s) := by
  cases a with
  | host a =>
    have hsame := pending_host f s s' a h
    rw [hsame]
    exact ⟨(hostStep_aside s s' a h).1.console, List.Sublist.refl _, fun _ _ => rfl⟩
  | link n a =>
    have hsame : pending f s' = pending f s := by
      obtain ⟨l, -, hpending⟩ := pending_link f s s' unfilledInstant base n a h
      rw [putOnWire_apart f shown hf] at hpending
      · rw [hpending, ite_self, List.append_nil]
      · intro body hbody
        subst hbody
        simpa [RelayStep.leavesBus] using ha
    rw [hsame]
    exact ⟨(linkStep_aside s s' unfilledInstant base n a h).1.console, List.Sublist.refl _,
      fun _ _ => rfl⟩
  | network a =>
    obtain ⟨-, network, -, hs'⟩ := networkStep_eq_some s s' a h
    obtain ⟨hless, hsame⟩ := pending_network f hf.self s s' a h
    exact ⟨by rw [hs'], hless, fun _ => hsame⟩
  | burst ready ending many error last =>
    obtain ⟨links, l, item, items, -, -, -, -, -, hs'⟩ :=
      burstStep_eq_some s s' ready ending many error last h
    obtain ⟨hless, hsame⟩ := pending_burst f hf.self s s' ready ending many error last h
    exact ⟨by rw [hs'], hless, hsame⟩
  | take now => cases ha
  | other now u => cases ha

end Field

/-! ## What the broadcast tells -/

section Watch

variable {C : Type} [DecidableEq C]

/-- INTERNAL: a channel that was not sent to holds what it held. -/
theorem moves_value {P α : Type} [DecidableEq P] (b b' : Cell P α) (sent : Option (P × α))
    (h : Cell.Moves b b' sent) (hversion : b'.watch.version = b.watch.version) :
    b'.watch.value = b.watch.value := by
  cases h with
  | rests h => exact h.value
  | applies h => rw [h.watch]
  | sends p v h =>
    rw [h.watch] at hversion ⊢
    unfold Watch.send at hversion ⊢
    split at hversion
    · next hnone => rw [if_pos hnone]
    · dsimp only at hversion
      omega

/-- INTERNAL: a stream that tells its client something leaves the channels as they are.
SRCLINE: server.rs:271-303 -/
theorem told_rests (b b' : Bus C) (a : BusStep C) (sent : ℕ × ResponseBody)
    (h : b.step a = some b') (htold : Deployment.told b a = some sent) :
    b'.levelTx = b.levelTx ∧ b'.chanceTx = b.chanceTx := by
  cases a with
  | pushLevel n =>
    simp only [Bus.step, Bus.pushLevel] at h
    split at h
    · split at h
      · cases h
        exact ⟨rfl, rfl⟩
      · cases h
    · cases h
  | pushChance n =>
    simp only [Bus.step, Bus.pushChance] at h
    split at h
    · split at h
      · cases h
        exact ⟨rfl, rfl⟩
      · cases h
    · cases h
  | _ => cases htold

/-- INTERNAL: one of the two channels, with what is read off the updates. -/
structure Tells {α : Type} (f : Update → List α) (watch : Bus C → Watch α) : Prop where
  told : ∀ b a n body, Deployment.told b a = some (n, body) →
    bodyCarried f body = [] ∨ bodyCarried f body = [(watch b).value]
  rests : ∀ b b' a sent, b.step a = some b' → Deployment.told b a = some sent → watch b' = watch b
  moves : ∀ b b' a, (∀ c, Paired (b.connection c).todo) → b.step a = some b' →
    (watch b').version = (watch b).version → (watch b').value = (watch b).value

/-- INTERNAL: how the console is told of levels. -/
theorem tells_levels : Tells (C := C) levelsOf Bus.levelTx where
  told := fun b a n body h => by
    cases a with
    | pushLevel m => cases h; exact Or.inr rfl
    | pushChance m => cases h; exact Or.inl rfl
    | _ => cases h
  rests := fun b b' a sent h htold => (told_rests b b' a sent h htold).1
  moves := fun b b' a hpaired h =>
    moves_value (levelCell b) (levelCell b') _ (LevelBus.step_moves b b' a hpaired h).1

/-- INTERNAL: how it is told of chances. -/
theorem tells_chances : Tells (C := C) chancesOf Bus.chanceTx where
  told := fun b a n body h => by
    cases a with
    | pushLevel m => cases h; exact Or.inl rfl
    | pushChance m => cases h; exact Or.inr rfl
    | _ => cases h
  rests := fun b b' a sent h htold => (told_rests b b' a sent h htold).2
  moves := fun b b' a hpaired h =>
    moves_value (chanceCell b) (chanceCell b') _ (LevelBus.step_moves b b' a hpaired h).2

/-- INTERNAL: the log only grows. -/
theorem logged_grows {α : Type} (log : List α) (w w' : Watch α) : log <+: logged log w w' := by
  unfold logged
  split
  · exact List.prefix_refl _
  · exact List.prefix_append _ _

/-- INTERNAL: the history ends with what the channel holds. -/
theorem logged_last {α : Type} (log : List α) (w w' : Watch α) (hlast : log.getLast? = some w.value)
    (hvalue : w'.version = w.version → w'.value = w.value) :
    (logged log w w').getLast? = some w'.value := by
  unfold logged
  split
  · next hversion => rw [hlast, hvalue hversion]
  · rw [List.getLast?_concat]

end Watch

/-! ## Reading forward -/

section Following

variable {α T C : Type} [DecidableEq T] [DecidableEq C] (f : Update → List α)
  (shown : ConsoleModel → Option α) (watch : Bus C → Watch α)
  (unfilledInstant : ℕ) (base : TimeBase) (toF64 : ℚ → F64)

/-- INTERNAL: **the invariant**, for one of the two channels with its history: what the reducer was
given and what is on its way to it was read forward, and the last of what it was given is shown. -/
structure Following (log : List α) (d : Deployment T C) : Prop where
  last : log.getLast? = some (watch d.bus).value
  forward : ReadsForward log (carried f d.received ++ pending f d.relay)
  shows : shown d.relay.console = (carried f d.received).getLast?

variable (hf : Broadcasts f shown) (hw : Tells f watch)

include hf

omit [DecidableEq T] [DecidableEq C] hf in
/-- INTERNAL: a step that leaves the broadcast and the reducer alone. -/
theorem Following.less (log : List α) (d d' : Deployment T C)
    (h : Following f shown watch log d) (hbus : d'.bus = d.bus) (hreceived : d'.received = d.received)
    (hconsole : d'.relay.console = d.relay.console)
    (hpending : (pending f d'.relay).Sublist (pending f d.relay)) :
    Following f shown watch log d' := by
  refine ⟨by rw [hbus]; exact h.last, ?_, ?_⟩
  · rw [hreceived]
    exact h.forward.sublist log _ _ (hpending.append_left _)
  · rw [hconsole, hreceived]
    exact h.shows

omit [DecidableEq C] in
/-- INTERNAL: the reducer takes the next update of the network task. -/
theorem Following.take (log : List α) (d d' : Deployment T C) (h : Following f shown watch log d)
    (now : ℕ) (u : Update) (channel : List Update) (hchannel : d.relay.network.channel = u :: channel)
    (hstep : d.relay.step unfilledInstant base (.take now) = some d'.relay) (hbus : d'.bus = d.bus)
    (hreceived : d'.received = d.received ++ [u]) : Following f shown watch log d' := by
  have hpending := (pending_take f _ _ unfilledInstant base now u channel hchannel hstep).1
  simp only [Relay.step, hchannel] at hstep
  obtain ⟨r, happly, hrelay⟩ := Option.map_eq_some_iff.mp hstep
  refine ⟨by rw [hbus]; exact h.last, ?_, ?_⟩
  · have hforward := h.forward
    rw [hpending, ← List.append_assoc] at hforward
    rw [hreceived, carried_append, carried_singleton]
    exact hforward
  · rw [hreceived, carried_append, carried_singleton, List.getLast?_append, ← h.shows, ← hrelay]
    exact hf.apply now _ r.1 u r.2 happly

omit [DecidableEq C] in
/-- INTERNAL: the reducer takes an update of another sender. -/
theorem Following.other (log : List α) (d d' : Deployment T C) (h : Following f shown watch log d)
    (now : ℕ) (u : Update)
    (hstep : d.relay.step unfilledInstant base (.other now u) = some d'.relay)
    (hbus : d'.bus = d.bus) (hreceived : d'.received = d.received) :
    Following f shown watch log d' := by
  simp only [Relay.step] at hstep
  split at hstep
  · cases hstep
  · next hu =>
    obtain ⟨r, happly, hrelay⟩ := Option.map_eq_some_iff.mp hstep
    have hshown := hf.apply now _ r.1 u r.2 happly
    rw [hf.elsewhere u hu] at hshown
    refine ⟨by rw [hbus]; exact h.last, ?_, ?_⟩
    · rw [hreceived, ← hrelay]
      exact h.forward
    · rw [hreceived, ← h.shows, ← hrelay]
      exact hshown

include hw

omit hf in
/-- INTERNAL: **a step of the broadcast**: the history may grow, and a stream of the console may
be told its last value. -/
theorem Following.bus (log : List α) (d : Deployment T C) (h : Following f shown watch log d)
    (hpaired : ∀ c, Paired (d.bus.connection c).todo) (a : BusStep C) (bus : Bus C)
    (hbus : d.bus.step a = some bus) (d' : Deployment T C) (hbus' : d'.bus = bus)
    (hrelay : d.onWire unfilledInstant base a = some d'.relay)
    (hreceived : d'.received = d.received) :
    Following f shown watch (logged log (watch d.bus) (watch bus)) d' := by
  have hgrows := logged_grows log (watch d.bus) (watch bus)
  have hlast := logged_last log (watch d.bus) (watch bus) h.last (hw.moves d.bus bus a hpaired hbus)
  have hforward := h.forward.grow log _ _ hgrows
  unfold Deployment.onWire at hrelay
  split at hrelay
  · refine ⟨hbus' ▸ hlast, ?_, ?_⟩
    · rw [hreceived, ← Option.some.inj hrelay]
      exact hforward
    · rw [hreceived, ← Option.some.inj hrelay]
      exact h.shows
  · next n body hheard =>
    obtain ⟨sent, htold, hfound⟩ := Option.bind_eq_some_iff.mp hheard
    obtain ⟨m, -, hsent⟩ := Option.map_eq_some_iff.mp hfound
    have hbody : sent.2 = body := (Prod.mk.inj hsent).2
    obtain ⟨l, -, hpending⟩ := pending_link f d.relay d'.relay unfilledInstant base n (.push body) hrelay
    have haside := (linkStep_aside d.relay d'.relay unfilledInstant base n (.push body) hrelay).1
    refine ⟨hbus' ▸ hlast, ?_, ?_⟩
    · rw [hreceived, hpending]
      have hcarried : (putOnWire unfilledInstant base l (.push body)).flatMap (bodyCarried f) =
          bodyCarried f sent.2 := by
        rw [hbody]
        exact List.append_nil _
      rw [hcarried]
      split
      · cases hw.told d.bus a sent.1 sent.2 htold with
        | inl hnone =>
          rw [hnone, List.append_nil]
          exact hforward
        | inr hvalue =>
          have hheld : (watch d.bus).value = (watch bus).value := by
            rw [hw.rests d.bus bus a sent hbus htold]
          rw [hvalue, hheld, ← List.append_assoc]
          exact hforward.readLast _ _ _ hlast
      · rw [List.append_nil]
        exact hforward
    · rw [hreceived, haside.console]
      exact h.shows

end Following

/-! ## Every step -/

section Shown

variable {T C : Type} [DecidableEq T] [DecidableEq C] (unfilledInstant : ℕ) (base : TimeBase)
  (toF64 : ℚ → F64)

/-- INTERNAL: both channels are followed. -/
structure BothFollowed (d : Deployment T C) : Prop where
  announcing : Announcing d.bus
  levels : Following levelsOf ConsoleModel.cacheLevel Bus.levelTx d.levelLog d
  chances : Following chancesOf ConsoleModel.cacheChance Bus.chanceTx d.chanceLog d

/-- INTERNAL: a request that a connection takes changes no channel. -/
theorem request_rests (b b' : Bus C) (c : C) (body : RequestBody)
    (h : b.step (.request c body) = some b') :
    b'.levelTx = b.levelTx ∧ b'.chanceTx = b.chanceTx ∧ b'.streams = b.streams := by
  simp only [Bus.step] at h
  split at h
  · cases h
  · cases h
    exact ⟨rfl, rfl, rfl⟩

/-- INTERNAL: a value that is not written is not logged. -/
theorem logged_same {α : Type} (log : List α) (w : Watch α) : logged log w w = log :=
  if_pos rfl

variable (d d' : Deployment T C)

omit [DecidableEq T] [DecidableEq C] in
/-- INTERNAL: a step that leaves the broadcast, the histories and the reducer alone. -/
theorem BothFollowed.less (h : BothFollowed d) (hbus : d'.bus = d.bus)
    (hlogs : d'.levelLog = d.levelLog ∧ d'.chanceLog = d.chanceLog)
    (hreceived : d'.received = d.received) (hconsole : d'.relay.console = d.relay.console)
    (hlevels : (pending levelsOf d'.relay).Sublist (pending levelsOf d.relay))
    (hchances : (pending chancesOf d'.relay).Sublist (pending chancesOf d.relay)) :
    BothFollowed d' := by
  refine ⟨hbus ▸ h.announcing, ?_, ?_⟩
  · rw [hlogs.1]
    exact h.levels.less _ _ _ _ d d' hbus hreceived hconsole hlevels
  · rw [hlogs.2]
    exact h.chances.less _ _ _ _ d d' hbus hreceived hconsole hchances

/-- INTERNAL: **the step lemma**. -/
theorem BothFollowed.step (a : DeploymentStep T C) (h : BothFollowed d)
    (hstep : d.step unfilledInstant base toF64 a = some d') : BothFollowed d' := by
  cases a with
  | relay a =>
    simp only [Deployment.step] at hstep
    split at hstep
    · next ha =>
      obtain ⟨relay, hrelay, hd'⟩ := Option.map_eq_some_iff.mp hstep
      subst hd'
      obtain ⟨hconsole, hlevels, -⟩ :=
        pending_leaves _ _ broadcasts_levels unfilledInstant base d.relay relay a ha hrelay
      obtain ⟨-, hchances, -⟩ :=
        pending_leaves _ _ broadcasts_chances unfilledInstant base d.relay relay a ha hrelay
      exact h.less d _ rfl ⟨rfl, rfl⟩ rfl hconsole hlevels hchances
    · cases hstep
  | started c =>
    simp only [Deployment.step] at hstep
    split at hstep
    · obtain ⟨relay, hrelay, hd'⟩ := Option.map_eq_some_iff.mp hstep
      subst hd'
      obtain ⟨-, network, -, hmoved⟩ := networkStep_eq_some d.relay relay .started hrelay
      exact h.less d _ rfl ⟨rfl, rfl⟩ rfl (by rw [hmoved])
        (pending_network _ broadcasts_levels.self d.relay relay .started hrelay).1
        (pending_network _ broadcasts_chances.self d.relay relay .started hrelay).1
    · cases hstep
  | deliver n =>
    simp only [Deployment.step] at hstep
    split at hstep
    · cases hstep
    · next p hp =>
      split at hstep
      · cases hstep
      · next body upstream hbody =>
        obtain ⟨bus, hbus, hd'⟩ := Option.map_eq_some_iff.mp hstep
        subst hd'
        obtain ⟨hlevel, hchance, -⟩ := request_rests d.bus bus p.connection body hbus
        refine ⟨step_announcing d.bus bus _ h.announcing hbus, ?_, ?_⟩
        · have hlog : logged d.levelLog d.bus.levelTx bus.levelTx = d.levelLog := by
            rw [hlevel, logged_same]
          show Following _ _ _ (logged d.levelLog d.bus.levelTx bus.levelTx) _
          rw [hlog]
          exact ⟨hlevel ▸ h.levels.last, h.levels.forward, h.levels.shows⟩
        · have hlog : logged d.chanceLog d.bus.chanceTx bus.chanceTx = d.chanceLog := by
            rw [hchance, logged_same]
          show Following _ _ _ (logged d.chanceLog d.bus.chanceTx bus.chanceTx) _
          rw [hlog]
          exact ⟨hchance ▸ h.chances.last, h.chances.forward, h.chances.shows⟩
  | bus a =>
    simp only [Deployment.step] at hstep
    split at hstep
    · cases hstep
    · obtain ⟨bus, hbus, hstep⟩ := Option.bind_eq_some_iff.mp hstep
      obtain ⟨relay, hrelay, hd'⟩ := Option.map_eq_some_iff.mp hstep
      subst hd'
      exact ⟨step_announcing d.bus bus a h.announcing hbus,
        h.levels.bus _ _ _ unfilledInstant base tells_levels _ d h.announcing.paired a bus hbus _
          rfl hrelay rfl,
        h.chances.bus _ _ _ unfilledInstant base tells_chances _ d h.announcing.paired a bus hbus _
          rfl hrelay rfl⟩
  | outgoing sent =>
    simp only [Deployment.step] at hstep
    split at hstep
    · cases hstep
    · next req outgoing _ =>
      obtain ⟨relay, hrelay, hd'⟩ := Option.map_eq_some_iff.mp hstep
      subst hd'
      obtain ⟨-, network, -, hmoved⟩ := networkStep_eq_some d.relay relay (.outgoing req) hrelay
      exact h.less d _ rfl ⟨rfl, rfl⟩ rfl (by rw [hmoved])
        (pending_network _ broadcasts_levels.self d.relay relay (.outgoing req) hrelay).1
        (pending_network _ broadcasts_chances.self d.relay relay (.outgoing req) hrelay).1
  | take now queued =>
    simp only [Deployment.step] at hstep
    split at hstep
    · cases hstep
    · next u channel hchannel =>
      obtain ⟨relay, hrelay, hd'⟩ := Option.map_eq_some_iff.mp hstep
      subst hd'
      exact ⟨h.announcing,
        h.levels.take _ _ _ unfilledInstant base broadcasts_levels _ d _ now u channel hchannel
          hrelay rfl rfl,
        h.chances.take _ _ _ unfilledInstant base broadcasts_chances _ d _ now u channel hchannel
          hrelay rfl rfl⟩
  | other now u queued =>
    simp only [Deployment.step] at hstep
    obtain ⟨relay, hrelay, hd'⟩ := Option.map_eq_some_iff.mp hstep
    subst hd'
    exact ⟨h.announcing,
      h.levels.other _ _ _ unfilledInstant base broadcasts_levels _ d _ now u hrelay rfl rfl,
      h.chances.other _ _ _ unfilledInstant base broadcasts_chances _ d _ now u hrelay rfl rfl⟩

/-- INTERNAL: the host and the console at the start of a run. -/
def newDeployment (cache : SpanCache) (key : ℕ) (keys : T → ℕ)
    (cacheAddr capacity historyBudget : ℕ) (level : LevelFilter) (chance : F64)
    (setLevel : Option WireLevelFilter) (setChance : Option ℚ) : Deployment T C :=
  Deployment.start (Relay.start cache key keys cacheAddr capacity historyBudget) level chance
    setLevel setChance

omit [DecidableEq T] [DecidableEq C] in
/-- INTERNAL: nothing is told at the start. -/
theorem bothFollowed_start (cache : SpanCache) (key : ℕ) (keys : T → ℕ)
    (cacheAddr capacity historyBudget : ℕ) (level : LevelFilter) (chance : F64)
    (setLevel : Option WireLevelFilter) (setChance : Option ℚ) :
    BothFollowed (newDeployment cache key keys cacheAddr capacity historyBudget level chance
      setLevel setChance : Deployment T C) where
  announcing := announcing_new level chance
  levels := ⟨rfl, readsForward_nil _, rfl⟩
  chances := ⟨rfl, readsForward_nil _, rfl⟩

variable {unfilledInstant base toF64}

/-- INTERNAL: so it holds of every run. -/
theorem bothFollowed_run (cache : SpanCache) (key : ℕ) (keys : T → ℕ)
    (cacheAddr capacity historyBudget : ℕ) (level : LevelFilter) (chance : F64)
    (setLevel : Option WireLevelFilter) (setChance : Option ℚ) (steps : List (DeploymentStep T C))
    (d : Deployment T C)
    (hrun : run (Deployment.step unfilledInstant base toF64)
      (newDeployment cache key keys cacheAddr capacity historyBudget level chance setLevel
        setChance) steps = some d) : BothFollowed d :=
  run_invariant _ BothFollowed
    (fun d a d' h hstep => h.step unfilledInstant base toF64 d d' a hstep) _ steps d
    (bothFollowed_start cache key keys cacheAddr capacity historyBudget level chance setLevel
      setChance) hrun

/-- CODE: server.rs:59-148, 253-308, runtime.rs:85-263, core.rs:482-496 — **the console never goes
back to an older level**: in every run of a host, its clients and a console, over any number of
connections and whatever is lost on the way, the levels the reducer was given, and the chances,
were read forward off the history of their channel, and the last one is shown. -/
theorem shown_levels_never_go_back (cache : SpanCache) (key : ℕ) (keys : T → ℕ)
    (cacheAddr capacity historyBudget : ℕ) (level : LevelFilter) (chance : F64)
    (setLevel : Option WireLevelFilter) (setChance : Option ℚ) (steps : List (DeploymentStep T C))
    (d : Deployment T C)
    (hrun : run (Deployment.step unfilledInstant base toF64)
      (newDeployment cache key keys cacheAddr capacity historyBudget level chance setLevel
        setChance) steps = some d) :
    (ReadsForward d.levelLog (carried levelsOf d.received) ∧
      d.levelLog.getLast? = some d.bus.levelTx.value ∧
      d.relay.console.cacheLevel = (carried levelsOf d.received).getLast?) ∧
    ReadsForward d.chanceLog (carried chancesOf d.received) ∧
      d.chanceLog.getLast? = some d.bus.chanceTx.value ∧
      d.relay.console.cacheChance = (carried chancesOf d.received).getLast? := by
  have h := bothFollowed_run cache key keys cacheAddr capacity historyBudget level chance setLevel
    setChance steps d hrun
  exact ⟨⟨h.levels.forward.sublist _ _ _ (List.sublist_append_left _ _), h.levels.last,
      h.levels.shows⟩,
    h.chances.forward.sublist _ _ _ (List.sublist_append_left _ _), h.chances.last,
    h.chances.shows⟩

end Shown

/-- INTERNAL: a host that records nothing, and a console that asks for INFO. -/
def infoDeployment : Deployment Bool Bool :=
  newDeployment oneSlot 0 (fun _ => 0) 7 1 4 .off F64.hundred (some .info) none

/-- INTERNAL: the console connects, its stream tells it the host's values, its request is handled,
and the stream tells it that. -/
def asksForInfo : List (DeploymentStep Bool Bool) :=
  [.relay (.network (.dial "host" .accepted)), .relay (.network (.connected .accepted)),
    .started false, .deliver 0, .bus (.perform false), .bus (.perform false),
    .bus (.perform false), .bus (.pushLevel 0), .bus (.pushChance 0), .outgoing true, .deliver 0,
    .bus (.perform false), .bus (.perform false), .bus (.pushLevel 0),
    .relay (.burst 3 none .accepted .accepted .accepted), .take 0 true, .take 0 true, .take 0 true,
    .take 0 true, .take 0 true]

/-- INTERNAL: the channel's history, and what the reducer was given. -/
theorem asksForInfo_given :
    (run (Deployment.step 0 { instantAtStart := 0, systimeAtStart := 0 } fun _ => F64.hundred)
        infoDeployment asksForInfo).map (fun d => (d.levelLog, carried levelsOf d.received)) =
      some ([.off, .info], [.off, .info]) := by
  decide +kernel

/-- CODE: server.rs:59-148, runtime.rs:71-76 — OFF first, then the level asked for on the command
line. -/
theorem shown_levels_never_go_back_info :
    ∃ d, run (Deployment.step 0 { instantAtStart := 0, systimeAtStart := 0 } fun _ => F64.hundred)
        infoDeployment asksForInfo = some d ∧ d.relay.console.cacheLevel = some .info := by
  obtain ⟨d, hrun, hends⟩ := Option.map_eq_some_iff.mp asksForInfo_given
  have hshown := (shown_levels_never_go_back oneSlot 0 (fun _ => 0) 7 1 4 .off F64.hundred
    (some .info) none asksForInfo d hrun).1.2.2
  rw [(Prod.mk.inj hends).2] at hshown
  exact ⟨d, hrun, hshown⟩

end TracingConsole.Analysis.Transit
