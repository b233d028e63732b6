import TracingConsole.Analysis.BusMoves

/-!
# The idle reset and the sessions

The number of active streams is the number of guards held.  A guard held therefore keeps
every other drop from starting a reset; what it cannot do is stop a reset that was started
before, which is still to store OFF.
-/

set_option autoImplicit false

namespace TracingConsole.Analysis.LevelBus

open TracingConsole.Library TracingConsole.Model

variable {C : Type} [DecidableEq C]

/-! ## What the connections are doing -/

/-- INTERNAL: a guard has been dropped, its drop took the counter to zero and the store of OFF
is still to come. -/
def ResetPending (b : Bus C) (c : C) : Prop :=
  (b.connection c).dropped = true ∧ ∃ filter rest, (b.connection c).todo = .storeLevel filter :: rest

/-- INTERNAL: the step is the store of a `SetCacheLevel`. -/
def SetsLevel (b : Bus C) : BusStep C → Prop
  | .perform c =>
    (b.connection c).dropped = false ∧ ∃ filter rest, (b.connection c).todo = .storeLevel filter :: rest
  | _ => False

/-- INTERNAL: what a connection is left to do fits the guard it holds. -/
structure SoundConnection (conn : Connection) : Prop where
  enters : .enterStream ∈ conn.todo → conn.streamGuard = false ∧ .enterStream ∉ conn.todo.tail
  exits : .exitStream ∈ conn.todo → conn.streamGuard = true ∧ conn.todo = [.exitStream]
  stores : ∀ filter, .storeLevel filter ∉ conn.todo.tail
  resets : conn.dropped = true → ∀ filter, .storeLevel filter ∈ conn.todo →
    conn.streamGuard = false ∧ filter = .off

/-- INTERNAL: the guards that are held are as many as the streams that are active. -/
def Counted (b : Bus C) : Prop :=
  ∃ holders : Finset C,
    (∀ c, c ∈ holders ↔ (b.connection c).streamGuard = true) ∧ b.activeStreams = holders.card

/-- INTERNAL: every connection is sound, and the active streams are the guards held. -/
structure Sessions (b : Bus C) : Prop where
  sound : ∀ c, SoundConnection (b.connection c)
  counted : Counted b

omit [DecidableEq C] in
/-- INTERNAL: a new bus has no session. -/
theorem sessions_new (level : LevelFilter) (chance : F64) :
    Sessions (Bus.new level chance : Bus C) where
  sound := fun _ => ⟨by simp [Bus.new, Connection.new], by simp [Bus.new, Connection.new],
    by simp [Bus.new, Connection.new], by simp [Bus.new, Connection.new]⟩
  counted := ⟨∅, by simp [Bus.new, Connection.new], rfl⟩

/-- INTERNAL: a request fits the guard. -/
theorem sound_request (conn : Connection) (body : RequestBody) (hlive : conn.dropped = false) :
    SoundConnection { conn with todo := conn.newRpc body } := by
  cases body with
  | startStream =>
    cases hguard : conn.streamGuard <;>
      refine ⟨?_, ?_, ?_, ?_⟩ <;> simp [Connection.newRpc, hguard, hlive]
  | setCacheLevel filter =>
    refine ⟨?_, ?_, ?_, ?_⟩ <;> simp [Connection.newRpc, setLevel, hlive]
  | setCacheChance pct =>
    refine ⟨?_, ?_, ?_, ?_⟩ <;> simp [Connection.newRpc, setChance]

/-- INTERNAL: so does a drop. -/
theorem sound_disconnect (conn : Connection) :
    SoundConnection
      { conn with
        dropped := true
        todo := if conn.streamGuard then [.exitStream] else [] } := by
  cases hguard : conn.streamGuard <;> refine ⟨?_, ?_, ?_, ?_⟩ <;> simp

/-- INTERNAL: the connection after one of its accesses, when it is `prev` streams that were
active before. -/
def connectionAfter (conn : Connection) (prev version : ℕ) (rest : List Action) :
    Action → Connection
  | .enterStream => { conn with todo := rest, streamGuard := true }
  | .subscribeLevel => { conn with todo := rest, levelRx := version }
  | .exitStream =>
    { conn with todo := if prev = 1 then idleReset else rest, streamGuard := false }
  | _ => { conn with todo := rest }

/-- INTERNAL: an action is one of its connection. -/
theorem act_connection (b : Bus C) (c : C) (rest : List Action) (a : Action) :
    (b.act c rest a).connection =
      Function.update b.connection c
        (connectionAfter (b.connection c) b.activeStreams b.levelTx.version rest a) := by
  cases a <;> simp [Bus.act, connectionAfter]

/-- INTERNAL: an access leaves a connection sound. -/
theorem sound_after (conn : Connection) (prev version : ℕ) (rest : List Action) (a : Action)
    (hconn : SoundConnection conn) (htodo : conn.todo = a :: rest) :
    SoundConnection (connectionAfter conn prev version rest a) := by
  have hrestStores : ∀ filter, .storeLevel filter ∉ rest := by
    intro filter
    have hstores := hconn.stores filter
    rwa [htodo] at hstores
  have hrestTail : ∀ a' : Action, a' ∉ rest → a' ∉ rest.tail := fun _ hnot hmem =>
    hnot (List.mem_of_mem_tail hmem)
  have hrestExits : .exitStream ∉ rest := by
    intro hmem
    have hall := (hconn.exits (by rw [htodo]; exact List.mem_cons_of_mem a hmem)).2
    rw [htodo] at hall
    obtain ⟨-, hrest⟩ := List.cons.inj hall
    rw [hrest] at hmem
    cases hmem
  have hrestEnters : .enterStream ∈ rest → conn.streamGuard = false ∧ .enterStream ∉ rest := by
    intro hmem
    have henters := hconn.enters (by rw [htodo]; exact List.mem_cons_of_mem a hmem)
    rwa [htodo] at henters
  -- what the accesses that touch neither guard nor list have in common
  have hplain : ∀ levelRx, SoundConnection
      { dropped := conn.dropped, streamGuard := conn.streamGuard, levelRx := levelRx
        todo := rest } := fun levelRx =>
    { enters := fun hmem =>
        ⟨(hrestEnters hmem).1, hrestTail _ (hrestEnters hmem).2⟩
      exits := fun hmem => absurd hmem hrestExits
      stores := fun filter => hrestTail _ (hrestStores filter)
      resets := fun _ filter hmem => absurd hmem (hrestStores filter) }
  cases a with
  | enterStream =>
    have hnone : .enterStream ∉ rest := by
      have henters := (hconn.enters (by rw [htodo]; exact List.mem_cons_self)).2
      rwa [htodo] at henters
    exact
      { enters := fun hmem => absurd hmem hnone
        exits := fun hmem => absurd hmem hrestExits
        stores := fun filter => hrestTail _ (hrestStores filter)
        resets := fun _ filter hmem => absurd hmem (hrestStores filter) }
  | exitStream =>
    by_cases hlast : prev = 1
    · simp only [connectionAfter, if_pos hlast]
      refine ⟨?_, ?_, ?_, ?_⟩ <;> simp [idleReset]
    · simp only [connectionAfter, if_neg hlast]
      exact
        { enters := fun hmem => ⟨rfl, hrestTail _ (hrestEnters hmem).2⟩
          exits := fun hmem => absurd hmem hrestExits
          stores := fun filter => hrestTail _ (hrestStores filter)
          resets := fun _ filter hmem => absurd hmem (hrestStores filter) }
  | subscribeLevel => exact hplain version
  | _ => exact hplain conn.levelRx

/-! ## Counting the guards -/

omit [DecidableEq C] in
/-- INTERNAL: a step that changes neither the counter nor a guard. -/
theorem counted_of_same (b b' : Bus C) (h : Counted b)
    (hguards : ∀ c, (b'.connection c).streamGuard = (b.connection c).streamGuard)
    (hcount : b'.activeStreams = b.activeStreams) : Counted b' := by
  obtain ⟨holders, hmem, hcard⟩ := h
  refine ⟨holders, fun c => ?_, by rw [hcount, hcard]⟩
  rw [hguards]
  exact hmem c

/-- INTERNAL: an access changes the guard of its own connection only. -/
theorem act_guard (b : Bus C) (c d : C) (rest : List Action) (a : Action) :
    ((b.act c rest a).connection d).streamGuard =
      if d = c then
        (connectionAfter (b.connection c) b.activeStreams b.levelTx.version rest a).streamGuard
      else (b.connection d).streamGuard := by
  rw [act_connection]
  by_cases hd : d = c
  · rw [if_pos hd, hd, Function.update_self]
  · rw [if_neg hd, Function.update_of_ne hd]

/-- INTERNAL: a stream that is entered is counted. -/
theorem counted_enter (b : Bus C) (c : C) (rest : List Action) (h : Counted b)
    (hguard : (b.connection c).streamGuard = false) : Counted (b.act c rest .enterStream) := by
  obtain ⟨holders, hmem, hcard⟩ := h
  have hnew : c ∉ holders := by
    rw [hmem, hguard]
    exact Bool.false_ne_true
  refine ⟨insert c holders, fun d => ?_, ?_⟩
  · rw [Finset.mem_insert, act_guard]
    by_cases hd : d = c
    · simp [hd, connectionAfter]
    · rw [if_neg hd, ← hmem]
      exact or_iff_right hd
  · rw [Finset.card_insert_of_notMem hnew, ← hcard]
    rfl

/-- INTERNAL: one that is left is no longer counted. -/
theorem counted_exit (b : Bus C) (c : C) (rest : List Action) (h : Counted b)
    (hguard : (b.connection c).streamGuard = true) : Counted (b.act c rest .exitStream) := by
  obtain ⟨holders, hmem, hcard⟩ := h
  have hheld : c ∈ holders := (hmem c).mpr hguard
  refine ⟨holders.erase c, fun d => ?_, ?_⟩
  · rw [Finset.mem_erase, act_guard]
    by_cases hd : d = c
    · simp [hd, connectionAfter]
    · rw [if_neg hd, ← hmem]
      exact and_iff_right hd
  · rw [Finset.card_erase_of_mem hheld, ← hcard]
    rfl

/-- INTERNAL: **every step keeps the connections sound and the guards counted**. -/
theorem step_sessions (b b' : Bus C) (l : BusStep C) (hb : Sessions b)
    (h : b.step l = some b') : Sessions b' := by
  cases step_stepped b b' l h with
  | requested c body hlive hidle hafter =>
    subst hafter
    refine ⟨fun d => ?_, counted_of_same b _ hb.counted (fun d => ?_) rfl⟩ <;>
      by_cases hd : d = c
    · subst hd
      simpa [Bus.assign] using sound_request (b.connection d) body hlive
    · simpa [Bus.assign, hd] using hb.sound d
    · simp [Bus.assign, hd]
    · simp [Bus.assign, hd]
  | disconnected c hlive hidle hafter =>
    subst hafter
    refine ⟨fun d => ?_, counted_of_same b _ hb.counted (fun d => ?_) rfl⟩ <;>
      by_cases hd : d = c
    · subst hd
      simpa [Bus.assign] using sound_disconnect (b.connection d)
    · simpa [Bus.assign, hd] using hb.sound d
    · simp [Bus.assign, hd]
    · simp [Bus.assign, hd]
  | acted c rest a htodo hafter =>
    subst hafter
    have hconn := hb.sound c
    have hmem : a ∈ (b.connection c).todo := by
      rw [htodo]
      exact List.mem_cons_self
    refine ⟨fun d => ?_, ?_⟩
    · rw [act_connection]
      by_cases hd : d = c
      · rw [hd, Function.update_self]
        exact sound_after _ _ _ rest a hconn htodo
      · rw [Function.update_of_ne hd]
        exact hb.sound d
    · cases a with
      | enterStream => exact counted_enter b c rest hb.counted (hconn.enters hmem).1
      | exitStream => exact counted_exit b c rest hb.counted (hconn.exits hmem).1
      | _ =>
        refine counted_of_same b _ hb.counted (fun d => ?_) rfl
        rw [act_guard]
        by_cases hd : d = c
        · rw [if_pos hd, hd]
          rfl
        · rw [if_neg hd]
  | streamed _ hsent hafter =>
    refine ⟨fun d => ?_, counted_of_same b b' hb.counted (fun d => ?_) hafter.activeStreams⟩
    · rw [hafter.connection]
      exact hb.sound d
    · rw [hafter.connection]

/-! ## While a session goes on -/

omit [DecidableEq C] in
/-- INTERNAL: two guards held are two active streams. -/
theorem two_sessions (b : Bus C) (hb : Counted b) (c d : C) (hne : c ≠ d)
    (hc : (b.connection c).streamGuard = true) (hd : (b.connection d).streamGuard = true) :
    b.activeStreams ≠ 1 := by
  obtain ⟨holders, hmem, hcard⟩ := hb
  have hpair : 1 < holders.card :=
    Finset.one_lt_card.mpr ⟨c, (hmem c).mpr hc, d, (hmem d).mpr hd, hne⟩
  omega

/-- INTERNAL: the access changes the level only if it is a store. -/
theorem act_level (b : Bus C) (c : C) (rest : List Action) (a : Action)
    (h : (b.act c rest a).level ≠ b.level) :
    ∃ filter, a = .storeLevel filter ∧ (b.act c rest a).level = filter.toTracing := by
  cases a with
  | storeLevel filter => exact ⟨filter, rfl, u8ToFilter_filterToU8 _⟩
  | _ => exact absurd rfl h

/-- INTERNAL: the connection `c` holds its guard and the step is no request to set the level. -/
def SessionGoesOn (c : C) (b : Bus C) (l : BusStep C) : Prop :=
  (b.connection c).streamGuard = true ∧ ¬ SetsLevel b l

/-- INTERNAL: while a session goes on no new reset comes up. -/
theorem step_noReset (b b' : Bus C) (l : BusStep C) (hb : Sessions b) (c : C)
    (hguard : (b.connection c).streamGuard = true) (hkept : (b'.connection c).streamGuard = true)
    (hnone : ∀ d, ¬ ResetPending b d) (h : b.step l = some b') : ∀ d, ¬ ResetPending b' d := by
  intro d hpending
  obtain ⟨hdropped, filter, rest, htodo⟩ := hpending
  cases step_stepped b b' l h with
  | requested e body hlive hidle hafter =>
    subst hafter
    by_cases hd : d = e
    · subst hd
      simp [Bus.assign, hlive] at hdropped
    · simp only [Bus.assign, Function.update_of_ne hd] at hdropped htodo
      exact hnone d ⟨hdropped, filter, rest, htodo⟩
  | disconnected e hlive hidle hafter =>
    subst hafter
    by_cases hd : d = e
    · subst hd
      simp only [Bus.assign, Function.update_self] at htodo
      split at htodo <;> cases htodo
    · simp only [Bus.assign, Function.update_of_ne hd] at hdropped htodo
      exact hnone d ⟨hdropped, filter, rest, htodo⟩
  | streamed _ hsent hafter =>
    rw [hafter.connection] at hdropped htodo
    exact hnone d ⟨hdropped, filter, rest, htodo⟩
  | acted e left a hbefore hafter =>
    subst hafter
    rw [act_connection] at hdropped htodo
    by_cases hd : d = e
    · subst hd
      rw [Function.update_self] at hdropped htodo
      have hstores : .storeLevel filter ∉ left := by
        have hconn := (hb.sound d).stores filter
        rwa [hbefore] at hconn
      cases a with
      | exitStream =>
        have hmem : .exitStream ∈ (b.connection d).todo := by
          rw [hbefore]
          exact List.mem_cons_self
        have hheld := ((hb.sound d).exits hmem).1
        have hne : c ≠ d := by
          rintro rfl
          rw [act_guard, if_pos rfl] at hkept
          cases hkept
        -- the guard of `c` is counted, so this was not the last one
        have hmany := two_sessions b hb.counted c d hne hguard hheld
        simp only [connectionAfter, if_neg hmany] at htodo
        rw [htodo] at hstores
        exact hstores List.mem_cons_self
      | _ =>
        change left = .storeLevel filter :: rest at htodo
        rw [htodo] at hstores
        exact hstores List.mem_cons_self
    · rw [Function.update_of_ne hd] at hdropped htodo
      exact hnone d ⟨hdropped, filter, rest, htodo⟩

/-- INTERNAL: what is kept of the level while the session of `c` goes on. -/
structure LevelStays (c : C) (kept : LevelFilter) (b : Bus C) : Prop where
  sessions : Sessions b
  level : b.level = kept
  spared : (b.connection c).streamGuard = true → kept = .off ∨ ∀ d, ¬ ResetPending b d

/-- INTERNAL: what one step preserves. -/
theorem step_levelStays (c : C) (kept : LevelFilter) (b : Bus C) (l : BusStep C) (b' : Bus C)
    (hb : LevelStays c kept b) (hgoes : SessionGoesOn c b l) (h : b.step l = some b') :
    LevelStays c kept b' := by
  have hspared := hb.spared hgoes.1
  refine ⟨step_sessions b b' l hb.sessions h, ?_, fun hkept => ?_⟩
  · cases step_stepped b b' l h with
    | requested e body hlive hidle hafter =>
      rw [hafter]
      exact hb.level
    | disconnected e hlive hidle hafter =>
      rw [hafter]
      exact hb.level
    | streamed _ hsent hafter =>
      rw [hafter.level_same]
      exact hb.level
    | acted e left a hbefore hafter =>
      subst hafter
      by_contra hchanged
      rw [← hb.level] at hchanged
      obtain ⟨filter, ha, hstored⟩ := act_level b e left a hchanged
      subst ha
      -- a store of the level is no request here, so it is a reset's
      have hdropped : (b.connection e).dropped = true := by
        by_contra hlive
        exact hgoes.2 ⟨eq_false_of_ne_true hlive, filter, left, hbefore⟩
      cases hspared with
      | inl hoff =>
        have hmem : .storeLevel filter ∈ (b.connection e).todo := by
          rw [hbefore]
          exact List.mem_cons_self
        have hfilter := ((hb.sessions.sound e).resets hdropped filter hmem).2
        rw [hstored, hfilter, hb.level, hoff] at hchanged
        exact hchanged rfl
      | inr hnone => exact hnone e ⟨hdropped, filter, left, hbefore⟩
  · cases hspared with
    | inl hoff => exact Or.inl hoff
    | inr hnone => exact Or.inr (step_noReset b b' l hb.sessions c hgoes.1 hkept hnone h)

/-- INTERNAL: a reset that is pending can hit at once. -/
theorem pending_hits (b : Bus C) (hb : Sessions b) (c d : C)
    (hguard : (b.connection c).streamGuard = true) (hpending : ResetPending b d) :
    ∃ b', b.step (.perform d) = some b' ∧ ¬ SetsLevel b (.perform d) ∧
      (b'.connection c).streamGuard = true ∧ b'.level = .off := by
  obtain ⟨hdropped, filter, rest, htodo⟩ := hpending
  have hmem : .storeLevel filter ∈ (b.connection d).todo := by
    rw [htodo]
    exact List.mem_cons_self
  obtain ⟨hreleased, hoff⟩ := (hb.sound d).resets hdropped filter hmem
  have hne : c ≠ d := by
    rintro rfl
    rw [hguard] at hreleased
    cases hreleased
  refine ⟨b.act d rest (.storeLevel filter), by simp only [Bus.step, htodo], ?_, ?_, ?_⟩
  · intro hsets
    have hlive := hsets.1
    rw [hdropped] at hlive
    cases hlive
  · rw [act_guard, if_neg hne]
    exact hguard
  · rw [hoff]
    rfl

/-- CODE: server.rs:109-148, 191-230 — **the active streams are the connections that hold a
guard, and the level of a session goes on exactly when it is OFF or no reset is pending**:
every step after may be anyone's, but no request to set the level. -/
theorem idle_reset_spares_iff (level : LevelFilter) (chance : F64) (steps : List (BusStep C))
    (b : Bus C) (hrun : run Bus.step (Bus.new level chance) steps = some b) :
    (∃ holders : Finset C,
      (∀ c, c ∈ holders ↔ (b.connection c).streamGuard = true) ∧
        b.activeStreams = holders.card) ∧
    ∀ c, (b.connection c).streamGuard = true →
      ((∀ later b', run Bus.step b later = some b' →
          RunsUnder Bus.step (SessionGoesOn c) b later →
          (b'.connection c).streamGuard = true → b'.level = b.level) ↔
        (b.level = .off ∨ ∀ d, ¬ ResetPending b d)) := by
  have hb : Sessions b := run_invariant Bus.step Sessions
    (fun b l b' hb h => step_sessions b b' l hb h) (Bus.new level chance) steps b
    (sessions_new level chance) hrun
  refine ⟨hb.counted, fun c hguard => ⟨fun hstays => ?_, fun hspared => ?_⟩⟩
  · by_cases hnone : ∀ d, ¬ ResetPending b d
    · exact Or.inr hnone
    · push Not at hnone
      obtain ⟨d, hpending⟩ := hnone
      obtain ⟨b', hstep, hsets, hkept, hoff⟩ := pending_hits b hb c d hguard hpending
      have hsame := hstays [.perform d] b' (by rw [run_cons, hstep]; rfl)
        ⟨⟨hguard, hsets⟩, fun _ _ => trivial⟩ hkept
      exact Or.inl (by rw [← hsame, hoff])
  · intro later b' hlater hgoes _
    have hkept := run_invariant_under Bus.step (SessionGoesOn c) (LevelStays c b.level)
      (fun b l b' hb hgoes h => step_levelStays c _ b l b' hb hgoes h) b later b'
      ⟨hb, rfl, fun _ => hspared⟩ hgoes hlater
    exact hkept.level

/-! ## A session that is hit and one that is not -/

/-- INTERNAL: the connection starts its stream. -/
def opensSession (c : Bool) : List (BusStep Bool) :=
  [.request c .startStream, .perform c, .perform c, .perform c]

/-- INTERNAL: a console leaves, and before its reset has begun to store another one starts a
stream and sets the level. -/
def handover : List (BusStep Bool) :=
  opensSession false ++ [.disconnect false, .perform false] ++ opensSession true ++
    [.request true (.setCacheLevel .info), .perform true, .perform true]

/-- CODE: server.rs:117-148 — the second console has its stream and INFO, and the reset of the
first then turns the cache off. -/
theorem idle_reset_hits_session :
    ∃ b b', run Bus.step (Bus.new .off F64.hundred) handover = some b ∧
      (b.connection true).streamGuard = true ∧ (b.connection true).todo = [] ∧ b.level = .info ∧
      run Bus.step b [.perform false] = some b' ∧
      RunsUnder Bus.step (SessionGoesOn true) b [.perform false] ∧
      (b'.connection true).streamGuard = true ∧ b'.level = .off := by
  refine ⟨_, _, rfl, by decide, by decide, by decide, rfl, ⟨⟨by decide, ?_⟩, fun _ _ => trivial⟩,
    by decide, by decide⟩
  intro hsets
  exact absurd hsets.1 (by decide)

/-- INTERNAL: the same console alone. -/
def firstConsole : List (BusStep Bool) :=
  opensSession true ++ [.request true (.setCacheLevel .info), .perform true, .perform true]

/-- CODE: server.rs:109-148 — a console that comes while nobody leaves. -/
theorem idle_reset_spares_first_console :
    ∃ b, run Bus.step (Bus.new .off F64.hundred) firstConsole = some b ∧
      (b.connection true).streamGuard = true ∧ b.level = .info ∧ b.activeStreams = 1 ∧
      ∀ later b', run Bus.step b later = some b' →
        RunsUnder Bus.step (SessionGoesOn true) b later →
        (b'.connection true).streamGuard = true → b'.level = .info := by
  refine ⟨_, rfl, by decide, by decide, by decide, ?_⟩
  have hspares := (idle_reset_spares_iff .off F64.hundred firstConsole _ rfl).2 true (by decide)
  refine hspares.mpr (Or.inr ?_)
  intro d hpending
  cases d with
  | false => exact absurd hpending.1 (by decide)
  | true => exact absurd hpending.1 (by decide)

end TracingConsole.Analysis.LevelBus
