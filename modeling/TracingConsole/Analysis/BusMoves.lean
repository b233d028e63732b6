import TracingConsole.Library.Runs
import TracingConsole.Model.LevelBus

/-!
# What a step of the level bus does

The level and the chance are each a value with a watch channel: a cell.  `step_stepped` says
what a step does to the connections, and `step_moves` that it is a move of both cells.
-/

set_option autoImplicit false

namespace TracingConsole.Analysis.LevelBus

open TracingConsole.Library TracingConsole.Model

variable {C : Type} [DecidableEq C]

/-! ## The two cells -/

/-- INTERNAL: the level about to be sent. -/
def sendsLevel : List Action → Option WireLevelFilter
  | .sendLevel filter :: _ => some filter
  | _ => none

/-- INTERNAL: the chance about to be sent. -/
def sendsChance : List Action → Option F64
  | .sendChance pct :: _ => some pct
  | _ => none

omit [DecidableEq C] in
/-- INTERNAL: the level as the cache applies it and as the clients hear of it. -/
def levelCell (b : Bus C) : Cell C WireLevelFilter :=
  { applied := WireLevelFilter.fromTracing b.level
    watch := b.levelTx
    sending := fun c => sendsLevel (b.connection c).todo
    receivers := b.streams.filterMap SpanStream.levelRx }

/-- INTERNAL: the chance as the cache applies it and as the clients hear of it. -/
def chanceCell (b : Bus C) : Cell C F64 :=
  { applied := b.chanceHandle
    watch := b.chanceTx
    sending := fun c => sendsChance (b.connection c).todo
    receivers := b.streams.filterMap SpanStream.chanceRx }

/-- INTERNAL: the level a step sends, and the connection that does. -/
def sentLevel (b : Bus C) : BusStep C → Option (C × WireLevelFilter)
  | .perform c => (sendsLevel (b.connection c).todo).map fun filter => (c, filter)
  | _ => none

/-- INTERNAL: the chance a step sends, and the connection that does. -/
def sentChance (b : Bus C) : BusStep C → Option (C × F64)
  | .perform c => (sendsChance (b.connection c).todo).map fun pct => (c, pct)
  | _ => none

/-! ## Stores are followed by their sends -/

/-- INTERNAL: what follows an access. -/
def Follows (rest : List Action) : Action → Prop
  | .storeLevel filter => sendsLevel rest = some filter ∧ sendsChance rest = none
  | .storeChance pct =>
    sendsLevel rest = none ∧ sendsChance rest = some pct ∧ clampPct pct = pct
  | _ => sendsLevel rest = none ∧ sendsChance rest = none

/-- INTERNAL: every store is followed by the send of its value, and no other access by one. -/
def Paired : List Action → Prop
  | [] => True
  | a :: rest => Follows rest a ∧ Paired rest

/-- INTERNAL: a request for a level stores it before it sends it. -/
theorem paired_setLevel (filter : WireLevelFilter) : Paired (setLevel filter) :=
  ⟨⟨rfl, rfl⟩, ⟨rfl, rfl⟩, trivial⟩

/-- INTERNAL: so does one for a chance. -/
theorem paired_setChance (pct : F64) : Paired (setChance pct) :=
  ⟨⟨rfl, rfl, clampPct_clampPct pct⟩, ⟨rfl, rfl⟩, trivial⟩

/-- INTERNAL: so does the reset of an idle host. -/
theorem paired_idleReset : Paired idleReset :=
  ⟨⟨rfl, rfl⟩, ⟨rfl, rfl⟩, ⟨rfl, rfl, by decide⟩, ⟨rfl, rfl⟩, trivial⟩

/-- INTERNAL: a request begins with no send. -/
theorem newRpc_paired (conn : Connection) (body : RequestBody) :
    Paired (conn.newRpc body) ∧ sendsLevel (conn.newRpc body) = none ∧
      sendsChance (conn.newRpc body) = none := by
  cases body with
  | startStream =>
    unfold Connection.newRpc
    cases conn.streamGuard with
    | true => exact ⟨⟨⟨rfl, rfl⟩, ⟨rfl, rfl⟩, trivial⟩, rfl, rfl⟩
    | false => exact ⟨⟨⟨rfl, rfl⟩, ⟨rfl, rfl⟩, ⟨rfl, rfl⟩, trivial⟩, rfl, rfl⟩
  | setCacheLevel filter => exact ⟨paired_setLevel filter, rfl, rfl⟩
  | setCacheChance pct => exact ⟨paired_setChance pct, rfl, rfl⟩

/-- INTERNAL: the accesses a drop makes. -/
theorem drop_paired (guarded : Bool) :
    Paired (if guarded then [.exitStream] else []) ∧
      sendsLevel (if guarded then [.exitStream] else []) = none ∧
      sendsChance (if guarded then [.exitStream] else []) = none := by
  cases guarded with
  | true => exact ⟨⟨⟨rfl, rfl⟩, trivial⟩, rfl, rfl⟩
  | false => exact ⟨trivial, rfl, rfl⟩

/-! ## What a step does to the connections -/

/-- INTERNAL: what is left to do after an access. -/
def leftAfter (b : Bus C) (rest : List Action) : Action → List Action
  | .exitStream => if b.activeStreams = 1 then idleReset else rest
  | _ => rest

/-- INTERNAL: an access leaves the other connections as they are. -/
theorem act_todo (b : Bus C) (c d : C) (rest : List Action) (a : Action) :
    ((b.act c rest a).connection d).todo =
      if d = c then leftAfter b rest a else (b.connection d).todo := by
  by_cases hd : d = c
  · subst hd
    cases a <;> simp [Bus.act, leftAfter]
  · cases a <;> simp [Bus.act, hd]

/-- INTERNAL: nobody sends what they were not about to send before. -/
theorem act_sending {α : Type} (sends : List Action → Option α) (b : Bus C) (c : C)
    (rest : List Action) (a : Action) :
    (fun d => sends ((b.act c rest a).connection d).todo) =
      Function.update (fun d => sends (b.connection d).todo) c (sends (leftAfter b rest a)) := by
  funext d
  rw [act_todo]
  by_cases hd : d = c
  · rw [if_pos hd, hd, Function.update_self]
  · rw [if_neg hd, Function.update_of_ne hd]

/-- INTERNAL: a connection that gets new actions sends by those. -/
theorem assign_sending {α : Type} (sends : List Action → Option α) (b : Bus C) (c : C)
    (conn : Connection) (todo : List Action) :
    (fun d => sends ((b.assign c conn todo).connection d).todo) =
      Function.update (fun d => sends (b.connection d).todo) c (sends todo) := by
  funext d
  by_cases hd : d = c
  · rw [hd, Function.update_self]
    simp [Bus.assign]
  · rw [Function.update_of_ne hd]
    simp [Bus.assign, hd]

/-- INTERNAL: an idle connection that gets something to do which begins with no send. -/
theorem assign_rests {α : Type} (sends : List Action → Option α) (b : Bus C) (c : C)
    (conn : Connection) (todo : List Action) (hidle : sends (b.connection c).todo = none)
    (hfirst : sends todo = none) :
    (fun d => sends ((b.assign c conn todo).connection d).todo) =
      fun d => sends (b.connection d).todo := by
  rw [assign_sending, hfirst, ← hidle]
  exact Function.update_eq_self c fun d => sends (b.connection d).todo

/-! ## What a step does to the cells -/

/-- INTERNAL: an assignment changes neither handle nor channel nor stream. -/
theorem assign_cells (b : Bus C) (c : C) (conn : Connection) (todo : List Action)
    (hidle : (b.connection c).todo = []) (hlevel : sendsLevel todo = none)
    (hchance : sendsChance todo = none) :
    levelCell (b.assign c conn todo) = levelCell b ∧
      chanceCell (b.assign c conn todo) = chanceCell b := by
  have hidleLevel : sendsLevel (b.connection c).todo = none := by
    rw [hidle]
    rfl
  have hidleChance : sendsChance (b.connection c).todo = none := by
    rw [hidle]
    rfl
  constructor
  · simp only [levelCell, assign_rests sendsLevel b c conn todo hidleLevel hlevel]
    rfl
  · simp only [chanceCell, assign_rests sendsChance b c conn todo hidleChance hchance]
    rfl

omit [DecidableEq C] in
/-- INTERNAL: what is left after an access that is no store begins with no send. -/
theorem leftAfter_level (b : Bus C) (rest : List Action) (a : Action) (h : Follows rest a)
    (hstore : ∀ filter, a ≠ .storeLevel filter) : sendsLevel (leftAfter b rest a) = none := by
  cases a with
  | storeLevel filter => exact absurd rfl (hstore filter)
  | exitStream =>
    change sendsLevel (if b.activeStreams = 1 then idleReset else rest) = none
    split
    · rfl
    · exact h.1
  | _ => exact h.1

omit [DecidableEq C] in
/-- INTERNAL: an action that stores no chance leaves none to be sent. -/
theorem leftAfter_chance (b : Bus C) (rest : List Action) (a : Action) (h : Follows rest a)
    (hstore : ∀ pct, a ≠ .storeChance pct) : sendsChance (leftAfter b rest a) = none := by
  cases a with
  | storeChance pct => exact absurd rfl (hstore pct)
  | storeLevel filter => exact h.2
  | exitStream =>
    change sendsChance (if b.activeStreams = 1 then idleReset else rest) = none
    split
    · rfl
    · exact h.2
  | _ => exact h.2

/-- INTERNAL: an access between two that send nothing leaves what everyone is about to send. -/
theorem act_sending_same {α : Type} (sends : List Action → Option α) (b : Bus C) (c : C)
    (rest : List Action) (a : Action) (hbefore : sends (b.connection c).todo = none)
    (hafter : sends (leftAfter b rest a) = none) :
    (fun d => sends ((b.act c rest a).connection d).todo) =
      fun d => sends (b.connection d).todo := by
  rw [act_sending, hafter, ← hbefore]
  exact Function.update_eq_self c fun d => sends (b.connection d).todo

/-- INTERNAL: **every access is a move of the level's cell**. -/
theorem act_level_moves (b : Bus C) (c : C) (rest : List Action) (a : Action)
    (htodo : (b.connection c).todo = a :: rest) (hfollows : Follows rest a) :
    Cell.Moves (levelCell b) (levelCell (b.act c rest a))
      ((sendsLevel (a :: rest)).map fun filter => (c, filter)) := by
  -- the accesses that are neither a store nor a send of the level
  have hrests : (∀ filter, a ≠ .storeLevel filter) → (∀ filter, a ≠ .sendLevel filter) →
      (levelCell (b.act c rest a)).sending = (levelCell b).sending := by
    intro hstore hsend
    refine act_sending_same sendsLevel b c rest a ?_ (leftAfter_level b rest a hfollows hstore)
    rw [htodo]
    cases a with
    | sendLevel filter => exact absurd rfl (hsend filter)
    | _ => rfl
  cases a with
  | storeLevel filter =>
    refine Cell.Moves.applies ⟨⟨c, ?_⟩, rfl, rfl⟩
    have hsending := congrFun (act_sending sendsLevel b c rest (.storeLevel filter)) c
    rw [Function.update_self] at hsending
    change sendsLevel (((b.act c rest (.storeLevel filter)).connection c).todo) ≠ none
    rw [hsending]
    change sendsLevel rest ≠ none
    rw [hfollows.1]
    exact Option.some_ne_none filter
  | sendLevel filter =>
    refine Cell.Moves.sends c filter ⟨?_, rfl, ?_, rfl, rfl⟩
    · change sendsLevel (b.connection c).todo = some filter
      rw [htodo]
      rfl
    · have hsending := act_sending sendsLevel b c rest (.sendLevel filter)
      have hafter : sendsLevel (leftAfter b rest (.sendLevel filter)) = none := hfollows.1
      rw [hafter] at hsending
      exact hsending
  | subscribeChance =>
    refine Cell.Moves.rests ⟨rfl, rfl, rfl, hrests (by simp) (by simp), ?_⟩
    intro r hr
    have hr : r ∈ (b.streams ++ [_]).filterMap SpanStream.levelRx := hr
    rw [List.filterMap_append, List.mem_append] at hr
    cases hr with
    | inl hold => exact Or.inl hold
    | inr hnew =>
      -- a new stream has sent nothing yet
      obtain rfl : r = _ := by simpa using hnew
      exact Or.inr (Or.inl rfl)
  | _ =>
    exact Cell.Moves.rests ⟨rfl, rfl, rfl, hrests (by simp) (by simp), fun r hr => Or.inl hr⟩

/-- INTERNAL: **every access is a move of the chance's cell**. -/
theorem act_chance_moves (b : Bus C) (c : C) (rest : List Action) (a : Action)
    (htodo : (b.connection c).todo = a :: rest) (hfollows : Follows rest a) :
    Cell.Moves (chanceCell b) (chanceCell (b.act c rest a))
      ((sendsChance (a :: rest)).map fun pct => (c, pct)) := by
  have hrests : (∀ pct, a ≠ .storeChance pct) → (∀ pct, a ≠ .sendChance pct) →
      (chanceCell (b.act c rest a)).sending = (chanceCell b).sending := by
    intro hstore hsend
    refine act_sending_same sendsChance b c rest a ?_ (leftAfter_chance b rest a hfollows hstore)
    rw [htodo]
    cases a with
    | sendChance pct => exact absurd rfl (hsend pct)
    | _ => rfl
  cases a with
  | storeChance pct =>
    refine Cell.Moves.applies ⟨⟨c, ?_⟩, rfl, rfl⟩
    have hsending := congrFun (act_sending sendsChance b c rest (.storeChance pct)) c
    rw [Function.update_self] at hsending
    change sendsChance (((b.act c rest (.storeChance pct)).connection c).todo) ≠ none
    rw [hsending]
    change sendsChance rest ≠ none
    rw [hfollows.2.1]
    exact Option.some_ne_none pct
  | sendChance pct =>
    refine Cell.Moves.sends c pct ⟨?_, rfl, ?_, rfl, rfl⟩
    · change sendsChance (b.connection c).todo = some pct
      rw [htodo]
      rfl
    · have hsending := act_sending sendsChance b c rest (.sendChance pct)
      have hafter : sendsChance (leftAfter b rest (.sendChance pct)) = none := hfollows.2
      rw [hafter] at hsending
      exact hsending
  | subscribeChance =>
    refine Cell.Moves.rests ⟨rfl, rfl, rfl, hrests (by simp) (by simp), ?_⟩
    intro r hr
    have hr : r ∈ (b.streams ++ [_]).filterMap SpanStream.chanceRx := hr
    rw [List.filterMap_append, List.mem_append] at hr
    cases hr with
    | inl hold => exact Or.inl hold
    | inr hnew =>
      obtain rfl : r = _ := by simpa using hnew
      exact Or.inr (Or.inl rfl)
  | _ =>
    exact Cell.Moves.rests ⟨rfl, rfl, rfl, hrests (by simp) (by simp), fun r hr => Or.inl hr⟩

/-! ## What a stream does to the cells -/

/-- INTERNAL: a receiver of the streams after one of them was replaced was there before, or is the
one that has just read. -/
theorem receivers_replaced {α : Type} (rx : SpanStream → Option (Receiver α))
    (streams : List SpanStream) (n : ℕ) (old new : SpanStream) (fresh : Receiver α)
    (hn : streams[n]? = some old)
    (hnew : ∀ r, rx new = some r → rx old = some r ∨ r = fresh) :
    ∀ r ∈ (streams.set n new).filterMap rx,
      r ∈ streams.filterMap rx ∨ r.sent = none ∨ r = fresh := by
  intro r hr
  obtain ⟨found, hfound, hrx⟩ := List.mem_filterMap.mp hr
  cases List.mem_or_eq_of_mem_set hfound with
  | inl hold => exact Or.inl (List.mem_filterMap.mpr ⟨found, hold, hrx⟩)
  | inr hfresh =>
    rw [hfresh] at hrx
    cases hnew r hrx with
    | inl hkept =>
      exact Or.inl (List.mem_filterMap.mpr ⟨old, List.mem_of_getElem? hn, hkept⟩)
    | inr hread => exact Or.inr (Or.inr hread)

/-- INTERNAL: one of the streams reads a channel, or drops a receiver. -/
structure Streams (b b' : Bus C) : Prop where
  level : Cell.Rests (levelCell b) (levelCell b')
  chance : Cell.Rests (chanceCell b) (chanceCell b')
  connection : b'.connection = b.connection
  activeStreams : b'.activeStreams = b.activeStreams
  level_same : b'.level = b.level

omit [DecidableEq C] in
/-- INTERNAL: a level that is told leaves the streams. -/
theorem pushLevel_streams (b b' : Bus C) (n : ℕ) (h : b.pushLevel n = some b') :
    Streams b b' := by
  unfold Bus.pushLevel at h
  split at h
  case h_1 level chance hn =>
    split at h
    · cases h
      refine ⟨⟨rfl, rfl, rfl, rfl, ?_⟩, ⟨rfl, rfl, rfl, rfl, ?_⟩, rfl, rfl, rfl⟩
      · exact receivers_replaced SpanStream.levelRx b.streams n _ _ _ hn
          fun r hr => Or.inr (Option.some.inj hr).symm
      · exact receivers_replaced SpanStream.chanceRx b.streams n _ _ _ hn fun r hr => Or.inl hr
    · cases h
  case h_2 => cases h

omit [DecidableEq C] in
/-- INTERNAL: so does a chance. -/
theorem pushChance_streams (b b' : Bus C) (n : ℕ) (h : b.pushChance n = some b') :
    Streams b b' := by
  unfold Bus.pushChance at h
  split at h
  case h_1 level chance hn =>
    split at h
    · cases h
      refine ⟨⟨rfl, rfl, rfl, rfl, ?_⟩, ⟨rfl, rfl, rfl, rfl, ?_⟩, rfl, rfl, rfl⟩
      · exact receivers_replaced SpanStream.levelRx b.streams n _ _ _ hn fun r hr => Or.inl hr
      · exact receivers_replaced SpanStream.chanceRx b.streams n _ _ _ hn
          fun r hr => Or.inr (Option.some.inj hr).symm
    · cases h
  case h_2 => cases h

omit [DecidableEq C] in
/-- INTERNAL: a receiver of levels that goes leaves the streams. -/
theorem dropLevelRx_streams (b b' : Bus C) (n : ℕ) (h : b.dropLevelRx n = some b') :
    Streams b b' := by
  unfold Bus.dropLevelRx at h
  split at h
  case h_1 level chance hn =>
    cases h
    refine ⟨⟨rfl, rfl, rfl, rfl, ?_⟩, ⟨rfl, rfl, rfl, rfl, ?_⟩, rfl, rfl, rfl⟩
    · exact receivers_replaced SpanStream.levelRx b.streams n _ _ _ hn fun _ => nofun
    · exact receivers_replaced SpanStream.chanceRx b.streams n _ _ _ hn fun r hr => Or.inl hr
  case h_2 => cases h

omit [DecidableEq C] in
/-- INTERNAL: so does one of chances. -/
theorem dropChanceRx_streams (b b' : Bus C) (n : ℕ) (h : b.dropChanceRx n = some b') :
    Streams b b' := by
  unfold Bus.dropChanceRx at h
  split at h
  case h_1 level chance hn =>
    cases h
    refine ⟨⟨rfl, rfl, rfl, rfl, ?_⟩, ⟨rfl, rfl, rfl, rfl, ?_⟩, rfl, rfl, rfl⟩
    · exact receivers_replaced SpanStream.levelRx b.streams n _ _ _ hn fun r hr => Or.inl hr
    · exact receivers_replaced SpanStream.chanceRx b.streams n _ _ _ hn fun _ => nofun
  case h_2 => cases h

/-! ## Every step -/

/-- INTERNAL: the ways a step can go. -/
inductive Stepped (b b' : Bus C) : BusStep C → Prop
  | requested (c : C) (body : RequestBody) (hlive : (b.connection c).dropped = false)
      (hidle : (b.connection c).todo = [])
      (h : b' = b.assign c (b.connection c) ((b.connection c).newRpc body)) :
      Stepped b b' (.request c body)
  | disconnected (c : C) (hlive : (b.connection c).dropped = false)
      (hidle : (b.connection c).todo = [])
      (h : b' = b.assign c { b.connection c with dropped := true }
        (if (b.connection c).streamGuard then [.exitStream] else [])) :
      Stepped b b' (.disconnect c)
  | acted (c : C) (rest : List Action) (a : Action)
      (htodo : (b.connection c).todo = a :: rest) (h : b' = b.act c rest a) :
      Stepped b b' (.perform c)
  | streamed (l : BusStep C) (hsent : sentLevel b l = none ∧ sentChance b l = none)
      (h : Streams b b') : Stepped b b' l

/-- INTERNAL: **step inversion**. -/
theorem step_stepped (b b' : Bus C) (l : BusStep C) (h : b.step l = some b') :
    Stepped b b' l := by
  cases l with
  | request c body =>
    simp only [Bus.step] at h
    split at h
    · cases h
    · rename_i hfree
      push Not at hfree
      exact Stepped.requested c body (eq_false_of_ne_true hfree.1) hfree.2
        (Option.some.inj h).symm
  | perform c =>
    simp only [Bus.step] at h
    split at h
    · cases h
    · rename_i a rest htodo
      exact Stepped.acted c rest a htodo (Option.some.inj h).symm
  | disconnect c =>
    simp only [Bus.step] at h
    split at h
    · cases h
    · rename_i hfree
      push Not at hfree
      exact Stepped.disconnected c (eq_false_of_ne_true hfree.1) hfree.2
        (Option.some.inj h).symm
  | pushLevel n => exact Stepped.streamed _ ⟨rfl, rfl⟩ (pushLevel_streams b b' n h)
  | pushChance n => exact Stepped.streamed _ ⟨rfl, rfl⟩ (pushChance_streams b b' n h)
  | dropLevelRx n => exact Stepped.streamed _ ⟨rfl, rfl⟩ (dropLevelRx_streams b b' n h)
  | dropChanceRx n => exact Stepped.streamed _ ⟨rfl, rfl⟩ (dropChanceRx_streams b b' n h)

/-- INTERNAL: an assignment of something that begins with no send is a move of both cells. -/
theorem assign_moves (b : Bus C) (c : C) (conn : Connection) (todo : List Action)
    (hidle : (b.connection c).todo = [])
    (hfirst : Paired todo ∧ sendsLevel todo = none ∧ sendsChance todo = none) :
    Cell.Moves (levelCell b) (levelCell (b.assign c conn todo)) none ∧
      Cell.Moves (chanceCell b) (chanceCell (b.assign c conn todo)) none := by
  obtain ⟨hlevelCell, hchanceCell⟩ := assign_cells b c conn todo hidle hfirst.2.1 hfirst.2.2
  rw [hlevelCell, hchanceCell]
  exact ⟨.rests ⟨rfl, rfl, rfl, rfl, fun _ hr => Or.inl hr⟩,
    .rests ⟨rfl, rfl, rfl, rfl, fun _ hr => Or.inl hr⟩⟩

/-- INTERNAL: paired actions for one connection leave all paired. -/
theorem assign_paired (b : Bus C) (c : C) (conn : Connection) (todo : List Action)
    (hpaired : ∀ d, Paired (b.connection d).todo) (htodo : Paired todo) (d : C) :
    Paired ((b.assign c conn todo).connection d).todo := by
  by_cases hd : d = c
  · rw [hd]
    simpa [Bus.assign] using htodo
  · simpa [Bus.assign, hd] using hpaired d

/-- INTERNAL: **every step is a move of both cells**. -/
theorem step_moves (b b' : Bus C) (l : BusStep C) (hpaired : ∀ c, Paired (b.connection c).todo)
    (h : b.step l = some b') :
    Cell.Moves (levelCell b) (levelCell b') (sentLevel b l) ∧
      Cell.Moves (chanceCell b) (chanceCell b') (sentChance b l) := by
  cases step_stepped b b' l h with
  | requested c body hlive hidle hafter =>
    rw [hafter]
    exact assign_moves b c _ _ hidle (newRpc_paired (b.connection c) body)
  | disconnected c hlive hidle hafter =>
    rw [hafter]
    exact assign_moves b c _ _ hidle (drop_paired (b.connection c).streamGuard)
  | acted c rest a htodo hafter =>
    have hfollows : Follows rest a := by
      have hc := hpaired c
      rw [htodo] at hc
      exact hc.1
    simp only [sentLevel, sentChance, htodo]
    rw [hafter]
    exact ⟨act_level_moves b c rest a htodo hfollows, act_chance_moves b c rest a htodo hfollows⟩
  | streamed _ hsent hafter =>
    rw [hsent.1, hsent.2]
    exact ⟨.rests hafter.level, .rests hafter.chance⟩

/-- INTERNAL: what one step preserves. -/
theorem step_paired (b b' : Bus C) (l : BusStep C) (hpaired : ∀ c, Paired (b.connection c).todo)
    (h : b.step l = some b') : ∀ c, Paired (b'.connection c).todo := by
  intro d
  cases step_stepped b b' l h with
  | requested c body hlive hidle hafter =>
    rw [hafter]
    exact assign_paired b c _ _ hpaired (newRpc_paired (b.connection c) body).1 d
  | disconnected c hlive hidle hafter =>
    rw [hafter]
    exact assign_paired b c _ _ hpaired (drop_paired (b.connection c).streamGuard).1 d
  | acted c rest a htodo hafter =>
    rw [hafter, act_todo]
    by_cases hd : d = c
    · rw [if_pos hd]
      have hc := hpaired c
      rw [htodo] at hc
      cases a with
      | exitStream =>
        change Paired (if b.activeStreams = 1 then idleReset else rest)
        split
        · exact paired_idleReset
        · exact hc.2
      | _ => exact hc.2
    · rw [if_neg hd]
      exact hpaired d
  | streamed _ hsent hafter =>
    rw [hafter.connection]
    exact hpaired d

end TracingConsole.Analysis.LevelBus
