import TracingConsole.Analysis.IdleReset
import TracingConsole.Analysis.RecordedSpans
import TracingConsole.Library.Since
import TracingConsole.Model.Predicate

/-!
# Every recorded span was asked for

The threads of the program call the cache while clients of the host set its level and its chance.
What is recorded was let through by both: for each record the run has the step at which its
chance was rolled and the step at which its level was looked up, and the handles held values then
that let it through (`recorded_spans_passed`).  Where the handles let nothing through for a while,
nothing is recorded (`closed_filters_record_nothing`).

Every run of this machine is a run of the cache alone (`world_run`), so all that is known of the
records of a cache is known of these.
-/

set_option autoImplicit false

namespace TracingConsole.Analysis.Filters

open TracingConsole.Library TracingConsole.Model TracingConsole.Analysis.LevelBus

variable {T C : Type} [DecidableEq T] [DecidableEq C]

/-! ## The answers of a predicate agree -/

/-- INTERNAL: what a callsite is told once and for all is what it would be told each time. -/
theorem registerCallsite_eq (byte : ℕ) (pct roll : F64) (metadata : Metadata) :
    registerCallsite (chancePredicate pct roll (levelPredicate byte)) metadata =
      if eventEnabled (chancePredicate pct roll (levelPredicate byte)) metadata then .always
      else .never := by
  simp only [registerCallsite, eventEnabled, chancePredicate, levelPredicate, LevelFilter.admits]
  split
  · simp
  · split <;> simp_all

/-- INTERNAL: no callsite beyond the hint is enabled. -/
theorem enabled_le_hint (byte : ℕ) (pct roll : F64) (top : Option StackedSpan)
    (metadata : Metadata)
    (h : subscriberEnabled (chancePredicate pct roll (levelPredicate byte)) top metadata = true) :
    ∃ hint, (chancePredicate pct roll (levelPredicate byte)).maxLevelHint = some hint ∧
      (LevelFilter.fromLevel metadata.level).verbosity ≤ hint.verbosity := by
  refine ⟨u8ToFilter byte, rfl, ?_⟩
  simp only [subscriberEnabled, chancePredicate, levelPredicate, LevelFilter.admits] at h
  split at h
  · cases h
  · split at h
    · cases h
    · exact of_decide_eq_true h

/-! ## Calls past the predicate -/

/-- INTERNAL: what a call that was let through is about to record. -/
def admitted : Call → Option Opening
  | .enabled o => some o
  | .built o _ => some o
  | .picked o _ _ => some o
  | _ => none

/-- INTERNAL: the record is that of the callsite. -/
def Described : Call → Prop
  | .built o r => r.metadata = o.attrs.metadata
  | .picked o r _ => r.metadata = o.attrs.metadata
  | _ => True

/-- INTERNAL: what a step that is no answer of the predicate does: no call is let through, and
what is recorded was. -/
structure NoAnswer (w w' : World T) : Prop where
  admitted : ∀ t o, admitted (w'.call t) = some o → admitted (w.call t) = some o
  described : (∀ t, Described (w.call t)) → ∀ t, Described (w'.call t)
  resolved : ∀ t o, w.call t = .resolved o → w'.call t = .resolved o
  inserted : w'.inserted = w.inserted ∨ ∃ t o r shard slabIdx, w.call t = .picked o r shard ∧
    w'.call t = .inserted r shard slabIdx ∧ w'.inserted = w.inserted ++ [(o, r)]

omit [DecidableEq T] in
/-- INTERNAL: a step that touches no call and no slot answers none. -/
theorem noAnswer_same (w w' : World T) (hcall : w'.call = w.call)
    (hinserted : w'.inserted = w.inserted) : NoAnswer w w' where
  admitted t o h := by rwa [hcall] at h
  described h t := by
    rw [hcall]
    exact h t
  resolved t o h := by rwa [hcall]
  inserted := Or.inl hinserted

/-- INTERNAL: a thread that is not at the predicate goes on. -/
theorem noAnswer_setCall (w w' : World T) (t : T) (call : Call)
    (hcall : w'.call = Function.update w.call t call)
    (hadmitted : ∀ o, admitted call = some o → admitted (w.call t) = some o)
    (hdescribed : Described (w.call t) → Described call)
    (hresolved : ∀ o, w.call t ≠ .resolved o)
    (hinserted : w'.inserted = w.inserted ∨ ∃ t o r shard slabIdx,
      w.call t = .picked o r shard ∧ w'.call t = .inserted r shard slabIdx ∧
        w'.inserted = w.inserted ++ [(o, r)]) : NoAnswer w w' where
  admitted u o h := by
    rw [hcall] at h
    by_cases hu : u = t
    · subst hu
      rw [Function.update_self] at h
      exact hadmitted o h
    · rwa [Function.update_of_ne hu] at h
  described h u := by
    rw [hcall]
    by_cases hu : u = t
    · subst hu
      rw [Function.update_self]
      exact hdescribed (h u)
    · rw [Function.update_of_ne hu]
      exact h u
  resolved u o h := by
    have hu : u ≠ t := by
      intro hut
      subst hut
      exact hresolved o h
    rw [hcall, Function.update_of_ne hu]
    exact h
  inserted := hinserted

/-- INTERNAL: a call that ends, or has not come to the predicate. -/
theorem noAnswer_unadmitted (w w' : World T) (t : T) (call : Call)
    (hcall : w'.call = Function.update w.call t call) (hnone : admitted call = none)
    (hdescribed : Described call) (hresolved : ∀ o, w.call t ≠ .resolved o)
    (hinserted : w'.inserted = w.inserted) : NoAnswer w w' :=
  noAnswer_setCall w w' t call hcall (fun o h => by rw [hnone] at h; cases h)
    (fun _ => hdescribed) hresolved (Or.inl hinserted)

/-- INTERNAL: a call that panics past its filters is answered no more. -/
theorem noAnswer_panic (w : World T) (t : T) (hresolved : ∀ o, w.call t ≠ .resolved o) :
    NoAnswer w (w.panic t) :=
  noAnswer_unadmitted w _ t .panicked rfl rfl trivial hresolved rfl

/-- INTERNAL: nor is one that gives out an id. -/
theorem noAnswer_giveOut (w : World T) (t : T) (id : ℕ) (record : Option SpanRecord)
    (hresolved : ∀ o, w.call t ≠ .resolved o) : NoAnswer w (w.giveOut t id record) :=
  noAnswer_unadmitted w _ t .idle rfl rfl trivial hresolved rfl

/-- INTERNAL: a new span gets a call of its own, or an answer at once.
SRCLINE: cache.rs:368-402 -/
theorem noAnswer_newSpan (w w' : World T) (t : T) (parent : ParentRef) (metadata : Metadata)
    (values : List (String × FieldValue))
    (h : w.step (.newSpan t parent metadata values) = some w') : NoAnswer w w' := by
  simp only [World.step] at h
  split at h
  · next kind hidle hkind =>
    have hresolved : ∀ o, w.call t ≠ .resolved o := by
      intro o ho
      rw [hidle] at ho
      cases ho
    cases h
    unfold World.newSpan
    split
    · exact noAnswer_unadmitted w _ t _ rfl rfl trivial hresolved rfl
    · exact noAnswer_giveOut w t disabledId none hresolved
    · exact noAnswer_panic w t hresolved
  · cases h

/-- INTERNAL: the call of a span let through goes on with an id.
SRCLINE: cache.rs:409-424 -/
theorem noAnswer_allocate (w w' : World T) (t : T) (now : ℕ)
    (h : w.step (.allocate t now) = some w') : NoAnswer w w' := by
  simp only [World.step] at h
  split at h
  · next o henabled =>
    cases h
    unfold World.allocate
    dsimp only
    split
    · exact noAnswer_same w _ rfl rfl
    · refine noAnswer_setCall w _ t _ rfl ?_ (fun _ => rfl) ?_ (Or.inl rfl)
      · intro o' ho'
        rw [henabled]
        exact ho'
      · intro o' ho'
        rw [henabled] at ho'
        cases ho'
  · cases h

/-- INTERNAL: and with a shard.
SRCLINE: cache.rs:425-427 -/
theorem noAnswer_pickShard (w w' : World T) (t : T)
    (h : w.step (.pickShard t) = some w') : NoAnswer w w' := by
  simp only [World.step] at h
  split at h
  · next o r hbuilt =>
    have hgoes (w' : World T) (shard : ℕ)
        (hcall : w'.call = Function.update w.call t (.picked o r shard))
        (hinserted : w'.inserted = w.inserted) : NoAnswer w w' := by
      refine noAnswer_setCall w w' t _ hcall ?_ ?_ ?_ (Or.inl hinserted)
      · intro o' ho'
        rw [hbuilt]
        exact ho'
      · rw [hbuilt]
        exact id
      · intro o' ho'
        rw [hbuilt] at ho'
        cases ho'
    cases h
    unfold World.pickShard
    split
    · exact hgoes _ _ rfl rfl
    · exact hgoes _ _ rfl rfl
  · cases h

/-- INTERNAL: an insertion logs the record the call has built.
SRCLINE: cache.rs:425-446 -/
theorem noAnswer_insert (w w' : World T) (t : T) (slabIdx : ℕ)
    (h : w.step (.insert t slabIdx) = some w') : NoAnswer w w' := by
  simp only [World.step] at h
  split at h
  · next o r shard hpicked =>
    have hresolved : ∀ o, w.call t ≠ .resolved o := by
      intro o' ho'
      rw [hpicked] at ho'
      cases ho'
    split at h
    · cases h
      unfold World.insert
      split
      · refine noAnswer_setCall w _ t (.inserted r shard slabIdx) rfl ?_ (fun _ => trivial)
          hresolved (Or.inr ⟨t, o, r, shard, slabIdx, hpicked, Function.update_self t _ _, rfl⟩)
        intro o' ho'
        cases ho'
      · exact noAnswer_giveOut w t disabledId none hresolved
      · exact noAnswer_panic w t hresolved
    · cases h
  · cases h

/-- INTERNAL: a store keeps the calls of all spans to be.
SRCLINE: cache.rs:447-449 -/
theorem noAnswer_store (w w' : World T) (t : T)
    (h : w.step (.store t) = some w') : NoAnswer w w' := by
  simp only [World.step] at h
  split at h
  · next r shard slabIdx hinserted =>
    have hresolved : ∀ o, w.call t ≠ .resolved o := by
      intro o' ho'
      rw [hinserted] at ho'
      cases ho'
    cases h
    unfold World.store
    split
    · exact noAnswer_unadmitted w _ t (.stored r shard slabIdx) rfl rfl trivial hresolved rfl
    · exact noAnswer_same w _ rfl rfl
    · exact noAnswer_panic w t hresolved
  · cases h

/-- INTERNAL: an enter lets no call through.
SRCLINE: cache.rs:523-536 -/
theorem noAnswer_enter (w w' : World T) (t : T) (n : ℕ)
    (h : w.step (.enter t n) = some w') : NoAnswer w w' := by
  simp only [World.step] at h
  split at h
  · next sp hidle hsp =>
    cases h
    unfold World.enter
    split
    · exact noAnswer_same w _ rfl rfl
    · exact noAnswer_same w _ rfl rfl
    · refine noAnswer_panic w t ?_
      intro o' ho'
      rw [hidle] at ho'
      cases ho'
  · cases h

/-- INTERNAL: an event lets no call through.
SRCLINE: cache.rs:469-521 -/
theorem noAnswer_event (w w' : World T) (t : T) (parent : Option ℕ) (metadata : Metadata)
    (values : List (String × FieldValue)) (now : ℕ)
    (h : w.step (.event t parent metadata values now) = some w') : NoAnswer w w' := by
  have hevent (id : Option ℕ) (record : EventRecord) (hidle : w.call t = .idle) :
      NoAnswer w (w.event t id record) := by
    unfold World.event
    split
    · exact noAnswer_same w _ rfl rfl
    · exact noAnswer_same w _ rfl rfl
    · refine noAnswer_panic w t ?_
      intro o' ho'
      rw [hidle] at ho'
      cases ho'
  cases parent with
  | none =>
    simp only [World.step] at h
    split at h
    · next hidle =>
      cases h
      exact hevent none _ hidle
    · cases h
  | some n =>
    simp only [World.step] at h
    split at h
    · next sp hidle hsp =>
      cases h
      exact hevent (some sp.tracingId) _ hidle
    · cases h

/-- INTERNAL: a close lets no call through.
SRCLINE: cache.rs:542-567 -/
theorem noAnswer_tryClose (w w' : World T) (t : T) (n now : ℕ)
    (h : w.step (.tryClose t n now) = some w') : NoAnswer w w' := by
  simp only [World.step] at h
  split at h
  · next sp hidle hsp =>
    cases h
    unfold World.tryClose
    split
    · exact noAnswer_same w _ rfl rfl
    · exact noAnswer_same w _ rfl rfl
    · refine noAnswer_unadmitted w _ t .panicked rfl rfl trivial ?_ rfl
      intro o' ho'
      rw [hidle] at ho'
      cases ho'
  · cases h

/-- INTERNAL: **only an answer lets a call through**. -/
theorem step_noAnswer (w w' : World T) (a : CacheStep T) (ha : ∀ t b, a ≠ .predicate t b)
    (h : w.step a = some w') : NoAnswer w w' := by
  cases a with
  | predicate t accepts => exact absurd rfl (ha t accepts)
  | newSpan t parent metadata values => exact noAnswer_newSpan w w' t parent metadata values h
  | allocate t now => exact noAnswer_allocate w w' t now h
  | pickShard t => exact noAnswer_pickShard w w' t h
  | insert t slabIdx => exact noAnswer_insert w w' t slabIdx h
  | store t => exact noAnswer_store w w' t h
  | finish t =>
    simp only [World.step] at h
    split at h
    · next r shard slabIdx hstored =>
      cases h
      refine noAnswer_giveOut w t _ _ ?_
      intro o' ho'
      rw [hstored] at ho'
      cases ho'
    · cases h
  | enter t n => exact noAnswer_enter w w' t n h
  | exit t =>
    simp only [World.step] at h
    split at h
    · cases h
      exact noAnswer_same w _ rfl rfl
    · cases h
  | event t parent metadata values now => exact noAnswer_event w w' t parent metadata values now h
  | tryClose t n now => exact noAnswer_tryClose w w' t n now h

omit [DecidableEq C] in
/-- INTERNAL: what an answer does. -/
theorem answer_eq_some (h h' : FilteredHost T C) (t : T) (accepts : Bool) (o : Opening)
    (hcall : h.world.call t = .resolved o) (hstep : h.answer t accepts = some h') :
    h' = { h with
      world := if accepts then h.world.setCall t (.enabled o) else h.world.reject t
      chancePassed := Function.update h.chancePassed t false } := by
  unfold FilteredHost.answer at hstep
  simp only [World.step, hcall, Option.map_some] at hstep
  exact (Option.some.inj hstep).symm

/-- INTERNAL: a run of the cache behind its filters is a run of the cache. -/
theorem world_run (h h' : FilteredHost T C) (steps : List (FilteredStep T C))
    (hrun : run FilteredHost.step h steps = some h') :
    ∃ calls, run World.step h.world calls = some h'.world := by
  refine run_projects FilteredHost.step World.step FilteredHost.world ?_ h steps h' hrun
  intro h a h' hstep
  have hanswer (t : T) (accepts : Bool) (hstep : h.answer t accepts = some h') :
      ∃ b, h.world.step b = some h'.world := by
    obtain ⟨world, hworld, rfl⟩ := Option.map_eq_some_iff.mp hstep
    exact ⟨_, hworld⟩
  cases a with
  | call a =>
    refine Or.inr ?_
    cases a with
    | predicate t accepts => cases hstep
    | _ =>
      obtain ⟨world, hworld, rfl⟩ := Option.map_eq_some_iff.mp hstep
      exact ⟨_, hworld⟩
  | chance t roll =>
    simp only [FilteredHost.step] at hstep
    split at hstep
    · split at hstep
      · cases hstep
        exact Or.inl rfl
      · exact Or.inr (hanswer t false hstep)
    · cases hstep
  | level t =>
    simp only [FilteredHost.step] at hstep
    split at hstep
    · exact Or.inr (hanswer t _ hstep)
    · cases hstep
  | bus a =>
    obtain ⟨bus, hbus, rfl⟩ := Option.map_eq_some_iff.mp hstep
    exact Or.inl rfl

/-! ## Both questions were asked -/

/-- INTERNAL: the chance is rolled for the call of a thread, and lets it through. -/
def ChanceRolled (t : T) (o : Opening) (h : FilteredHost T C) (a : FilteredStep T C) : Prop :=
  ∃ roll, a = .chance t roll ∧ h.world.call t = .resolved o ∧
    passesChance h.bus.chanceHandle roll o.attrs = true

/-- INTERNAL: the level of the call of a thread is looked up, and is let through. -/
def LevelLooked (t : T) (o : Opening) (h : FilteredHost T C) (a : FilteredStep T C) : Prop :=
  a = .level t ∧ h.world.call t = .resolved o ∧
    h.bus.level.admits o.attrs.metadata.level = true

/-- INTERNAL: a thread is in a call, from its predicate to its record.  Two calls of a thread
are never without a state between them in which it is in none. -/
def InCall (t : T) (o : Opening) (h : FilteredHost T C) : Prop :=
  h.world.call t = .resolved o ∨ admitted (h.world.call t) = some o

/-- INTERNAL: a thread puts the record `k` of the log into its slot, after the steps `early`. -/
def RecordedBy (s : FilteredHost T C) (steps : List (FilteredStep T C)) (k : ℕ) (t : T)
    (o : Opening) (r : SpanRecord) (early : List (FilteredStep T C)) : Prop :=
  ∃ a late h h' shard slabIdx, steps = early ++ a :: late ∧
    run FilteredHost.step s early = some h ∧ h.step a = some h' ∧
      h.world.call t = .picked o r shard ∧ h'.world.call t = .inserted r shard slabIdx ∧
        h.world.inserted.length = k ∧ h'.world.inserted = h.world.inserted ++ [(o, r)]

/-- INTERNAL: no span is between the predicate and its record. -/
def Quiet (s : FilteredHost T C) : Prop :=
  ∀ t, admitted (s.world.call t) = none ∧ s.chancePassed t = false

/-- INTERNAL: what has been let through since the state `s` was asked for since then, by the
thread and in the call that was let through. -/
structure Asked (s : FilteredHost T C) (steps : List (FilteredStep T C))
    (h : FilteredHost T C) : Prop where
  passed : ∀ t, h.chancePassed t = true → ∃ o, h.world.call t = .resolved o ∧
    Since FilteredHost.step s (ChanceRolled t o) (InCall t o) steps
  admitted : ∀ t o, admitted (h.world.call t) = some o →
    Since FilteredHost.step s (ChanceRolled t o) (InCall t o) steps ∧
      Since FilteredHost.step s (LevelLooked t o) (InCall t o) steps
  described : ∀ t, Described (h.world.call t)
  log : ∀ k o r, s.world.inserted.length ≤ k → h.world.inserted[k]? = some (o, r) →
    r.metadata = o.attrs.metadata ∧ ∃ t early, RecordedBy s steps k t o r early ∧
      Since FilteredHost.step s (ChanceRolled t o) (InCall t o) early ∧
        Since FilteredHost.step s (LevelLooked t o) (InCall t o) early
  kept : s.world.inserted <+: h.world.inserted

/-- INTERNAL: nothing is asked of a quiet host. -/
theorem asked_start (s : FilteredHost T C) (hquiet : Quiet s) : Asked s [] s where
  passed t ht := by
    rw [(hquiet t).2] at ht
    cases ht
  admitted t o ho := by
    rw [(hquiet t).1] at ho
    cases ho
  described t := by
    have hnone := (hquiet t).1
    cases hcall : s.world.call t with
    | built o r =>
      rw [hcall] at hnone
      cases hnone
    | picked o r shard =>
      rw [hcall] at hnone
      cases hnone
    | _ => trivial
  log k o r hk hget := by
    have hlt := (List.getElem?_eq_some_iff.mp hget).1
    omega
  kept := List.prefix_rfl

/-- INTERNAL: a record of the log stays recorded. -/
theorem RecordedBy.snoc (s : FilteredHost T C) (steps : List (FilteredStep T C)) (k : ℕ) (t : T)
    (o : Opening) (r : SpanRecord) (early : List (FilteredStep T C)) (a : FilteredStep T C)
    (h : RecordedBy s steps k t o r early) : RecordedBy s (steps ++ [a]) k t o r early := by
  obtain ⟨b, late, h₁, h₂, shard, slabIdx, hsplit, hrest⟩ := h
  refine ⟨b, late ++ [a], h₁, h₂, shard, slabIdx, ?_, hrest⟩
  rw [hsplit, List.append_assoc, List.cons_append]

/-- INTERNAL: the log before the last step. -/
theorem Asked.logged (s h : FilteredHost T C) (steps : List (FilteredStep T C))
    (a : FilteredStep T C) (hasked : Asked s steps h) (k : ℕ) (o : Opening) (r : SpanRecord)
    (hk : s.world.inserted.length ≤ k) (hget : h.world.inserted[k]? = some (o, r)) :
    r.metadata = o.attrs.metadata ∧ ∃ t early, RecordedBy s (steps ++ [a]) k t o r early ∧
      Since FilteredHost.step s (ChanceRolled t o) (InCall t o) early ∧
        Since FilteredHost.step s (LevelLooked t o) (InCall t o) early := by
  obtain ⟨hmeta, t, early, hby, hasked⟩ := hasked.log k o r hk hget
  exact ⟨hmeta, t, early, hby.snoc s steps k t o r early a, hasked⟩

/-- INTERNAL: a step that answers nothing; `hpassed` says whose chance has been rolled. -/
theorem Asked.noAnswer (s h h' : FilteredHost T C) (steps : List (FilteredStep T C))
    (a : FilteredStep T C) (hrun : run FilteredHost.step s steps = some h)
    (hstep : h.step a = some h') (hasked : Asked s steps h) (hworld : NoAnswer h.world h'.world)
    (hpassed : ∀ t, h'.chancePassed t = true → h.chancePassed t = true ∨
      ∃ o, h'.world.call t = .resolved o ∧ ChanceRolled t o h a) :
    Asked s (steps ++ [a]) h' := by
  have hwhole := (run_snoc_eq_some FilteredHost.step s steps a h').mpr ⟨h, hrun, hstep⟩
  refine ⟨fun t ht => ?_, fun t o ho => ?_, hworld.described hasked.described,
    fun k o r hk hget => ?_, ?_⟩
  · rcases hpassed t ht with hold | ⟨o, ho, hrolled⟩
    · obtain ⟨o, ho, hrolled⟩ := hasked.passed t hold
      have hstill := hworld.resolved t o ho
      exact ⟨o, hstill, hrolled.later _ _ _ _ steps a h' hwhole (Or.inl hstill)⟩
    · exact ⟨o, ho, since_here _ _ _ _ steps a h h' hrun hrolled hstep (Or.inl ho)⟩
  · obtain ⟨hrolled, hlooked⟩ := hasked.admitted t o (hworld.admitted t o ho)
    exact ⟨hrolled.later _ _ _ _ steps a h' hwhole (Or.inr ho),
      hlooked.later _ _ _ _ steps a h' hwhole (Or.inr ho)⟩
  · rcases hworld.inserted with hsame | ⟨t, o', r', shard, slabIdx, hpicked, hput, hmore⟩
    · rw [hsame] at hget
      exact hasked.logged s h steps a k o r hk hget
    · by_cases hold : k < h.world.inserted.length
      · rw [hmore, List.getElem?_append_left hold] at hget
        exact hasked.logged s h steps a k o r hk hget
      · -- the record that was just inserted
        rw [hmore, List.getElem?_append_right (Nat.le_of_not_lt hold)] at hget
        obtain ⟨hlt, hnew⟩ := List.getElem?_eq_some_iff.mp hget
        rw [List.length_singleton] at hlt
        rw [List.getElem_singleton] at hnew
        cases hnew
        have hdescribed := hasked.described t
        rw [hpicked] at hdescribed
        exact ⟨hdescribed, t, steps, ⟨a, [], h, h', shard, slabIdx, rfl, hrun, hstep, hpicked,
          hput, by omega, hmore⟩, hasked.admitted t o (by rw [hpicked]; rfl)⟩
  · rcases hworld.inserted with hsame | ⟨t, o, r, shard, slabIdx, -, -, hmore⟩
    · rw [hsame]
      exact hasked.kept
    · rw [hmore]
      exact hasked.kept.trans (List.prefix_append _ _)

/-- INTERNAL: an answer, when one that lets the span through follows both questions. -/
theorem Asked.answer (s h h' : FilteredHost T C) (steps : List (FilteredStep T C))
    (a : FilteredStep T C) (hwhole : run FilteredHost.step s (steps ++ [a]) = some h')
    (hasked : Asked s steps h) (t : T) (o : Opening) (accepts : Bool)
    (hcall : h.world.call t = .resolved o) (hstep : h.answer t accepts = some h')
    (haccepts : accepts = true → InCall t o h' →
      Since FilteredHost.step s (ChanceRolled t o) (InCall t o) (steps ++ [a]) ∧
        Since FilteredHost.step s (LevelLooked t o) (InCall t o) (steps ++ [a])) :
    Asked s (steps ++ [a]) h' := by
  have hself (u : T) : (h'.world.call u = if u = t then
      (if accepts then .enabled o else .idle) else h.world.call u) ∧
      h'.chancePassed u = if u = t then false else h.chancePassed u := by
    rw [answer_eq_some h h' t accepts o hcall hstep]
    by_cases hu : u = t
    · subst hu
      cases accepts <;> simp [World.setCall, World.reject, World.giveOut]
    · cases accepts <;> simp [World.setCall, World.reject, World.giveOut, hu]
  have hinserted : h'.world.inserted = h.world.inserted := by
    rw [answer_eq_some h h' t accepts o hcall hstep]
    cases accepts <;> rfl
  refine ⟨fun u hu => ?_, fun u o' ho' => ?_, fun u => ?_, fun k o' r hk hget => ?_,
    hinserted ▸ hasked.kept⟩
  · rw [(hself u).2] at hu
    split at hu
    · cases hu
    · next hne =>
      obtain ⟨o', ho', hrolled⟩ := hasked.passed u hu
      have hstill : h'.world.call u = .resolved o' := by
        rw [(hself u).1, if_neg hne]
        exact ho'
      exact ⟨o', hstill, hrolled.later _ _ _ _ steps a h' hwhole (Or.inl hstill)⟩
  · have hin : InCall u o' h' := Or.inr ho'
    rw [(hself u).1] at ho'
    split at ho'
    · next hut =>
      cases accepts with
      | true =>
        cases ho'
        subst hut
        exact haccepts rfl hin
      | false => cases ho'
    · obtain ⟨hrolled, hlooked⟩ := hasked.admitted u o' ho'
      exact ⟨hrolled.later _ _ _ _ steps a h' hwhole hin,
        hlooked.later _ _ _ _ steps a h' hwhole hin⟩
  · rw [(hself u).1]
    split
    · cases accepts <;> trivial
    · exact hasked.described u
  · rw [hinserted] at hget
    exact hasked.logged s h steps a k o' r hk hget

/-- INTERNAL: **what a step lets through was asked for.** -/
theorem Asked.step (s h h' : FilteredHost T C) (steps : List (FilteredStep T C))
    (a : FilteredStep T C) (hrun : run FilteredHost.step s steps = some h)
    (hasked : Asked s steps h) (hstep : h.step a = some h') : Asked s (steps ++ [a]) h' := by
  have hwhole := (run_snoc_eq_some FilteredHost.step s steps a h').mpr ⟨h, hrun, hstep⟩
  have hquiet := hasked.noAnswer s h h' steps a hrun hstep
  cases a with
  | call a =>
    have hcalled (ha : ∀ t b, a ≠ .predicate t b)
        (hstep : (h.world.step a).map (fun world => { h with world := world }) = some h') :
        Asked s (steps ++ [.call a]) h' := by
      obtain ⟨world, hworld, rfl⟩ := Option.map_eq_some_iff.mp hstep
      exact hquiet (step_noAnswer h.world world a ha hworld) fun t ht => Or.inl ht
    cases a with
    | predicate t accepts => cases hstep
    | _ => exact hcalled (fun _ _ hno => by cases hno) hstep
  | bus a =>
    obtain ⟨bus, hbus, rfl⟩ := Option.map_eq_some_iff.mp hstep
    exact hquiet (noAnswer_same h.world h.world rfl rfl) fun t ht => Or.inl ht
  | chance t roll =>
    simp only [FilteredHost.step] at hstep
    split at hstep
    · next o hcall hnone =>
      split at hstep
      · next hpasses =>
        cases hstep
        refine hquiet (noAnswer_same h.world h.world rfl rfl) fun u hu => ?_
        by_cases hut : u = t
        · subst hut
          exact Or.inr ⟨o, hcall, roll, rfl, hcall, hpasses⟩
        · dsimp only at hu
          rw [Function.update_of_ne hut] at hu
          exact Or.inl hu
      · exact hasked.answer s h h' steps _ hwhole t o false hcall hstep fun hno => by cases hno
    · cases hstep
  | level t =>
    have hlevel := hstep
    simp only [FilteredHost.step] at hstep
    split at hstep
    · next o hcall hpassed =>
      refine hasked.answer s h h' steps _ hwhole t o _ hcall hstep fun haccepts hin => ⟨?_, ?_⟩
      · obtain ⟨o', ho', hrolled⟩ := hasked.passed t hpassed
        rw [hcall] at ho'
        cases ho'
        exact hrolled.later _ _ _ _ steps _ h' hwhole hin
      · exact since_here _ _ _ _ steps _ h h' hrun ⟨rfl, hcall, haccepts⟩ hlevel hin
    · cases hstep

/-- INTERNAL: what a whole run has asked. -/
theorem asked_run (s h : FilteredHost T C) (hquiet : Quiet s) (steps : List (FilteredStep T C))
    (hrun : run FilteredHost.step s steps = some h) : Asked s steps h := by
  induction steps using List.reverseRecOn generalizing h with
  | nil =>
    cases hrun
    exact asked_start s hquiet
  | append_singleton steps a ih =>
    obtain ⟨h₁, hbefore, hstep⟩ := (run_snoc_eq_some FilteredHost.step s steps a h).mp hrun
    exact (ih h₁ hbefore).step s h₁ h steps a hbefore hstep

/-- INTERNAL: the dice of a root, and the chance they are held against. -/
def RootRolled (t : T) (o : Opening) (h : FilteredHost T C) (a : FilteredStep T C) : Prop :=
  ∃ roll, a = .chance t roll ∧ h.world.call t = .resolved o ∧
    h.bus.chanceHandle.le F64.zero = false ∧
      (h.bus.chanceHandle.lt F64.hundred = true → h.bus.chanceHandle.le roll = false)

omit [DecidableEq T] [DecidableEq C] in
/-- INTERNAL: a root has its own chance rolled. -/
theorem rootRolled_of (t : T) (o : Opening) (h : FilteredHost T C) (a : FilteredStep T C)
    (hroot : o.attrs.parent = .root) (hrolled : ChanceRolled t o h a) : RootRolled t o h a := by
  obtain ⟨roll, ha, hcall, hpasses⟩ := hrolled
  refine ⟨roll, ha, hcall, ?_⟩
  rw [passesChance, if_pos hroot] at hpasses
  split at hpasses
  · cases hpasses
  · next hpositive =>
    refine ⟨by simpa using hpositive, fun hlt => ?_⟩
    rw [if_pos hlt] at hpasses
    simpa using hpasses

/-- INTERNAL: the records of a host are those of a cache. -/
theorem recorded_of_run (cache : SpanCache) (capacity : ℕ) (config : CacheConfig)
    (hcache : SpanCache.withConfig capacity config = some cache) (key : ℕ) (keys : T → ℕ)
    (level : LevelFilter) (chance : F64) (steps : List (FilteredStep T C)) (s : FilteredHost T C)
    (hrun : run FilteredHost.step (FilteredHost.start cache key keys level chance) steps = some s) :
    Recorded s.world := by
  obtain ⟨calls, hcalls⟩ := world_run _ s steps hrun
  refine run_invariant World.step Recorded ?_ (World.start cache key keys) calls s.world
    (recorded_start capacity config cache hcache key keys) hcalls
  intro w a w' h hstep
  exact h.move w w' a (step_moves w w' h.placed a hstep)

/-- CODE: predicate.rs:93-130, 231-267, cache.rs:368-450 — **every recorded span was asked for**:
over any part of a run that begins with no span past the predicate, each record that is new at
its end was put into its slot by a thread whose call had its level looked up in that part and was
admitted by the filter of that moment; and for each root among them the chance was rolled for in
that call while it was above zero, and the dice fell below it if it was below a hundred. -/
theorem recorded_spans_passed (cache : SpanCache) (capacity : ℕ) (config : CacheConfig)
    (hcache : SpanCache.withConfig capacity config = some cache) (key : ℕ) (keys : T → ℕ)
    (level : LevelFilter) (chance : F64) (before after : List (FilteredStep T C))
    (s s' : FilteredHost T C)
    (hbefore : run FilteredHost.step (FilteredHost.start cache key keys level chance) before =
      some s) (hquiet : Quiet s) (hafter : run FilteredHost.step s after = some s') (k : ℕ)
    (o : Opening) (r : SpanRecord) (hnew : s.world.inserted.length ≤ k)
    (hk : s'.world.inserted[k]? = some (o, r)) :
    r.metadata = o.attrs.metadata ∧ ∃ t early, RecordedBy s after k t o r early ∧
      Since FilteredHost.step s (LevelLooked t o) (InCall t o) early ∧
        (r.parentId = none →
          Since FilteredHost.step s (RootRolled t o) (InCall t o) early) := by
  obtain ⟨hmeta, t, early, hby, hrolled, hlooked⟩ :=
    (asked_run s s' hquiet after hafter).log k o r hnew hk
  refine ⟨hmeta, t, early, hby, hlooked, fun hnone => ?_⟩
  have hrecorded := recorded_of_run cache capacity config hcache key keys level chance
    (before ++ after) s' (by rw [run_append, hbefore]; exact hafter)
  obtain ⟨hrooted, hparent⟩ := hrecorded.log k o r hk
  exact hrolled.mono _ _ _ _ _ early fun h a =>
    rootRolled_of t o h a (hrooted.root (by rw [← hparent, hnone])).1

/-! A client of the host starts its stream and asks for INFO, and a root comes with a chance of
a half. -/

/-- INTERNAL: the literals `50.0` and `25.0`. -/
def fifty : F64 := ⟨0x4049000000000000#64⟩

/-- INTERNAL: a chance of twenty-five percent. -/
def twentyFive : F64 := ⟨0x4039000000000000#64⟩

/-- INTERNAL: the client. -/
def watching : List (FilteredStep Bool Bool) :=
  [.bus (.request false .startStream), .bus (.perform false), .bus (.perform false),
    .bus (.perform false), .bus (.request false (.setCacheLevel .info)), .bus (.perform false),
    .bus (.perform false)]

/-- INTERNAL: the root. -/
def rootRecorded : List (FilteredStep Bool Bool) :=
  let callsite : Metadata := { name := "span", target := "app", level := .info }
  [.call (.newSpan false .root callsite []), .chance false twentyFive, .level false,
    .call (.allocate false 0), .call (.allocate false 0), .call (.pickShard false),
    .call (.insert false 0), .call (.store false), .call (.finish false)]

/-- INTERNAL: a host whose cache is off. -/
def hostOff : FilteredHost Bool Bool := FilteredHost.start twoSlots 0 (fun _ => 0) .off fifty

/-- CODE: predicate.rs:231-267 — the dice gave 25 while the chance was 50. -/
theorem recorded_spans_passed_half :
    ∃ s s' o r t early, run FilteredHost.step hostOff watching = some s ∧
      run FilteredHost.step s rootRecorded = some s' ∧ s'.world.inserted = [(o, r)] ∧
      RecordedBy s rootRecorded 0 t o r early ∧
      Since FilteredHost.step s (RootRolled t o) (InCall t o) early := by
  have hends : ((run FilteredHost.step hostOff watching).bind fun s =>
      (run FilteredHost.step s rootRecorded).map fun s' =>
        (decide (∀ t, (admitted (s.world.call t)).isNone = true ∧ s.chancePassed t = false),
          s.world.inserted.length, s'.world.inserted.map fun x => x.2.parentId)) =
      some (true, 0, [none]) := by
    decide +kernel
  obtain ⟨s, hbefore, hafter⟩ := Option.bind_eq_some_iff.mp hends
  obtain ⟨s', hafter, hread⟩ := Option.map_eq_some_iff.mp hafter
  simp only [Prod.mk.injEq, decide_eq_true_eq, Option.isNone_iff_eq_none] at hread
  obtain ⟨hquiet, hcount, hroot⟩ := hread
  obtain ⟨⟨o, r⟩, hlog, hnone⟩ := List.map_eq_singleton_iff.mp hroot
  obtain ⟨-, t, early, hby, -, hrolled⟩ := recorded_spans_passed twoSlots 2
    { laneCount := 1, pendingBatch := 8 } (by decide) 0 (fun _ => 0) .off fifty watching
    rootRecorded s s' hbefore hquiet hafter 0 o r (by omega) (by rw [hlog]; rfl)
  exact ⟨s, s', o, r, t, early, hbefore, hafter, hlog, hby, hrolled hnone⟩

/-! ## While nothing is let through -/

/-- INTERNAL: the store of a request to set the level. -/
def SetsTheLevel (h : FilteredHost T C) : FilteredStep T C → Prop
  | .bus b => SetsLevel h.bus b
  | _ => False

/-- INTERNAL: the cache is off, and the connections are as they should be. -/
structure IsOff (h : FilteredHost T C) : Prop where
  sessions : Sessions h.bus
  off : h.bus.level = .off

/-- INTERNAL: only a request to set the level turns the cache on again. -/
theorem level_stays_off (b b' : Bus C) (l : BusStep C) (hb : Sessions b)
    (hset : ¬ SetsLevel b l) (h : b.step l = some b') (hoff : b.level = .off) :
    b'.level = .off := by
  cases step_stepped b b' l h with
  | requested c body hlive hidle hafter =>
    rw [hafter]
    exact hoff
  | disconnected c hlive hidle hafter =>
    rw [hafter]
    exact hoff
  | streamed _ hsent hafter =>
    rw [hafter.level_same]
    exact hoff
  | acted c rest a htodo hafter =>
    subst hafter
    by_contra hchanged
    rw [← hoff] at hchanged
    obtain ⟨filter, ha, hstored⟩ := act_level b c rest a hchanged
    subst ha
    -- the store of a live connection is a request's, that of a dropped one is the reset's
    have hdropped : (b.connection c).dropped = true := by
      by_contra hlive
      exact hset ⟨eq_false_of_ne_true hlive, filter, rest, htodo⟩
    have hmem : .storeLevel filter ∈ (b.connection c).todo := by
      rw [htodo]
      exact List.mem_cons_self
    have hfilter := ((hb.sound c).resets hdropped filter hmem).2
    rw [hstored, hfilter, hoff] at hchanged
    exact hchanged rfl

/-- INTERNAL: the steps of a host are steps of its broadcast, or leave it alone. -/
theorem step_bus (h h' : FilteredHost T C) (a : FilteredStep T C) (hstep : h.step a = some h') :
    h'.bus = h.bus ∨ ∃ b, a = .bus b ∧ h.bus.step b = some h'.bus := by
  have hanswer (t : T) (accepts : Bool) (hstep : h.answer t accepts = some h') :
      h'.bus = h.bus := by
    obtain ⟨world, -, rfl⟩ := Option.map_eq_some_iff.mp hstep
    rfl
  cases a with
  | bus b =>
    obtain ⟨bus, hbus, rfl⟩ := Option.map_eq_some_iff.mp hstep
    exact Or.inr ⟨b, rfl, hbus⟩
  | call a =>
    refine Or.inl ?_
    cases a with
    | predicate t accepts => cases hstep
    | _ =>
      obtain ⟨world, -, rfl⟩ := Option.map_eq_some_iff.mp hstep
      rfl
  | chance t roll =>
    simp only [FilteredHost.step] at hstep
    split at hstep
    · split at hstep
      · cases hstep
        exact Or.inl rfl
      · exact Or.inl (hanswer t false hstep)
    · cases hstep
  | level t =>
    simp only [FilteredHost.step] at hstep
    split at hstep
    · exact Or.inl (hanswer t _ hstep)
    · cases hstep

/-- INTERNAL: what one step leaves of the sessions. -/
theorem step_sessionsKept (h h' : FilteredHost T C) (a : FilteredStep T C)
    (hsessions : Sessions h.bus) (hstep : h.step a = some h') : Sessions h'.bus := by
  rcases step_bus h h' a hstep with hsame | ⟨b, -, hbus⟩
  · rw [hsame]
    exact hsessions
  · exact step_sessions h.bus h'.bus b hsessions hbus

/-- INTERNAL: a level that is off stays so until it is set. -/
theorem IsOff.step (h h' : FilteredHost T C) (a : FilteredStep T C) (hoff : IsOff h)
    (hset : ¬ SetsTheLevel h a) (hstep : h.step a = some h') : IsOff h' := by
  refine ⟨step_sessionsKept h h' a hoff.sessions hstep, ?_⟩
  rcases step_bus h h' a hstep with hsame | ⟨b, ha, hbus⟩
  · rw [hsame]
    exact hoff.off
  · subst ha
    exact level_stays_off h.bus h'.bus b hoff.sessions hset hbus hoff.off

/-- INTERNAL: the chain of parents from an entry of the log leads to one of the first `n`. -/
inductive DescendsFrom (n : ℕ) (log : List (Opening × SpanRecord)) : ℕ → Prop
  | old (k : ℕ) (hk : k < n) : DescendsFrom n log k
  | child (k j : ℕ) (o o' : Opening) (r r' : SpanRecord) (hk : log[k]? = some (o, r))
      (hj : log[j]? = some (o', r')) (hlt : j < k) (hparent : r.parentId = some r'.id)
      (hchain : DescendsFrom n log j) : DescendsFrom n log k

/-- CODE: predicate.rs:93-130, 231-267, server.rs:83-148 — **nothing is recorded while nothing is
let through**: from a moment with no span past the predicate on, and whoever comes, goes or asks
for a chance, a cache that is off records nothing until a request sets its level; and while the
chance is not above zero no new trace begins, every new record descends from an old one. -/
theorem closed_filters_record_nothing (cache : SpanCache) (capacity : ℕ) (config : CacheConfig)
    (hcache : SpanCache.withConfig capacity config = some cache) (key : ℕ) (keys : T → ℕ)
    (level : LevelFilter) (chance : F64) (before after : List (FilteredStep T C))
    (s s' : FilteredHost T C)
    (hbefore : run FilteredHost.step (FilteredHost.start cache key keys level chance) before =
      some s) (hquiet : Quiet s) (hafter : run FilteredHost.step s after = some s') :
    (s.bus.level = .off →
      RunsUnder FilteredHost.step (fun h a => ¬ SetsTheLevel h a) s after →
      s'.world.inserted = s.world.inserted) ∧
    (RunsUnder FilteredHost.step (fun h _ => h.bus.chanceHandle.le F64.zero = true) s after →
      ∀ k, k < s'.world.inserted.length →
        DescendsFrom s.world.inserted.length s'.world.inserted k) := by
  have hasked := asked_run s s' hquiet after hafter
  have hrecorded := recorded_of_run cache capacity config hcache key keys level chance
    (before ++ after) s' (by rw [run_append, hbefore]; exact hafter)
  refine ⟨fun hoff hunset => ?_, fun hclosed k hk => ?_⟩
  · have hsessions : Sessions s.bus := run_invariant FilteredHost.step (fun h => Sessions h.bus)
      (fun h a h' hsessions hstep => step_sessionsKept h h' a hsessions hstep) _ before s
      (sessions_new level chance) hbefore
    refine (hasked.kept.eq_of_length ?_).symm
    by_contra hmore
    have hlen := hasked.kept.length_le
    have hget := List.getElem?_eq_getElem
      (show s.world.inserted.length < s'.world.inserted.length by omega)
    generalize s'.world.inserted[s.world.inserted.length] = e at hget
    -- the first new record was looked up in a state of the part, and that was off
    obtain ⟨-, t, early, hby, -, l₁, a, l₂, hsplit, ⟨h, hrun, -, -, hadmits⟩, -⟩ :=
      hasked.log _ e.1 e.2 (Nat.le_refl _) hget
    obtain ⟨b, late, -, -, -, -, hearly, -⟩ := hby
    rw [hearly, hsplit, List.append_assoc] at hunset
    have hbefore := RunsUnder.prefix _ _ s l₁ _ hunset
    have hstill : IsOff h := run_invariant_under FilteredHost.step _ IsOff
      (fun h a h' hoff hset hstep => hoff.step h h' a hset hstep) s l₁ h ⟨hsessions, hoff⟩
      hbefore hrun
    rw [hstill.off] at hadmits
    cases hadmits
  · induction k using Nat.strong_induction_on with
    | _ k ih =>
      by_cases hold : k < s.world.inserted.length
      · exact .old k hold
      · have hget := List.getElem?_eq_getElem hk
        generalize s'.world.inserted[k] = e at hget
        obtain ⟨o, r⟩ := e
        cases hp : r.parentId with
        | none =>
          -- a root was rolled for, in a state of the part
          obtain ⟨hrooted, hparent⟩ := hrecorded.log k o r hget
          obtain ⟨-, t, early, hby, ⟨l₁, a, l₂, hsplit, ⟨h, hrun, hrolled⟩, -⟩, -⟩ :=
            hasked.log k o r (by omega) hget
          obtain ⟨b, late, -, -, -, -, hearly, -⟩ := hby
          rw [hsplit, List.append_assoc, List.cons_append] at hearly
          obtain ⟨roll, -, -, hpositive, -⟩ :=
            rootRolled_of t o h a (hrooted.root (by rw [← hparent, hp])).1 hrolled
          have hzero := RunsUnder.at_step _ _ s h l₁ _ a (by rw [← hearly]; exact hclosed) hrun
          rw [hpositive] at hzero
          cases hzero
        | some p =>
          obtain ⟨j, hlt, o', r', hj, rfl⟩ := hrecorded.parent s'.world k o r p hget hp
          exact .child k j o o' r r' hget hj hlt hp
            (ih j hlt (List.getElem?_eq_some_iff.mp hj).1)

/-! The client leaves, and a child of the root comes. -/

/-- INTERNAL: the client goes, and its reset turns the cache off. -/
def unwatched : List (FilteredStep Bool Bool) :=
  watching ++ rootRecorded ++
    [.bus (.disconnect false), .bus (.perform false), .bus (.perform false)]

/-- INTERNAL: a child of the root; another client connects in between. -/
def childRefused : List (FilteredStep Bool Bool) :=
  let callsite : Metadata := { name := "child", target := "app", level := .error }
  [.call (.newSpan true (.span 0) callsite []), .bus (.request true .startStream),
    .chance true twentyFive, .level true]

/-- INTERNAL: the client asks for a chance of zero instead. -/
def traceless : List (FilteredStep Bool Bool) :=
  watching ++ rootRecorded ++
    [.bus (.request false (.setCacheChance F64.zero)), .bus (.perform false), .bus (.perform false)]

/-- INTERNAL: another root, which is refused, and a child of the first one, which is not. -/
def childRecorded : List (FilteredStep Bool Bool) :=
  let callsite : Metadata := { name := "child", target := "app", level := .error }
  [.call (.newSpan true .root callsite []), .chance true twentyFive,
    .call (.newSpan true (.span 0) callsite []), .chance true twentyFive, .level true,
    .call (.allocate true 1), .call (.allocate true 1), .call (.pickShard true),
    .call (.insert true 1), .call (.store true), .call (.finish true)]

/-- CODE: server.rs:135-148, predicate.rs:93-130 — while the cache is off the child is refused;
while the chance is zero it is recorded, and the root is not. -/
theorem closed_filters_record_nothing_unwatched :
    (∃ s s', run FilteredHost.step hostOff unwatched = some s ∧
      run FilteredHost.step s childRefused = some s' ∧
      s'.world.spans.map Returned.tracingId = [2, 1] ∧
      s'.world.inserted = s.world.inserted) ∧
    ∃ s s', run FilteredHost.step hostOff traceless = some s ∧
      run FilteredHost.step s childRecorded = some s' ∧
      s'.world.spans.map Returned.tracingId = [2, 1, 3] ∧ s.world.inserted.length = 1 ∧
      ∀ k, k < s'.world.inserted.length → DescendsFrom 1 s'.world.inserted k := by
  constructor
  · refine ⟨_, _, rfl, rfl, rfl, ?_⟩
    refine (closed_filters_record_nothing twoSlots 2 { laneCount := 1, pendingBatch := 8 }
      (by decide) 0 (fun _ => 0) .off fifty unwatched childRefused _ _ rfl
      (fun t => by cases t <;> exact ⟨rfl, rfl⟩) rfl).1 rfl (runsUnder_of_forall _ _ _ _ ?_)
    intro h a ha hsets
    simp only [childRefused, List.mem_cons, List.not_mem_nil, or_false] at ha
    rcases ha with rfl | rfl | rfl | rfl <;> exact hsets
  · have hends : ((run FilteredHost.step hostOff traceless).bind fun s =>
        (run FilteredHost.step s childRecorded).map fun s' =>
          (s'.world.spans.map Returned.tracingId, s.world.inserted.length,
            decide (∀ t, (admitted (s.world.call t)).isNone = true ∧ s.chancePassed t = false),
            decide (RunsUnder FilteredHost.step
              (fun h _ => h.bus.chanceHandle.le F64.zero = true) s childRecorded))) =
        some ([2, 1, 3], 1, true, true) := by
      decide +kernel
    obtain ⟨s, hbefore, hafter⟩ := Option.bind_eq_some_iff.mp hends
    obtain ⟨s', hafter, hread⟩ := Option.map_eq_some_iff.mp hafter
    simp only [Prod.mk.injEq, decide_eq_true_eq, Option.isNone_iff_eq_none] at hread
    obtain ⟨hreturned, hcount, hquiet, hzero⟩ := hread
    refine ⟨s, s', hbefore, hafter, hreturned, hcount, ?_⟩
    rw [← hcount]
    exact (closed_filters_record_nothing twoSlots 2 { laneCount := 1, pendingBatch := 8 }
      (by decide) 0 (fun _ => 0) .off fifty traceless childRecorded s s' hbefore hquiet hafter).2
      hzero

end TracingConsole.Analysis.Filters
