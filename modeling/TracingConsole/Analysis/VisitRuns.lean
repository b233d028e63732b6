import TracingConsole.Analysis.LeavingExplore

/-!
# Visits and late confirmations

The console and the confirmations on their way to it.  The server applies the requests in
order and answers each with its level, as late as it likes; keys are pressed in between.  A
visit remembers the last level confirmed, so what it goes back to depends on which of the
answers to earlier visits have arrived when it begins.
-/

set_option autoImplicit false

namespace TracingConsole.Analysis.Console

open TracingConsole.Library TracingConsole.Model TracingConsole.Model.ConsoleModel

/-! ## A session -/

/-- INTERNAL: the model, the levels requested so far and those still to be confirmed, oldest
first. -/
structure Session where
  model : ConsoleModel
  requested : List WireLevelFilter
  unconfirmed : List WireLevelFilter

/-- INTERNAL: an update of this side, or the next confirmation. -/
inductive SessionStep where
  | update (now : ℕ) (u : Update)
  | confirmation (now : ℕ)

/-- INTERNAL: what the console feeds itself when the keys of the views are picked from the view
that is shown and nobody sets the level by hand. -/
def dispatched (view : ViewMode) : Update → Bool
  | .cacheLevelReceived _ | .requestCacheLevel _ => false
  | .toggleGraph => (exploreState view).isNone
  | .exitTraceDetail =>
    match view with
    | .traceDetail _ => true
    | _ => false
  | _ => true

namespace Session

/-- INTERNAL: a level requested is one to be confirmed. -/
def request (s : Session) (m : ConsoleModel) : Effect → Session
  | .requestSetLevel filter =>
    { model := m
      requested := s.requested ++ [filter]
      unconfirmed := s.unconfirmed ++ [filter] }
  | _ => { s with model := m }

/-- INTERNAL: one step of a session. -/
def step (s : Session) : SessionStep → Option Session
  | .update now u =>
    if dispatched s.model.view u then (s.model.apply now u).map fun r => s.request r.1 r.2
    else none
  | .confirmation now =>
    match s.unconfirmed with
    | [] => none
    | filter :: rest =>
      (s.model.apply now (.cacheLevelReceived filter)).map fun r =>
        { s with model := r.1, unconfirmed := rest }

/-- INTERNAL: the server's level is confirmed and there has been no visit. -/
def start (m : ConsoleModel) : Session := { model := m, requested := [], unconfirmed := [] }

end Session

/-- INTERNAL: outside a visit, the last level requested is the one of the start. -/
def Restored (level : WireLevelFilter) (s : Session) : Prop :=
  exploreState s.model.view = none → ∀ filter, s.requested.getLast? = some filter → filter = level

/-- INTERNAL: a visit that begins finds the level of the start confirmed last. -/
def BeginsConfirmed (level : WireLevelFilter) (s : Session) : SessionStep → Prop
  | .update _ u => BeginsVisit s.model u → s.model.cacheLevel = some level
  | .confirmation _ => True

/-- INTERNAL: a level has been confirmed, and every visit knows one. -/
structure Confirmed (s : Session) : Prop where
  cacheLevel : s.model.cacheLevel ≠ none
  restoreLevel : ∀ es, exploreState s.model.view = some es → es.restoreLevel ≠ none

/-! ## What a step does to a visit -/

/-- INTERNAL: a step begins a visit, ends one, or leaves it and the requests as they are. -/
inductive VisitMove (s : Session) (l : SessionStep) (s' : Session) : Prop
  | stays (hvisit : (exploreState s'.model.view).map ExploreState.restoreLevel =
      (exploreState s.model.view).map ExploreState.restoreLevel)
      (hrequested : s'.requested = s.requested)
      (hbegins : ∀ level, BeginsConfirmed level s l)
  | begins (es : ExploreState) (hnone : exploreState s.model.view = none)
      (hvisit : exploreState s'.model.view = some es)
      (hlevel : es.restoreLevel = s.model.cacheLevel)
      (hbegins : ∀ level, BeginsConfirmed level s l ↔ s.model.cacheLevel = some level)
  | ends (es : ExploreState) (hvisit : exploreState s.model.view = some es)
      (hnone : exploreState s'.model.view = none)
      (hrequested : s'.requested = s.requested ++ [es.restoreLevel.getD .trace])
      (hbegins : ∀ level, BeginsConfirmed level s l)

/-- INTERNAL: no key of a visit abandons it. -/
theorem dispatched_not_abandons (m : ConsoleModel) (u : Update) (es : ExploreState)
    (hvisit : exploreState m.view = some es) (h : dispatched m.view u = true) :
    ¬ Abandons m u := by
  rintro (hu | ⟨hu, es', hview⟩)
  · subst hu
    simp [dispatched, hvisit] at h
  · subst hu
    simp [dispatched, hview] at h

/-- INTERNAL: and none asks for a level. -/
theorem dispatched_not_level (view : ViewMode) (u : Update) (h : dispatched view u = true) :
    (∀ filter, u ≠ .requestCacheLevel filter) ∧ ∀ level, levelAfter level u = level := by
  constructor
  · intro filter hu
    subst hu
    cases h
  · intro level
    cases u with
    | cacheLevelReceived filter => cases h
    | _ => rfl

/-- INTERNAL: outside a visit an update that begins none requests no level. -/
theorem outside_stays (now : ℕ) (m m' : ConsoleModel) (u : Update) (e : Effect)
    (hnone : exploreState m.view = none) (hu : ¬ BeginsVisit m u)
    (h : m.apply now u = some (m', e)) :
    exploreState m'.view = none ∧
      ∀ filter, e = .requestSetLevel filter → u = .requestCacheLevel filter := by
  cases apply_moves now m m' u e h with
  | absorbs span r _ _ _ hview _ he =>
    refine ⟨?_, requests_nothing he⟩
    rcases hview with ⟨hview, -⟩ | ⟨gs, gs', -, hview', -⟩
    · rw [hview, hnone]
    · rw [hview']
      rfl
  | splits keys _ _ hview _ he => exact ⟨by rw [hview, hnone], requests_nothing he⟩
  | shows _ hmove _ =>
    cases hmove with
    | same hview he => exact ⟨by rw [hview, hnone], he⟩
    | charts gs gs' _ hview' _ he => exact ⟨by rw [hview']; rfl, requests_nothing he⟩
    | opens gs _ hview' _ he => exact ⟨by rw [hview']; rfl, requests_nothing he⟩
    | closes _ hview' he => exact ⟨by rw [hview']; rfl, requests_nothing he⟩
    | starts stack hbegins _ _ => exact absurd hbegins hu
    | lists es es' hview _ _ _ _ =>
      rw [hview] at hnone
      cases hnone
    | traces td td' hview _ _ _ =>
      rw [hview] at hnone
      cases hnone
    | descends td hview _ _ =>
      rw [hview] at hnone
      cases hnone
    | ascends td hview _ _ =>
      rw [hview] at hnone
      cases hnone
    | ends es hvisit _ _ =>
      rw [hvisit] at hnone
      cases hnone
    | abandons es hvisit _ _ _ =>
      rw [hvisit] at hnone
      cases hnone

/-- INTERNAL: what is asked of the host leaves the console. -/
theorem request_model (s : Session) (m : ConsoleModel) (e : Effect) :
    (s.request m e).model = m := by
  cases e <;> rfl

/-- INTERNAL: nothing is requested by an effect that is no request for a level. -/
theorem request_quiet (s : Session) (m : ConsoleModel) (e : Effect)
    (he : ∀ filter, e ≠ .requestSetLevel filter) : (s.request m e).requested = s.requested := by
  cases e with
  | requestSetLevel filter => exact absurd rfl (he filter)
  | _ => rfl

/-- INTERNAL: what a step does to a visit. -/
theorem step_visitMove (s s' : Session) (l : SessionStep) (h : s.step l = some s') :
    VisitMove s l s' := by
  cases l with
  | confirmation now =>
    simp only [Session.step] at h
    split at h
    · cases h
    · cases h
      exact VisitMove.stays rfl rfl fun _ => trivial
  | update now u =>
    simp only [Session.step] at h
    split at h
    · rename_i hdispatched
      rw [Option.map_eq_some_iff] at h
      obtain ⟨⟨m', e⟩, happly, hs'⟩ := h
      subst hs'
      have hlevel := dispatched_not_level s.model.view u hdispatched
      have hquiet : (∀ filter, e = .requestSetLevel filter → u = .requestCacheLevel filter) →
          (s.request m' e).requested = s.requested := fun hrequest =>
        request_quiet s m' e fun filter he => hlevel.1 filter (hrequest filter he)
      cases hvisit : exploreState s.model.view with
      | none =>
        by_cases hbegins : BeginsVisit s.model u
        · obtain ⟨⟨stack, hview⟩, -, he⟩ := begins_visit now s.model m' u e hbegins happly
          refine VisitMove.begins (ExploreState.new stack s.model.cacheLevel) hvisit ?_ rfl ?_
          · rw [request_model, hview]
            rfl
          · exact fun level => ⟨fun hok => hok hbegins, fun hok _ => hok⟩
        · obtain ⟨hnone, hrequest⟩ := outside_stays now s.model m' u e hvisit hbegins happly
          refine VisitMove.stays ?_ (hquiet hrequest) fun level hok => absurd hok hbegins
          rw [request_model, hnone, hvisit]
      | some es =>
        have hbegins : ∀ level, BeginsConfirmed level s (.update now u) := by
          intro level hbegins
          rw [hbegins.none] at hvisit
          cases hvisit
        have hkept := dispatched_not_abandons s.model u es hvisit hdispatched
        rcases visit_goes_on now s.model m' u e es hvisit hkept happly with
          ⟨es', hvisit', hrestore, -, hrequest⟩ | ⟨hnone, he⟩
        · refine VisitMove.stays ?_ (hquiet hrequest) hbegins
          rw [request_model, hvisit', hvisit, Option.map_some, Option.map_some, hrestore]
        · subst he
          exact VisitMove.ends es hvisit hnone rfl hbegins
    · cases h

/-! ## The level that is remembered -/

/-- INTERNAL: a confirmed level stays confirmed. -/
theorem step_cacheLevel (s s' : Session) (l : SessionStep) (h : s.step l = some s')
    (hlevel : s.model.cacheLevel ≠ none) : s'.model.cacheLevel ≠ none := by
  cases l with
  | confirmation now =>
    simp only [Session.step] at h
    split at h
    · cases h
    · cases h
      exact Option.some_ne_none _
  | update now u =>
    simp only [Session.step] at h
    split at h
    · rename_i hdispatched
      rw [Option.map_eq_some_iff] at h
      obtain ⟨⟨m', e⟩, happly, hs'⟩ := h
      subst hs'
      have hafter := (dispatched_not_level s.model.view u hdispatched).2
      have hsame : m'.cacheLevel = s.model.cacheLevel := by
        cases apply_moves now s.model m' u e happly with
        | absorbs _ _ _ _ _ _ hsame _ => exact hsame
        | splits _ _ _ _ hsame _ => exact hsame
        | shows _ _ hsame => rw [hsame, hafter]
      rw [request_model, hsame]
      exact hlevel
    · cases h

/-- INTERNAL: what one step preserves. -/
theorem step_confirmed (s s' : Session) (l : SessionStep) (hs : Confirmed s)
    (h : s.step l = some s') : Confirmed s' := by
  refine ⟨step_cacheLevel s s' l h hs.cacheLevel, fun es hes => ?_⟩
  cases step_visitMove s s' l h with
  | stays hvisit _ _ =>
    rw [hes, Option.map_some] at hvisit
    obtain ⟨es₀, hes₀, hsame⟩ := Option.map_eq_some_iff.mp hvisit.symm
    rw [← hsame]
    exact hs.restoreLevel es₀ hes₀
  | begins es₁ _ hvisit hlevel _ =>
    rw [hvisit] at hes
    cases hes
    rw [hlevel]
    exact hs.cacheLevel
  | ends _ _ hnone _ _ =>
    rw [hnone] at hes
    cases hes

/-- INTERNAL: the last level requested is the one of the start, and a visit remembers it. -/
structure Remembered (level : WireLevelFilter) (s : Session) : Prop where
  restored : Restored level s
  restoreLevel : ∀ es, exploreState s.model.view = some es → es.restoreLevel = some level

/-- INTERNAL: while the level is remembered, a step keeps it so exactly when a visit it begins
finds the level confirmed. -/
theorem step_remembered (level : WireLevelFilter) (s s' : Session) (l : SessionStep)
    (hs : Remembered level s) (h : s.step l = some s') :
    BeginsConfirmed level s l ↔ Remembered level s' := by
  cases step_visitMove s s' l h with
  | stays hvisit hrequested hbegins =>
    refine ⟨fun _ => ⟨fun hnone => ?_, fun es hes => ?_⟩, fun _ => hbegins level⟩
    · rw [hnone, Option.map_none] at hvisit
      rw [hrequested]
      exact hs.restored (Option.map_eq_none_iff.mp hvisit.symm)
    · rw [hes, Option.map_some] at hvisit
      obtain ⟨es₀, hes₀, hsame⟩ := Option.map_eq_some_iff.mp hvisit.symm
      rw [← hsame]
      exact hs.restoreLevel es₀ hes₀
  | begins es hnone hvisit hlevel hbegins =>
    rw [hbegins level, ← hlevel]
    constructor
    · intro hsame
      refine ⟨fun hnone' => ?_, fun es' hes' => ?_⟩
      · rw [hvisit] at hnone'
        cases hnone'
      · rw [hvisit] at hes'
        cases hes'
        exact hsame
    · exact fun hs' => hs'.restoreLevel es hvisit
  | ends es hvisit hnone hrequested hbegins =>
    refine ⟨fun _ => ⟨fun _ filter hlast => ?_, fun es' hes' => ?_⟩, fun _ => hbegins level⟩
    · rw [hrequested, List.getLast?_concat, hs.restoreLevel es hvisit] at hlast
      cases hlast
      rfl
    · rw [hnone] at hes'
      cases hes'

/-- INTERNAL: a visit that is over by the end of a run has asked for its level when it ended. -/
theorem visit_ends (s s' : Session) (steps : List SessionStep) (es : ExploreState)
    (hvisit : exploreState s.model.view = some es) (hrun : run Session.step s steps = some s')
    (hnone : exploreState s'.model.view = none) :
    ∃ l₁ l₂ s₁, steps = l₁ ++ l₂ ∧ run Session.step s l₁ = some s₁ ∧
      exploreState s₁.model.view = none ∧
      s₁.requested.getLast? = some (es.restoreLevel.getD .trace) := by
  induction steps generalizing s es with
  | nil =>
    cases hrun
    rw [hvisit] at hnone
    cases hnone
  | cons l steps ih =>
    rw [run_cons, Option.bind_eq_some_iff] at hrun
    obtain ⟨s₂, h₂, hrun⟩ := hrun
    cases step_visitMove s s₂ l h₂ with
    | stays hsame _ _ =>
      rw [hvisit, Option.map_some] at hsame
      obtain ⟨es₂, hes₂, hlevel⟩ := Option.map_eq_some_iff.mp hsame
      obtain ⟨l₁, l₂, s₁, hsplit, hrun₁, hnone₁, hlast⟩ := ih s₂ es₂ hes₂ hrun
      refine ⟨l :: l₁, l₂, s₁, by rw [hsplit]; rfl, ?_, hnone₁, by rw [hlast, hlevel]⟩
      rw [run_cons, h₂]
      exact hrun₁
    | begins _ hnone' _ _ _ =>
      rw [hvisit] at hnone'
      cases hnone'
    | ends es' hvisit' hnone' hrequested _ =>
      rw [hvisit] at hvisit'
      cases hvisit'
      refine ⟨[l], steps, s₂, rfl, by rw [run_cons, h₂]; rfl, hnone', ?_⟩
      rw [hrequested, List.getLast?_concat]

/-! ## Every run -/

/-- CODE: core.rs:484-492, 869-916, 1069-1113 — **visits that each begin with the first level
confirmed last all go back to it, and in a run that ends outside a visit no others do**. -/
theorem visits_preserve_level (level : WireLevelFilter) (m : ConsoleModel)
    (steps : List SessionStep) (s : Session) (hnone : exploreState m.view = none)
    (hlevel : m.cacheLevel = some level)
    (hrun : run Session.step (Session.start m) steps = some s) :
    (RunsUnder Session.step (BeginsConfirmed level) (Session.start m) steps →
      Restored level s) ∧
    (exploreState s.model.view = none →
      (RunsUnder Session.step (BeginsConfirmed level) (Session.start m) steps ↔
        ∀ l₁ l₂ s₁, steps = l₁ ++ l₂ → run Session.step (Session.start m) l₁ = some s₁ →
          Restored level s₁)) := by
  have hstartVisit : ∀ es, exploreState m.view = some es → False := by
    intro es hes
    rw [hnone] at hes
    cases hes
  have hconfirmed : Confirmed (Session.start m) :=
    ⟨by simp [Session.start, hlevel], fun es hes => (hstartVisit es hes).elim⟩
  have hremembered : Remembered level (Session.start m) :=
    ⟨by simp [Restored, Session.start], fun es hes => (hstartVisit es hes).elim⟩
  have hpassed := runsUnder_iff_passed Session.step (BeginsConfirmed level) Confirmed
    (Remembered level) (fun s l s' => step_confirmed s s' l)
    (fun s l s' _ hs h => step_remembered level s s' l hs h) (Session.start m) steps s
    hconfirmed hremembered hrun
  refine ⟨fun hruns => ?_, fun hend => ⟨fun hruns l₁ l₂ s₁ hsplit hrun₁ => ?_, fun hall => ?_⟩⟩
  · exact (hpassed.mp hruns steps [] s (List.append_nil steps).symm hrun).restored
  · exact (hpassed.mp hruns l₁ l₂ s₁ hsplit hrun₁).restored
  · refine hpassed.mpr fun l₁ l₂ s₁ hsplit hrun₁ => ?_
    refine ⟨hall l₁ l₂ s₁ hsplit hrun₁, fun es hes => ?_⟩
    -- the visit ends later in the run, with a request that is the level of the start
    have hconfirmed₁ : Confirmed s₁ := run_invariant Session.step Confirmed
      (fun s l s' hs h => step_confirmed s s' l hs h) (Session.start m) l₁ s₁ hconfirmed hrun₁
    rw [hsplit, run_append, hrun₁] at hrun
    obtain ⟨l₃, l₄, s₂, hsplit₂, hrun₂, hnone₂, hlast⟩ := visit_ends s₁ s l₂ es hes hrun hend
    have hrestored : Restored level s₂ := by
      refine hall (l₁ ++ l₃) l₄ s₂ (by rw [hsplit, hsplit₂, List.append_assoc]) ?_
      rw [run_append, hrun₁]
      exact hrun₂
    have hback := hrestored hnone₂ _ hlast
    obtain ⟨filter, hfilter⟩ := Option.ne_none_iff_exists'.mp (hconfirmed₁.restoreLevel es hes)
    rw [hfilter] at hback ⊢
    exact congrArg some hback

/-- INTERNAL: one span is on the table and INFO is confirmed. -/
def confirmed : ConsoleModel :=
  (applyAll (ConsoleModel.new 10)
    [.spanReceived (plainSpan 1 none 0), .cacheLevelReceived .info]).getD (ConsoleModel.new 10)

/-- INTERNAL: a visit, its two confirmations, and another visit. -/
def patientVisits : List SessionStep :=
  [.update 0 .enterExplore, .update 0 .exitExplore, .confirmation 0, .confirmation 0,
    .update 0 .enterExplore, .update 0 .exitExplore]

/-- INTERNAL: a visit, the confirmation of its OFF, and another visit. -/
def hastyVisits : List SessionStep :=
  [.update 0 .enterExplore, .update 0 .exitExplore, .confirmation 0, .update 0 .enterExplore,
    .update 0 .exitExplore]

/-- CODE: core.rs:869-916 — two visits that wait for their confirmations go back to INFO. -/
theorem visits_preserve_level_patient : ∃ s,
    run Session.step (Session.start confirmed) patientVisits = some s ∧
      s.requested = [.off, .info, .off, .info] ∧ Restored .info s := by
  refine ⟨_, rfl, rfl, ?_⟩
  refine (visits_preserve_level .info confirmed patientVisits _ rfl rfl rfl).1 ?_
  refine ⟨fun _ => rfl, fun s₁ h₁ => ?_⟩
  cases h₁
  refine ⟨fun _ => rfl, fun s₂ h₂ => ?_⟩
  cases h₂
  refine ⟨trivial, fun s₃ h₃ => ?_⟩
  cases h₃
  refine ⟨trivial, fun s₄ h₄ => ?_⟩
  cases h₄
  refine ⟨fun _ => rfl, fun s₅ h₅ => ?_⟩
  cases h₅
  exact ⟨fun hbegins => absurd hbegins.1 (by simp), fun _ _ => trivial⟩

/-- CODE: core.rs:869-916 — a second visit that begins when only the OFF of the first is
confirmed goes back to OFF. -/
theorem hasty_visit_strands : ∃ s,
    run Session.step (Session.start confirmed) hastyVisits = some s ∧
      confirmed.cacheLevel = some .info ∧ exploreState confirmed.view = none ∧
      s.requested.getLast? = some .off ∧ ¬ Restored .info s := by
  refine ⟨_, rfl, rfl, rfl, rfl, fun hrestored => ?_⟩
  exact absurd (hrestored rfl .off rfl) (by decide)

end TracingConsole.Analysis.Console
