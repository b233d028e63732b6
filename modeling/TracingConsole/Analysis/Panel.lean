import TracingConsole.Model.Apply

/-!
# The panel of the console

What the reducer keeps beside the aggregator and the views: the connection, what the host has
confirmed, the rate of the spans, and the prompts that lie over every view.  These parts are a
state machine of their own: what an update makes of them depends on them alone (`apply_panel`),
and so do the effects that quit, restart or start an installer.
-/

set_option autoImplicit false

namespace TracingConsole.Analysis.Console

open TracingConsole.Model TracingConsole.Model.ConsoleModel

/-- INTERNAL: the parts. -/
structure Panel where
  connection : ConnectionStatus
  status : Option String
  cacheLevel : Option WireLevelFilter
  cacheChance : Option F64
  serverVersion : Option String
  confirmVersionSwitch : Option ConfirmVersionSwitch
  quitConfirmDeadline : Option ℕ
  chanceInput : Option String
  rate : RateTracker

/-- INTERNAL: the panel of a console. -/
def panel (m : ConsoleModel) : Panel where
  connection := m.connection
  status := m.status
  cacheLevel := m.cacheLevel
  cacheChance := m.cacheChance
  serverVersion := m.serverVersion
  confirmVersionSwitch := m.confirmVersionSwitch
  quitConfirmDeadline := m.quitConfirmDeadline
  chanceInput := m.chanceInput
  rate := m.rate

namespace Panel

/-- INTERNAL: SRCLINE: core.rs:1114-1131 -/
def requestQuit (now : ℕ) (p : Panel) : Option ℕ :=
  match p.quitConfirmDeadline with
  | some deadline => if now < deadline then none else some (now + 2000000000)
  | none => some (now + 2000000000)

/-- INTERNAL: SRCLINE: core.rs:1136-1153 -/
def openConfirm (p : Panel) : Option ConfirmVersionSwitch :=
  match p.confirmVersionSwitch, p.serverVersion with
  | none, some serverVersion =>
    if serverVersion ≠ clientVersion then
      some { serverVersion := serverVersion, status := .confirming }
    else none
  | confirm, _ => confirm

/-- INTERNAL: SRCLINE: core.rs:1154-1174 -/
def confirmYes (p : Panel) : Option ConfirmVersionSwitch :=
  p.confirmVersionSwitch.map fun c =>
    if c.status = .confirming then { c with status := .running } else c

/-- INTERNAL: SRCLINE: core.rs:1175-1185 -/
def confirmNo (p : Panel) : Option ConfirmVersionSwitch :=
  p.confirmVersionSwitch.filter fun c => c.status = .running

/-- INTERNAL: **the panel after an update**. -/
def after (now : ℕ) (p : Panel) : Update → Panel
  | .spanReceived _ => { p with rate := p.rate.record now }
  | .connected => { p with connection := .connected, status := none }
  | .disconnected reason => { p with connection := .disconnected reason }
  | .status msg => { p with status := some msg }
  | .cacheLevelReceived filter => { p with cacheLevel := some filter }
  | .cacheChanceReceived pct => { p with cacheChance := some pct }
  | .serverInfoReceived version => { p with serverVersion := some version }
  | .beginChanceInput => { p with chanceInput := openModal }
  | .chanceInputChar c =>
    { p with chanceInput := p.chanceInput.map fun buf => (pushDigitOrDecimal buf c).getD buf }
  | .chanceInputBackspace => { p with chanceInput := backspaceModal p.chanceInput }
  | .chanceInputCancel | .chanceInputCommit => { p with chanceInput := none }
  | .quit => { p with quitConfirmDeadline := p.requestQuit now }
  | .quitConfirmDismiss => { p with quitConfirmDeadline := none }
  | .beginConfirmVersionSwitch => { p with confirmVersionSwitch := p.openConfirm }
  | .confirmVersionSwitchYes => { p with confirmVersionSwitch := p.confirmYes }
  | .confirmVersionSwitchNo => { p with confirmVersionSwitch := p.confirmNo }
  | .installerSucceeded =>
    { p with
      confirmVersionSwitch := p.confirmVersionSwitch.map fun c => { c with status := .restart } }
  | .installerFailed output =>
    { p with
      confirmVersionSwitch :=
        p.confirmVersionSwitch.map fun c => { c with status := .failed output } }
  | _ => p

/-- INTERNAL: **the effects an update has by the panel**. -/
def effect (now : ℕ) (p : Panel) : Update → Effect
  | .quit =>
    match p.quitConfirmDeadline with
    | some deadline => if now < deadline then .quit else .none
    | none => .none
  | .confirmVersionSwitchYes =>
    match p.confirmVersionSwitch with
    | some c =>
      match c.status with
      | .confirming => .runUpdateInstaller (some c.serverVersion)
      | .restart => .restart
      | .running | .failed _ => .none
    | none => .none
  | _ => .none

end Panel

/-- INTERNAL: a request to the host, or nothing. -/
def Asks (e : Effect) : Prop :=
  e = .none ∨ (∃ filter, e = .requestSetLevel filter) ∨ ∃ pct, e = .requestSetChance pct

/-- INTERNAL: an arm that leaves the panel alone and at most asks something of the host. -/
def LeavesPanel (m : ConsoleModel) (r : Option (ConsoleModel × Effect)) : Prop :=
  ∀ m' e, r = some (m', e) → panel m' = panel m ∧ Asks e

/-- INTERNAL: a console of the same panel, and something asked of the host. -/
theorem leavesPanel_pair (m m' : ConsoleModel) (e : Effect) (hpanel : panel m' = panel m)
    (he : Asks e) : LeavesPanel m (some (m', e)) := by
  intro m₁ e₁ h
  cases h
  exact ⟨hpanel, he⟩

/-- INTERNAL: a console of the same panel, and nothing asked. -/
theorem leavesPanel_quiet (m m' : ConsoleModel) (hpanel : panel m' = panel m) :
    LeavesPanel m m'.quiet :=
  leavesPanel_pair m m' .none hpanel (Or.inl rfl)

/-- INTERNAL: an arm that may panic, and asks nothing. -/
theorem leavesPanel_bind (m : ConsoleModel) (r : Option ConsoleModel)
    (h : ∀ m', r = some m' → panel m' = panel m) : LeavesPanel m (r.bind quiet) := by
  intro m₁ e hr
  obtain ⟨m', hm', hquiet⟩ := Option.bind_eq_some_iff.mp hr
  exact leavesPanel_quiet m m' (h m' hm') m₁ e hquiet

/-- INTERNAL: an arm that asks for a level. -/
theorem leavesPanel_level (m m' : ConsoleModel) (filter : WireLevelFilter)
    (hpanel : panel m' = panel m) : LeavesPanel m (some (m', .requestSetLevel filter)) :=
  leavesPanel_pair m m' _ hpanel (Or.inr (Or.inl ⟨filter, rfl⟩))

/-! ## The arms -/

/-- INTERNAL: an edit of the chart leaves the panel. -/
theorem panel_mapGraph (m : ConsoleModel) (f : GraphState → GraphState) :
    panel (m.mapGraph f) = panel m := by
  unfold mapGraph
  cases m.view <;> rfl

/-- INTERNAL: an edit of the list leaves the panel. -/
theorem panel_mapExplore (m : ConsoleModel) (f : ExploreState → ExploreState) :
    panel (m.mapExplore f) = panel m := by
  unfold mapExplore
  cases m.view <;> rfl

/-- INTERNAL: an edit of the trace leaves the panel. -/
theorem panel_mapTraceDetail (m : ConsoleModel) (f : TraceDetailState → TraceDetailState) :
    panel (m.mapTraceDetail f) = panel m := by
  unfold mapTraceDetail
  cases m.view <;> rfl

/-- INTERNAL: filling the chart again leaves the panel. -/
theorem panel_regraph (m m' : ConsoleModel) (f : GraphState → GraphState)
    (h : m.regraph f = some m') : panel m' = panel m := by
  unfold regraph at h
  split at h
  · obtain ⟨gs, -, hm'⟩ := Option.map_eq_some_iff.mp h
    rw [← hm']
    rfl
  · cases h
    rfl

/-- INTERNAL: a span that arrives is counted in the rate alone. -/
theorem panel_spanReceived (now : ℕ) (m m' : ConsoleModel) (span : WireSpan)
    (h : m.spanReceived now span = some m') :
    panel m' = { panel m with rate := m.rate.record now } := by
  obtain ⟨r, -, hview⟩ := Option.bind_eq_some_iff.mp h
  dsimp only at hview
  split at hview
  · obtain ⟨gs, -, hm'⟩ := Option.map_eq_some_iff.mp hview
    rw [← hm']
    rfl
  · cases hview
    rfl

/-- INTERNAL: a selection leaves the panel. -/
theorem panel_setCurrentSelected (m : ConsoleModel) (idx : ℕ) :
    panel (m.setCurrentSelected idx) = panel m := by
  unfold setCurrentSelected
  cases m.focus <;> rfl

/-- INTERNAL: so does moving it up. -/
theorem panel_selectUp (m : ConsoleModel) : panel m.selectUp = panel m := by
  unfold selectUp
  split
  · rfl
  · exact panel_setCurrentSelected m _

/-- INTERNAL: and moving it down. -/
theorem panel_selectDown (m : ConsoleModel) : panel m.selectDown = panel m := by
  unfold selectDown
  dsimp only
  split
  · rfl
  · exact panel_setCurrentSelected m _

/-- INTERNAL: unfolding a row leaves the panel. -/
theorem panel_expandSelected (m : ConsoleModel) : panel m.expandSelected = panel m := by
  unfold expandSelected
  split
  · split
    · split <;> rfl
    · rfl
  · rfl

/-- INTERNAL: so does unfolding all below it. -/
theorem panel_expandAllSelected (m : ConsoleModel) : panel m.expandAllSelected = panel m := by
  unfold expandAllSelected
  split
  · rfl
  · split <;> rfl

/-- INTERNAL: and folding it. -/
theorem panel_collapseSelected (m : ConsoleModel) : panel m.collapseSelected = panel m := by
  unfold collapseSelected
  split
  · rfl
  · split
    · rfl
    · split
      · rfl
      · split
        · dsimp only
          split <;> rfl
        · rfl

/-- INTERNAL: the focus leaves the panel. -/
theorem panel_switchFocus (m : ConsoleModel) : panel m.switchFocus = panel m := by
  unfold switchFocus
  cases m.focus <;> rfl

/-- INTERNAL: a split leaves the panel. -/
theorem panel_toggleSplitSelected (m m' : ConsoleModel) (h : m.toggleSplitSelected = some m') :
    panel m' = panel m := by
  unfold toggleSplitSelected at h
  split at h
  · cases h
    rfl
  · split at h
    · cases h
      rfl
    · obtain ⟨agg, -, hm'⟩ := Option.map_eq_some_iff.mp h
      rw [← hm']
      rfl

/-- INTERNAL: opening and closing the chart leaves the panel. -/
theorem panel_toggleGraph (m m' : ConsoleModel) (h : m.toggleGraph = some m') :
    panel m' = panel m :=
  (panel_regraph _ m' id h).trans rfl

/-- INTERNAL: committing a window leaves the panel. -/
theorem panel_graphWindowInputCommit (m m' : ConsoleModel)
    (h : m.graphWindowInputCommit = some m') : panel m' = panel m := by
  unfold graphWindowInputCommit at h
  split at h
  · split at h
    · cases h
      rfl
    · dsimp only at h
      split at h
      · split at h
        · exact (panel_regraph _ m' _ h).trans rfl
        · cases h
          rfl
      · cases h
        rfl
  · cases h
    rfl

/-- INTERNAL: a split of the chart leaves the panel. -/
theorem panel_graphToggleSplit (m m' : ConsoleModel) (h : m.graphToggleSplit = some m') :
    panel m' = panel m := by
  unfold graphToggleSplit at h
  split at h
  · dsimp only at h
    split at h
    · cases h
      rfl
    · split at h
      · obtain ⟨gs, -, hm'⟩ := Option.map_eq_some_iff.mp h
        rw [← hm']
        rfl
      · cases h
        rfl
  · cases h
    rfl

/-- INTERNAL: opening a trace leaves the panel. -/
theorem panel_exploreOpenTrace (m : ConsoleModel) : panel m.exploreOpenTrace = panel m := by
  unfold exploreOpenTrace
  split
  · dsimp only
    split
    · rfl
    · split <;> rfl
  · rfl

/-- INTERNAL: so does leaving it. -/
theorem panel_exitTraceDetail (m : ConsoleModel) : panel m.exitTraceDetail = panel m := by
  unfold exitTraceDetail
  cases m.view <;> rfl

/-- INTERNAL: moving down a trace leaves the panel. -/
theorem panel_traceDetailSelectDown (m m' : ConsoleModel)
    (h : m.traceDetailSelectDown = some m') : panel m' = panel m := by
  unfold traceDetailSelectDown at h
  split at h
  · obtain ⟨rows, -, hm'⟩ := Option.map_eq_some_iff.mp h
    rw [← hm']
    split <;> rfl
  · cases h
    rfl

/-- INTERNAL: folding a row of a trace leaves the panel. -/
theorem panel_changeCollapsed (m m' : ConsoleModel) (change : Finset ℕ → ℕ → Finset ℕ)
    (h : m.changeCollapsed change = some m') : panel m' = panel m := by
  unfold changeCollapsed at h
  split at h
  · obtain ⟨selected, -, hm'⟩ := Option.map_eq_some_iff.mp h
    rw [← hm']
    cases selected <;> rfl
  · cases h
    rfl

/-- INTERNAL: leaving the list asks for the level it found. -/
theorem leavesPanel_restore (m : ConsoleModel) (view : ViewMode) (es : ExploreState) :
    LeavesPanel m (some ({ m with view := view }, restoreRequest es)) :=
  leavesPanel_level m _ _ rfl

/-- INTERNAL: entering the list asks for a level, or nothing. -/
theorem leavesPanel_enterExplore (m : ConsoleModel) : LeavesPanel m (some m.enterExplore) := by
  unfold enterExplore explore
  split
  · split
    · exact leavesPanel_quiet m m rfl
    · exact leavesPanel_level m _ _ rfl
  · exact leavesPanel_level m _ _ rfl
  · exact leavesPanel_quiet m _ rfl
  · exact leavesPanel_quiet m m rfl

/-- INTERNAL: so does leaving it. -/
theorem leavesPanel_exitExplore (m : ConsoleModel) : LeavesPanel m (some m.exitExplore) := by
  unfold exitExplore
  split
  · exact leavesPanel_restore m _ _
  · exact leavesPanel_restore m _ _
  · exact leavesPanel_quiet m m rfl

/-- INTERNAL: and going to the table. -/
theorem leavesPanel_enterTable (m : ConsoleModel) : LeavesPanel m (some m.enterTable) := by
  unfold enterTable
  split
  · exact leavesPanel_restore m _ _
  · exact leavesPanel_restore m _ _
  · exact leavesPanel_quiet m _ rfl

/-- INTERNAL: a chart that is opened leaves the panel. -/
theorem leavesPanel_graph (m : ConsoleModel) (locked : List String) (e : Effect) (he : Asks e) :
    LeavesPanel m (m.graph locked e) := by
  intro m' e' h
  obtain ⟨gs, -, hpair⟩ := Option.map_eq_some_iff.mp h
  cases hpair
  exact ⟨rfl, he⟩

/-- INTERNAL: going to the chart leaves the panel. -/
theorem leavesPanel_enterGraph (m : ConsoleModel) : LeavesPanel m m.enterGraph := by
  have hlevel (es : ExploreState) : Asks (restoreRequest es) := Or.inr (Or.inl ⟨_, rfl⟩)
  unfold enterGraph
  split
  · split
    · exact leavesPanel_graph m _ _ (Or.inl rfl)
    · exact leavesPanel_quiet m m rfl
  · exact leavesPanel_quiet m m rfl
  · exact leavesPanel_graph m _ _ (hlevel _)
  · exact leavesPanel_graph m _ _ (hlevel _)

/-! ## The reducer on the panel -/

/-- INTERNAL: an update the panel does not know. -/
theorem apply_leaves (now : ℕ) (m m' : ConsoleModel) (u : Update) (e : Effect)
    (r : Option (ConsoleModel × Effect)) (hafter : (panel m).after now u = panel m)
    (heffect : (panel m).effect now u = .none) (hr : LeavesPanel m r) (h : r = some (m', e)) :
    panel m' = (panel m).after now u ∧
      (e = (panel m).effect now u ∨ (panel m).effect now u = .none ∧ Asks e) := by
  obtain ⟨hpanel, he⟩ := hr m' e h
  exact ⟨hpanel.trans hafter.symm, Or.inr ⟨heffect, he⟩⟩

/-- INTERNAL: the panel after an update, and its effect, are those of the panel before. -/
abbrev PanelMoves (now : ℕ) (m m' : ConsoleModel) (u : Update) (e : Effect) : Prop :=
  panel m' = (panel m).after now u ∧
    (e = (panel m).effect now u ∨ (panel m).effect now u = .none ∧ Asks e)

/-- INTERNAL: a chance is committed, and asked for if it is one.
SRCLINE: core.rs:514-527 -/
theorem panelMoves_chanceInputCommit (now : ℕ) (m m' : ConsoleModel) (e : Effect)
    (h : m.apply now .chanceInputCommit = some (m', e)) :
    PanelMoves now m m' .chanceInputCommit e := by
  have hcommit := Option.some.inj h
  unfold ConsoleModel.chanceInputCommit at hcommit
  split at hcommit
  · next hnone =>
    cases hcommit
    refine ⟨?_, Or.inl rfl⟩
    show panel m = { panel m with chanceInput := none }
    simp only [panel, hnone]
  · cases hcommit
    refine ⟨rfl, Or.inr ⟨rfl, ?_⟩⟩
    split
    · split
      · exact Or.inr (Or.inr ⟨_, rfl⟩)
      · exact Or.inl rfl
    · exact Or.inl rfl

/-- INTERNAL: quitting is asked for, once or twice.
SRCLINE: core.rs:1111-1127 -/
theorem panelMoves_quit (now : ℕ) (m m' : ConsoleModel) (e : Effect)
    (h : m.apply now .quit = some (m', e)) : PanelMoves now m m' .quit e := by
  have hquit := Option.some.inj h
  unfold ConsoleModel.requestQuit at hquit
  dsimp only [PanelMoves, Panel.after, Panel.effect, Panel.requestQuit, panel] at hquit ⊢
  cases hdeadline : m.quitConfirmDeadline with
  | some deadline =>
    simp only [hdeadline] at hquit ⊢
    by_cases hlive : now < deadline
    · rw [if_pos hlive] at hquit ⊢
      cases hquit
      exact ⟨rfl, Or.inl (if_pos hlive).symm⟩
    · rw [if_neg hlive] at hquit ⊢
      cases hquit
      exact ⟨rfl, Or.inl (if_neg hlive).symm⟩
  | none =>
    simp only [hdeadline] at hquit ⊢
    cases hquit
    exact ⟨rfl, Or.inl rfl⟩

/-- INTERNAL: the version modal is opened, for a version that differs.
SRCLINE: core.rs:1133-1150 -/
theorem panelMoves_beginConfirmVersionSwitch (now : ℕ) (m m' : ConsoleModel) (e : Effect)
    (h : m.apply now .beginConfirmVersionSwitch = some (m', e)) :
    PanelMoves now m m' .beginConfirmVersionSwitch e := by
  have hbegin := Option.some.inj h
  unfold ConsoleModel.beginConfirmVersionSwitch at hbegin
  dsimp only [PanelMoves, Panel.after, Panel.effect, Panel.openConfirm, panel] at hbegin ⊢
  cases hopen : m.confirmVersionSwitch with
  | some c =>
    simp only [hopen] at hbegin ⊢
    cases hbegin
    exact ⟨by simp [hopen], Or.inl rfl⟩
  | none =>
    cases hserver : m.serverVersion with
    | none =>
      simp only [hopen, hserver] at hbegin ⊢
      cases hbegin
      exact ⟨by simp [hopen, hserver], Or.inl rfl⟩
    | some serverVersion =>
      simp only [hopen, hserver] at hbegin ⊢
      by_cases hversion : serverVersion ≠ clientVersion
      · rw [if_pos hversion] at hbegin
        cases hbegin
        exact ⟨by simp [hversion], Or.inl rfl⟩
      · rw [if_neg hversion] at hbegin
        cases hbegin
        exact ⟨by simp [hversion, hopen, hserver], Or.inl rfl⟩

/-- INTERNAL: yes is said in the version modal.
SRCLINE: core.rs:1151-1172 -/
theorem panelMoves_confirmVersionSwitchYes (now : ℕ) (m m' : ConsoleModel) (e : Effect)
    (h : m.apply now .confirmVersionSwitchYes = some (m', e)) :
    PanelMoves now m m' .confirmVersionSwitchYes e := by
  have hyes := Option.some.inj h
  unfold ConsoleModel.confirmVersionSwitchYes at hyes
  dsimp only [PanelMoves, Panel.after, Panel.effect, Panel.confirmYes, panel] at hyes ⊢
  split at hyes
  · next hnone =>
    cases hyes
    rw [hnone]
    exact ⟨rfl, Or.inl rfl⟩
  · next c hopen =>
    rw [hopen]
    dsimp only [Option.map_some]
    split at hyes
    · next hstatus =>
      cases hyes
      simp [hstatus]
    · next hstatus =>
      cases hyes
      simp [hstatus, hopen]
    · next hstatus =>
      cases hyes
      simp [hstatus, hopen]
    · next hstatus =>
      cases hyes
      simp [hstatus, hopen]

/-- INTERNAL: no is said in the version modal.
SRCLINE: core.rs:1173-1184 -/
theorem panelMoves_confirmVersionSwitchNo (now : ℕ) (m m' : ConsoleModel) (e : Effect)
    (h : m.apply now .confirmVersionSwitchNo = some (m', e)) :
    PanelMoves now m m' .confirmVersionSwitchNo e := by
  have hno := Option.some.inj h
  unfold ConsoleModel.confirmVersionSwitchNo at hno
  dsimp only [PanelMoves, Panel.after, Panel.effect, Panel.confirmNo, panel] at hno ⊢
  split at hno
  · next hnone =>
    cases hno
    rw [hnone]
    exact ⟨rfl, Or.inl rfl⟩
  · next c hopen =>
    rw [hopen]
    split at hno
    · next hrunning =>
      cases hno
      refine ⟨?_, Or.inl rfl⟩
      rw [Option.filter_some, if_pos (decide_eq_true hrunning), ← hopen]
    · next hrunning =>
      cases hno
      refine ⟨?_, Or.inl rfl⟩
      rw [Option.filter_some, if_neg fun hdecide => hrunning (of_decide_eq_true hdecide)]

/-- INTERNAL: **what an update does to the panel**, and the effects that do not ask something of
the host.
SRCLINE: core.rs:333-1203 -/
theorem apply_panel (now : ℕ) (m m' : ConsoleModel) (u : Update) (e : Effect)
    (h : m.apply now u = some (m', e)) :
    panel m' = (panel m).after now u ∧
      (e = (panel m).effect now u ∨ (panel m).effect now u = .none ∧ Asks e) := by
  have hleaves (hafter : (panel m).after now u = panel m) (heffect : (panel m).effect now u = .none)
      (r : Option (ConsoleModel × Effect)) (hr : LeavesPanel m r) (hsome : r = some (m', e)) :=
    apply_leaves now m m' u e r hafter heffect hr hsome
  cases u with
  | spanReceived span =>
    obtain ⟨m₁, hm₁, hquiet⟩ := Option.bind_eq_some_iff.mp h
    cases hquiet
    exact ⟨panel_spanReceived now m _ span hm₁, Or.inl rfl⟩
  | selectUp => exact hleaves rfl rfl _ (leavesPanel_quiet m _ (panel_selectUp m)) h
  | selectDown => exact hleaves rfl rfl _ (leavesPanel_quiet m _ (panel_selectDown m)) h
  | expandSelected => exact hleaves rfl rfl _ (leavesPanel_quiet m _ (panel_expandSelected m)) h
  | expandAllSelected =>
    exact hleaves rfl rfl _ (leavesPanel_quiet m _ (panel_expandAllSelected m)) h
  | collapseSelected =>
    exact hleaves rfl rfl _ (leavesPanel_quiet m _ (panel_collapseSelected m)) h
  | switchFocus => exact hleaves rfl rfl _ (leavesPanel_quiet m _ (panel_switchFocus m)) h
  | toggleSplitSelected =>
    exact hleaves rfl rfl _ (leavesPanel_bind m _ (panel_toggleSplitSelected m)) h
  | requestCacheLevel filter => exact hleaves rfl rfl _ (leavesPanel_level m m filter rfl) h
  | toggleGraph => exact hleaves rfl rfl _ (leavesPanel_bind m _ (panel_toggleGraph m)) h
  | toggleGraphMetric =>
    exact hleaves rfl rfl _ (leavesPanel_bind m _ fun m₁ => panel_regraph m m₁ _) h
  | graphWindowInputCommit =>
    exact hleaves rfl rfl _ (leavesPanel_bind m _ (panel_graphWindowInputCommit m)) h
  | graphToggleSplit => exact hleaves rfl rfl _ (leavesPanel_bind m _ (panel_graphToggleSplit m)) h
  | setGraphAgg | beginGraphAggInput | graphAggInputChar | graphAggInputBackspace
  | graphAggInputCancel | graphAggInputCommit | beginGraphWindowInput | graphWindowInputChar
  | graphWindowInputBackspace | graphWindowInputCancel | beginGraphLookbackInput
  | graphLookbackInputChar | graphLookbackInputBackspace | graphLookbackInputCancel
  | graphLookbackInputCommit | toggleGraphTimeLabels | graphSwitchFocus | graphSelectUp
  | graphSelectDown | graphSortColumnLeft | graphSortColumnRight =>
    exact hleaves rfl rfl _ (leavesPanel_quiet m _ (panel_mapGraph m _)) h
  | enterExplore => exact hleaves rfl rfl _ (leavesPanel_enterExplore m) h
  | exitExplore => exact hleaves rfl rfl _ (leavesPanel_exitExplore m) h
  | exploreSelectUp | exploreSelectDown | exploreSortLeft | exploreSortRight
  | exploreInvertSort | beginExploreSearch | exploreSearchChar | exploreSearchBackspace
  | exploreSearchCancel | exploreSearchCommit =>
    exact hleaves rfl rfl _ (leavesPanel_quiet m _ (panel_mapExplore m _)) h
  | exploreOpenTrace => exact hleaves rfl rfl _ (leavesPanel_quiet m _ (panel_exploreOpenTrace m)) h
  | exitTraceDetail => exact hleaves rfl rfl _ (leavesPanel_quiet m _ (panel_exitTraceDetail m)) h
  | traceDetailSelectUp =>
    exact hleaves rfl rfl _ (leavesPanel_quiet m _ (panel_mapTraceDetail m _)) h
  | traceDetailSelectDown =>
    exact hleaves rfl rfl _ (leavesPanel_bind m _ (panel_traceDetailSelectDown m)) h
  | traceDetailExpand | traceDetailCollapse =>
    exact hleaves rfl rfl _ (leavesPanel_bind m _ fun m₁ => panel_changeCollapsed m m₁ _) h
  | enterTable => exact hleaves rfl rfl _ (leavesPanel_enterTable m) h
  | enterGraph => exact hleaves rfl rfl _ (leavesPanel_enterGraph m) h
  | connected | disconnected | status | serverInfoReceived | cacheLevelReceived
  | cacheChanceReceived | beginChanceInput | chanceInputChar | chanceInputBackspace
  | chanceInputCancel | quitConfirmDismiss | installerSucceeded | installerFailed =>
    cases h
    exact ⟨rfl, Or.inl rfl⟩
  | chanceInputCommit => exact panelMoves_chanceInputCommit now m m' e h
  | quit => exact panelMoves_quit now m m' e h
  | beginConfirmVersionSwitch => exact panelMoves_beginConfirmVersionSwitch now m m' e h
  | confirmVersionSwitchYes => exact panelMoves_confirmVersionSwitchYes now m m' e h
  | confirmVersionSwitchNo => exact panelMoves_confirmVersionSwitchNo now m m' e h

end TracingConsole.Analysis.Console
