import TracingConsole.Analysis.Panel
import TracingConsole.Analysis.VersionSwitch
import TracingConsole.Model.Installing

/-!
# What a host can make a console run

A host names its version, and the console offers to install it.  The text that is given to a
shell in the end holds a version that a host has reported, that the modal has shown, and that was
confirmed there; and whatever hosts report, nothing but digits and dots of theirs gets into it.
-/

set_option autoImplicit false

namespace TracingConsole.Analysis.Console

open TracingConsole.Library
open TracingConsole.Model TracingConsole.Model.ConsoleModel
open TracingConsole.Analysis.VersionSwitch

/-! ## Where the version comes from -/

/-- INTERNAL: the version of the host after an update. -/
theorem apply_serverVersion (now : ℕ) (m m' : ConsoleModel) (u : Update) (e : Effect)
    (h : m.apply now u = some (m', e)) (v : String) (hv : m'.serverVersion = some v) :
    m.serverVersion = some v ∨ u = .serverInfoReceived v := by
  have hafter : m'.serverVersion = ((panel m).after now u).serverVersion := by
    rw [← (apply_panel now m m' u e h).1]
    rfl
  rw [hafter] at hv
  cases u with
  | serverInfoReceived version =>
    cases hv
    exact Or.inr rfl
  | _ => exact Or.inl hv

/-- INTERNAL: the modal keeps its version, or is opened on that of the host. -/
theorem apply_modalVersion (now : ℕ) (m m' : ConsoleModel) (u : Update) (e : Effect)
    (h : m.apply now u = some (m', e)) (c : ConfirmVersionSwitch)
    (hc : m'.confirmVersionSwitch = some c) :
    (∃ c₀, m.confirmVersionSwitch = some c₀ ∧ c₀.serverVersion = c.serverVersion) ∨
      m.serverVersion = some c.serverVersion := by
  have hafter : m'.confirmVersionSwitch = ((panel m).after now u).confirmVersionSwitch := by
    rw [← (apply_panel now m m' u e h).1]
    rfl
  rw [hafter] at hc
  cases u with
  | beginConfirmVersionSwitch =>
    simp only [Panel.after, Panel.openConfirm] at hc
    split at hc
    · next version hnone hversion =>
      split at hc
      · cases hc
        exact Or.inr hversion
      · cases hc
    · exact Or.inl ⟨c, hc, rfl⟩
  | confirmVersionSwitchYes =>
    simp only [Panel.after, Panel.confirmYes] at hc
    obtain ⟨c₀, hc₀, hsame⟩ := Option.map_eq_some_iff.mp hc
    refine Or.inl ⟨c₀, hc₀, ?_⟩
    rw [← hsame]
    split <;> rfl
  | confirmVersionSwitchNo =>
    simp only [Panel.after, Panel.confirmNo] at hc
    exact Or.inl ⟨c, (Option.filter_eq_some_iff.mp hc).1, rfl⟩
  | installerSucceeded =>
    obtain ⟨c₀, hc₀, rfl⟩ := Option.map_eq_some_iff.mp hc
    exact Or.inl ⟨c₀, hc₀, rfl⟩
  | installerFailed output =>
    obtain ⟨c₀, hc₀, rfl⟩ := Option.map_eq_some_iff.mp hc
    exact Or.inl ⟨c₀, hc₀, rfl⟩
  | _ => exact Or.inl ⟨c, hc, rfl⟩

/-- INTERNAL: an installer is started by the confirmation of the version that is shown. -/
theorem apply_launches (now : ℕ) (m m' : ConsoleModel) (u : Update) (version : Option String)
    (h : m.apply now u = some (m', .runUpdateInstaller version)) :
    u = .confirmVersionSwitchYes ∧
      ∃ v, version = some v ∧ m.confirmVersionSwitch = some ⟨v, .confirming⟩ := by
  have heffect : (panel m).effect now u = .runUpdateInstaller version := by
    rcases (apply_panel now m m' u _ h).2 with heffect | ⟨-, hnone | ⟨_, hno⟩ | ⟨_, hno⟩⟩
    · exact heffect.symm
    · cases hnone
    · cases hno
    · cases hno
  cases u with
  | confirmVersionSwitchYes =>
    refine ⟨rfl, ?_⟩
    unfold Panel.effect at heffect
    dsimp only [panel] at heffect
    split at heffect
    · next c hopen =>
      obtain ⟨v, status⟩ := c
      cases status with
      | confirming =>
        cases heffect
        exact ⟨v, rfl, hopen⟩
      | _ => cases heffect
    · cases heffect
  | quit =>
    unfold Panel.effect at heffect
    dsimp only at heffect
    split at heffect
    · split at heffect <;> cases heffect
    · cases heffect
  | _ => cases heffect

/-! ## What is given to a shell -/

section Scripts

variable (debug : String → String)

/-- INTERNAL: a shell runs nothing but the scripts of the version. -/
theorem runCapturing_scripts (bash bash' : String → Except String ShellOutput)
    (version : Option String) (h : ∀ script ∈ scripts version, bash script = bash' script) :
    runCapturing debug bash version = runCapturing debug bash' version := by
  cases version with
  | none =>
    have hbash := h (installerCommand none) (by simp [scripts])
    simp only [runCapturing, Option.filter_none, hbash]
  | some v =>
    by_cases hsafe : versionIsSafe v
    · have hbash := h (installerCommand (some v)) (by simp [scripts, hsafe])
      simp only [runCapturing, Option.filter_some, hsafe, hbash, Bool.not_true, if_false,
        Bool.false_eq_true]
    · simp only [runCapturing, Option.filter_some, hsafe, Bool.not_false, if_true]

/-- INTERNAL: a version that is no version is refused, whatever a shell would say. -/
theorem runCapturing_refused (bash : String → Except String ShellOutput) (v : String)
    (hvet : versionIsSafe v = false) :
    installerOutcome (runCapturing debug bash (some v)) =
      .failed ("failed to launch installer: " ++ refusal debug v) := by
  -- there is no script for it, so any other shell will do
  rw [runCapturing_scripts debug bash (fun _ => .error "") (some v) (by simp [scripts, hvet])]
  simp only [runCapturing, Option.filter_some, hvet, Bool.not_false, if_true, installerOutcome]

/-- INTERNAL: a host reports its version. -/
def HostReports (v : String) (_ : Installing) (l : InstallingStep) : Prop :=
  ∃ now, l = .update now (.serverInfoReceived v)

/-- INTERNAL: the version that the modal shows is confirmed. -/
def ConfirmsVersion (v : String) (s : Installing) (l : InstallingStep) : Prop :=
  (∃ now, l = .update now .confirmVersionSwitchYes) ∧ Shows ⟨v, .confirming⟩ s.session

/-- INTERNAL: what a step does: it applies one update, and starts what its effect asks for. -/
theorem installing_step (s s' : Installing) (l : InstallingStep) (hstep : s.step debug l = some s') :
    ∃ k now u e, s.session.apply k = some (s'.session, e) ∧
      s.session.console.apply now u = some (s'.session.console, e) ∧
      s'.started = s.started ++ e.installers.flatMap scripts ∧
      (l = .update now u ∨ u.isReport = true) := by
  have hgoes (k : Model.SessionStep) (hgo : s.goOn k = some s') :
      ∃ e, s.session.apply k = some (s'.session, e) ∧
        s'.started = s.started ++ e.installers.flatMap scripts := by
    obtain ⟨r, hr, rfl⟩ := Option.map_eq_some_iff.mp hgo
    exact ⟨r.2, hr, rfl⟩
  cases l with
  | update now u =>
    obtain ⟨e, happly, hstarted⟩ := hgoes _ hstep
    rcases apply_eq_some _ _ _ e happly with ⟨now', u', hl, -, hconsole, -⟩ | ⟨_, _, _, hl, -⟩
    · cases hl
      exact ⟨_, now, u, e, happly, hconsole, hstarted, Or.inl rfl⟩
    · cases hl
  | finish now n answer =>
    obtain ⟨version, -, hgo⟩ := Option.bind_eq_some_iff.mp hstep
    obtain ⟨e, happly, hstarted⟩ := hgoes _ hgo
    rcases apply_eq_some _ _ _ e happly with ⟨_, _, hl, -⟩ | ⟨now', n', outcome, hl, -, hconsole, -⟩
    · cases hl
    · exact ⟨_, now', outcome.update, e, happly, hconsole, hstarted,
        Or.inr (update_isReport outcome)⟩

/-- INTERNAL: the session of it is a session. -/
theorem session_run (budget : ℕ) (steps : List InstallingStep) (s : Installing)
    (hrun : run (Installing.step debug) (Installing.new budget) steps = some s) :
    ∃ sessionSteps,
      run Model.Session.step (Model.Session.new budget) sessionSteps = some s.session := by
  refine run_projects (Installing.step debug) Model.Session.step Installing.session ?_
    (Installing.new budget) steps s hrun
  intro s l s' hstep
  obtain ⟨k, -, -, e, happly, -⟩ := installing_step debug s s' l hstep
  exact Or.inr ⟨k, by rw [Model.Session.step, happly]; rfl⟩

/-- INTERNAL: whatever is shown or started comes from a host. -/
structure Vetted (budget : ℕ) (steps : List InstallingStep) (s : Installing) : Prop where
  reported : ∀ v, s.session.console.serverVersion = some v →
    Once (Installing.step debug) (Installing.new budget) (HostReports v) steps
  shown : ∀ c, Shows c s.session →
    Once (Installing.step debug) (Installing.new budget) (HostReports c.serverVersion) steps
  started : ∀ script ∈ s.started, ∃ v, script = installerCommand (some v) ∧
    versionIsSafe v = true ∧
    Once (Installing.step debug) (Installing.new budget) (HostReports v) steps ∧
    Once (Installing.step debug) (Installing.new budget) (ConfirmsVersion v) steps

/-- INTERNAL: **the step lemma**. -/
theorem Vetted.step (budget : ℕ) (steps : List InstallingStep) (s s' : Installing)
    (l : InstallingStep)
    (hrun : run (Installing.step debug) (Installing.new budget) steps = some s)
    (h : Vetted debug budget steps s) (hstep : s.step debug l = some s') :
    Vetted debug budget (steps ++ [l]) s' := by
  obtain ⟨k, now, u, e, -, hconsole, hstarted, hl⟩ := installing_step debug s s' l hstep
  -- a report is none of the updates that matter here
  have hlabel (hu : u.isReport = false) : l = .update now u := by
    rcases hl with hl | hl
    · exact hl
    · rw [hu] at hl
      cases hl
  refine ⟨fun v hv => ?_, fun c hc => ?_, fun script hscript => ?_⟩
  · rcases apply_serverVersion now _ _ u e hconsole v hv with hold | hu
    · exact (h.reported v hold).snoc _ _ _ steps l
    · subst hu
      exact once_last _ _ _ steps l s hrun ⟨now, hlabel rfl⟩
  · rcases apply_modalVersion now _ _ u e hconsole c hc with ⟨c₀, hc₀, hsame⟩ | hversion
    · rw [← hsame]
      exact (h.shown c₀ hc₀).snoc _ _ _ steps l
    · exact (h.reported _ hversion).snoc _ _ _ steps l
  · rw [hstarted, List.mem_append] at hscript
    rcases hscript with hold | hnew
    · obtain ⟨v, hv, hsafe, hreported, hconfirmed⟩ := h.started script hold
      exact ⟨v, hv, hsafe, hreported.snoc _ _ _ steps l, hconfirmed.snoc _ _ _ steps l⟩
    · obtain ⟨version, hversion, hmem⟩ := List.mem_flatMap.mp hnew
      have he : e = .runUpdateInstaller version := by
        cases e with
        | runUpdateInstaller version' =>
          rw [List.mem_singleton.mp hversion]
        | _ => cases hversion
      subst he
      obtain ⟨hu, v, hv, hshown⟩ := apply_launches now _ _ u version hconsole
      subst hu hv
      unfold scripts at hmem
      by_cases hsafe : versionIsSafe v
      · simp only [Option.any_some, hsafe, Bool.not_true, Bool.false_eq_true, if_false,
          List.mem_singleton] at hmem
        exact ⟨v, hmem, hsafe, (h.shown _ hshown).snoc _ _ _ steps l,
          once_last _ _ _ steps l s hrun ⟨⟨now, hlabel rfl⟩, hshown⟩⟩
      · simp [hsafe] at hmem

/-- INTERNAL: **the run lemma**. -/
theorem vetted_run (budget : ℕ) (steps : List InstallingStep) (s : Installing)
    (hrun : run (Installing.step debug) (Installing.new budget) steps = some s) :
    Vetted debug budget steps s := by
  induction steps using List.reverseRecOn generalizing s with
  | nil =>
    cases hrun
    exact ⟨fun _ hv => (by cases hv), fun _ hc => (by cases hc), fun _ hs => (by cases hs)⟩
  | append_singleton steps l ih =>
    obtain ⟨s₁, hbefore, hlast⟩ := (run_snoc_eq_some _ _ steps l s).mp hrun
    exact (ih s₁ hbefore).step debug budget steps s₁ s l hbefore hlast

/-- INTERNAL: the text of a version that is safe. -/
theorem versionIsSafe_iff (v : String) :
    versionIsSafe v = true ↔
      v ≠ "" ∧ v.utf8ByteSize < 32 ∧ ∀ c ∈ v.toList, c.isDigit = true ∨ c = '.' := by
  simp [versionIsSafe, and_assoc]

/-- CODE: installer.rs:19-79, 158-175, runtime.rs:332-397, core.rs:1133-1203 — **a host can only
have itself installed by what looks like a version, and only if the user says so**: in every
session, whatever hosts report, each text given to a shell is the public pipeline with a version
of at most 31 digits and dots, which a host had reported and which was confirmed in the modal
that showed it; and a task whose version is anything else ends in the refusal on the modal,
whatever the shell would say. -/
theorem installer_scripts_vetted (budget : ℕ) (steps : List InstallingStep) (s : Installing)
    (hrun : run (Installing.step debug) (Installing.new budget) steps = some s) :
    (∀ script ∈ s.started, ∃ v,
      script = "set -o pipefail; curl -fsSL " ++ installerUrl ++ " | bash -s -- " ++ v ∧
      v ≠ "" ∧ v.utf8ByteSize < 32 ∧ (∀ c ∈ v.toList, c.isDigit = true ∨ c = '.') ∧
      Once (Installing.step debug) (Installing.new budget) (HostReports v) steps ∧
      Once (Installing.step debug) (Installing.new budget) (ConfirmsVersion v) steps) ∧
    ∀ now n answer s' v, s.step debug (.finish now n answer) = some s' →
      s.session.installers[n]? = some (some v) → versionIsSafe v = false →
      Shows ⟨v, .failed ("failed to launch installer: " ++ refusal debug v)⟩ s'.session := by
  refine ⟨fun script hscript => ?_, fun now n answer s' v hstep hn hvet => ?_⟩
  · obtain ⟨v, hv, hsafe, hreported, hconfirmed⟩ :=
      (vetted_run debug budget steps s hrun).started script hscript
    obtain ⟨hsome, hshort, hchars⟩ := (versionIsSafe_iff v).mp hsafe
    exact ⟨v, hv, hsome, hshort, hchars, hreported, hconfirmed⟩
  · obtain ⟨sessionSteps, hsession⟩ := session_run debug budget steps s hrun
    have htold := told_run budget sessionSteps s.session hsession
    obtain ⟨version, hversion, hgo⟩ := Option.bind_eq_some_iff.mp hstep
    rw [hn, Option.some.injEq] at hversion
    subst hversion
    obtain ⟨r, happly, hr⟩ := Option.map_eq_some_iff.mp hgo
    rw [runCapturing_refused debug _ v hvet] at happly
    have hs' : s'.session = r.1 := by rw [← hr]
    obtain ⟨w, hrunning, hshown, -⟩ :=
      (htold.moves budget sessionSteps s.session r.1 _ r.2 happly).reported
    rw [(htold.running w hrunning).1] at hn
    have hw : w = v := by
      cases n with
      | zero => exact Option.some.inj (Option.some.inj hn)
      | succ n => cases hn
    rw [hw] at hshown
    rw [hs']
    exact hshown

end Scripts

/-! A host that reports a version, and one that reports a command. -/

/-- INTERNAL: a text in quotes. -/
def quoted (text : String) : String := "\"" ++ text ++ "\""

/-- INTERNAL: a host offers a version. -/
def offeredVersion : List InstallingStep :=
  [.update 0 (.serverInfoReceived "9.9.9"), .update 1 .beginConfirmVersionSwitch,
    .update 2 .confirmVersionSwitchYes]

/-- INTERNAL: a host offers a command for a version. -/
def offeredCommand : List InstallingStep :=
  [.update 0 (.serverInfoReceived "1; reboot"), .update 1 .beginConfirmVersionSwitch,
    .update 2 .confirmVersionSwitchYes]

/-- CODE: installer.rs:158-175 — the version is installed, the command is refused. -/
theorem installer_scripts_vetted_command :
    (∃ s, run (Installing.step quoted) (Installing.new 4) offeredVersion = some s ∧
      s.started.length = 1 ∧
      ∀ script ∈ s.started, ∃ v,
        script = "set -o pipefail; curl -fsSL " ++ installerUrl ++ " | bash -s -- " ++ v ∧
        ∀ c ∈ v.toList, c.isDigit = true ∨ c = '.') ∧
    ∃ s s', run (Installing.step quoted) (Installing.new 4) offeredCommand = some s ∧
      s.started = [] ∧ s.step quoted (.finish 3 0 (.error "")) = some s' ∧
      Shows ⟨"1; reboot", .failed ("failed to launch installer: " ++
        refusal quoted "1; reboot")⟩ s'.session := by
  constructor
  · refine ⟨_, rfl, rfl, fun script hscript => ?_⟩
    obtain ⟨v, hv, -, -, hchars, -⟩ :=
      (installer_scripts_vetted quoted 4 offeredVersion _ rfl).1 script hscript
    exact ⟨v, hv, hchars⟩
  · refine ⟨_, _, rfl, rfl, rfl, ?_⟩
    exact (installer_scripts_vetted quoted 4 offeredCommand _ rfl).2 3 0 (.error "") _
      "1; reboot" rfl rfl (by decide)

end TracingConsole.Analysis.Console
