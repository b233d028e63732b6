import TracingConsole.Analysis.Panel
import TracingConsole.Library.Since
import TracingConsole.Model.Session

/-!
# The version switch

Five updates drive the modal of a version switch; no other touches it, and no other starts an
installer or restarts the console (`apply_modal`).  So an installer runs exactly while the modal
it was started from says so, and what it reports lands on that modal
(`installer_runs_with_modal`).
-/

set_option autoImplicit false

namespace TracingConsole.Analysis.VersionSwitch

open TracingConsole.Library TracingConsole.Model TracingConsole.Model.ConsoleModel
open TracingConsole.Analysis.Console (Panel panel)

/-- INTERNAL: an effect that neither starts an installer nor restarts the console. -/
def Plain (e : Effect) : Prop := e ≠ .restart ∧ ∀ version, e ≠ .runUpdateInstaller version

/-- INTERNAL: what an installer leaves of the modal.
SRCLINE: core.rs:1186-1203 -/
def outcomeStatus : InstallerOutcome → ConfirmStatus
  | .succeeded => .restart
  | .failed output => .failed output

/-- INTERNAL: what an update does to the modal of a version switch, and the effect it has. -/
inductive ModalMove (m : ConsoleModel) (u : Update) (m' : ConsoleModel) (e : Effect) : Prop
  | keeps (hmodal : m'.confirmVersionSwitch = m.confirmVersionSwitch)
      (hreport : u.isReport = true → m.confirmVersionSwitch = none) (he : Plain e)
  | opens (w : String) (hu : u = .beginConfirmVersionSwitch)
      (hnone : m.confirmVersionSwitch = none) (hserver : m.serverVersion = some w)
      (hmodal : m'.confirmVersionSwitch = some ⟨w, .confirming⟩) (he : Plain e)
  | launches (w : String) (hu : u.isReport = false)
      (hopen : m.confirmVersionSwitch = some ⟨w, .confirming⟩)
      (hmodal : m'.confirmVersionSwitch = some ⟨w, .running⟩)
      (he : e = .runUpdateInstaller (some w))
  | restarts (w : String) (hu : u.isReport = false)
      (hopen : m.confirmVersionSwitch = some ⟨w, .restart⟩)
      (hmodal : m'.confirmVersionSwitch = m.confirmVersionSwitch) (he : e = .restart)
  | dismisses (w : String) (status : ConfirmStatus) (hu : u.isReport = false)
      (hopen : m.confirmVersionSwitch = some ⟨w, status⟩) (hstatus : status ≠ .running)
      (hmodal : m'.confirmVersionSwitch = none) (he : Plain e)
  | reports (outcome : InstallerOutcome) (w : String) (status : ConfirmStatus)
      (hu : u = outcome.update) (hopen : m.confirmVersionSwitch = some ⟨w, status⟩)
      (hmodal : m'.confirmVersionSwitch = some ⟨w, outcomeStatus outcome⟩) (he : Plain e)

/-! ## What an update does to the modal -/

/-- INTERNAL: what is at most asked of the host neither installs nor restarts. -/
theorem plain_of_asks (e : Effect) (h : Console.Asks e) : Plain e := by
  obtain rfl | ⟨filter, rfl⟩ | ⟨pct, rfl⟩ := h
  · exact ⟨Effect.noConfusion, fun _ => Effect.noConfusion⟩
  · exact ⟨Effect.noConfusion, fun _ => Effect.noConfusion⟩
  · exact ⟨Effect.noConfusion, fun _ => Effect.noConfusion⟩

/-- INTERNAL: nothing is plain. -/
theorem plain_none : Plain .none := plain_of_asks .none (Or.inl rfl)

/-- INTERNAL: of the effects of the panel only those of a yes are not plain. -/
theorem plain_effect (now : ℕ) (p : Panel) (u : Update) (hyes : u ≠ .confirmVersionSwitchYes) :
    Plain (p.effect now u) := by
  unfold Panel.effect
  split
  · split
    · split
      · exact ⟨Effect.noConfusion, fun _ => Effect.noConfusion⟩
      · exact plain_none
    · exact plain_none
  · exact absurd rfl hyes
  · exact plain_none

/-- INTERNAL: the modal is opened on the server's version, or stays. -/
theorem ModalMove.of_begin (m m' : ConsoleModel) (e : Effect) (he : Plain e)
    (hmodal : m'.confirmVersionSwitch = (panel m).openConfirm) :
    ModalMove m .beginConfirmVersionSwitch m' e := by
  unfold Panel.openConfirm at hmodal
  split at hmodal
  · next w hnone hserver =>
    split at hmodal
    · exact ModalMove.opens w rfl hnone hserver hmodal he
    · exact ModalMove.keeps (hmodal.trans hnone.symm) (fun h => by cases h) he
  · exact ModalMove.keeps hmodal (fun h => by cases h) he

/-- INTERNAL: beside the panel's effect an update at most asks something of the host. -/
theorem plain_of_effect (now : ℕ) (p : Panel) (u : Update) (e : Effect)
    (hplain : Plain (p.effect now u))
    (heffect : e = p.effect now u ∨ p.effect now u = .none ∧ Console.Asks e) : Plain e := by
  obtain he | ⟨-, hasks⟩ := heffect
  · rw [he]
    exact hplain
  · exact plain_of_asks e hasks

/-- INTERNAL: a yes starts the installer, or restarts once it is through.
SRCLINE: core.rs:1151-1172 -/
theorem ModalMove.of_yes (m m' : ConsoleModel) (now : ℕ) (e : Effect)
    (hmodal : m'.confirmVersionSwitch = (panel m).confirmYes)
    (heffect : e = (panel m).effect now .confirmVersionSwitchYes ∨
      (panel m).effect now .confirmVersionSwitchYes = .none ∧ Console.Asks e) :
    ModalMove m .confirmVersionSwitchYes m' e := by
  have hconfirm : (panel m).confirmVersionSwitch = m.confirmVersionSwitch := rfl
  have hplain := plain_of_effect now (panel m) .confirmVersionSwitchYes e
  have hkeeps (he : Plain e) (hsame : m'.confirmVersionSwitch = m.confirmVersionSwitch) :=
    (ModalMove.keeps hsame (fun hreport => by cases hreport) he :
      ModalMove m .confirmVersionSwitchYes m' e)
  unfold Panel.confirmYes at hmodal
  unfold Panel.effect at hplain heffect
  dsimp only at hplain heffect
  rw [hconfirm] at hmodal hplain heffect
  cases hopen : m.confirmVersionSwitch with
  | none =>
    rw [hopen] at hmodal hplain heffect
    exact hkeeps (hplain plain_none heffect) (hmodal.trans hopen.symm)
  | some c =>
    obtain ⟨w, status⟩ := c
    rw [hopen] at hmodal hplain heffect
    cases status with
    | confirming =>
      refine ModalMove.launches w rfl hopen hmodal (heffect.resolve_right fun hask => ?_)
      cases hask.1
    | restart =>
      refine ModalMove.restarts w rfl hopen (hmodal.trans hopen.symm)
        (heffect.resolve_right fun hask => ?_)
      cases hask.1
    | running => exact hkeeps (hplain plain_none heffect) (hmodal.trans hopen.symm)
    | failed output => exact hkeeps (hplain plain_none heffect) (hmodal.trans hopen.symm)

/-- INTERNAL: a no closes the modal, unless the installer is running.
SRCLINE: core.rs:1173-1184 -/
theorem ModalMove.of_no (m m' : ConsoleModel) (e : Effect) (he : Plain e)
    (hmodal : m'.confirmVersionSwitch = (panel m).confirmNo) :
    ModalMove m .confirmVersionSwitchNo m' e := by
  have hconfirm : (panel m).confirmVersionSwitch = m.confirmVersionSwitch := rfl
  unfold Panel.confirmNo at hmodal
  rw [hconfirm] at hmodal
  cases hopen : m.confirmVersionSwitch with
  | none =>
    rw [hopen] at hmodal
    exact ModalMove.keeps (hmodal.trans hopen.symm) (fun h => by cases h) he
  | some c =>
    rw [hopen, Option.filter_some] at hmodal
    by_cases hrunning : c.status = .running
    · rw [if_pos (decide_eq_true hrunning)] at hmodal
      exact ModalMove.keeps (hmodal.trans hopen.symm) (fun h => by cases h) he
    · rw [if_neg fun hdecide => hrunning (of_decide_eq_true hdecide)] at hmodal
      exact ModalMove.dismisses c.serverVersion c.status rfl hopen hrunning hmodal he

/-- INTERNAL: a report of the installer lands on the modal, if there is one.
SRCLINE: core.rs:1185-1203 -/
theorem ModalMove.of_report (m m' : ConsoleModel) (e : Effect) (outcome : InstallerOutcome)
    (he : Plain e)
    (hmodal : m'.confirmVersionSwitch =
      m.confirmVersionSwitch.map fun c => { c with status := outcomeStatus outcome }) :
    ModalMove m outcome.update m' e := by
  cases hopen : m.confirmVersionSwitch with
  | none =>
    rw [hopen] at hmodal
    exact ModalMove.keeps (hmodal.trans hopen.symm) (fun _ => hopen) he
  | some c =>
    rw [hopen] at hmodal
    exact ModalMove.reports outcome c.serverVersion c.status rfl hopen hmodal he

/-- INTERNAL: **what an update does to the modal**: what it does to the panel.
SRCLINE: core.rs:333-1203 -/
theorem apply_modal (now : ℕ) (m m' : ConsoleModel) (u : Update) (e : Effect)
    (h : m.apply now u = some (m', e)) : ModalMove m u m' e := by
  obtain ⟨hpanel, heffect⟩ := Console.apply_panel now m m' u e h
  have hmodal : m'.confirmVersionSwitch = ((panel m).after now u).confirmVersionSwitch :=
    congrArg Panel.confirmVersionSwitch hpanel
  have hplain (hyes : u ≠ .confirmVersionSwitchYes) : Plain e :=
    plain_of_effect now (panel m) u e (plain_effect now (panel m) u hyes) heffect
  cases u with
  | beginConfirmVersionSwitch =>
    exact ModalMove.of_begin m m' e (hplain Update.noConfusion) hmodal
  | confirmVersionSwitchYes => exact ModalMove.of_yes m m' now e hmodal heffect
  | confirmVersionSwitchNo => exact ModalMove.of_no m m' e (hplain Update.noConfusion) hmodal
  | installerSucceeded =>
    exact ModalMove.of_report m m' e .succeeded (hplain Update.noConfusion) hmodal
  | installerFailed output =>
    exact ModalMove.of_report m m' e (.failed output) (hplain Update.noConfusion) hmodal
  | _ => exact ModalMove.keeps hmodal (fun hreport => by cases hreport) (hplain Update.noConfusion)

/-! ## Sessions -/

/-- INTERNAL: the modal of a version switch is showing, as `c` says. -/
def Shows (c : ConfirmVersionSwitch) (s : Session) : Prop := s.console.confirmVersionSwitch = some c

/-- INTERNAL: a modal is opened on the version `w`, the server's at that moment. -/
def Opens (w : String) (s : Session) (l : SessionStep) : Prop :=
  (∃ now, l = .update now .beginConfirmVersionSwitch) ∧ s.console.confirmVersionSwitch = none ∧
    s.console.serverVersion = some w

/-- INTERNAL: an installer is started with the version `w`. -/
def Launches (w : String) (s : Session) (l : SessionStep) : Prop :=
  ∃ s', s.apply l = some (s', .runUpdateInstaller (some w))

/-- INTERNAL: the installer of the version `w` reports success. -/
def Succeeds (w : String) (s : Session) (l : SessionStep) : Prop :=
  (∃ now, l = .report now 0 .succeeded) ∧ s.installers = [some w]

/-- INTERNAL: what the steps of a session have led to: while the modal says so, the one
installer that was started from it is running, and otherwise none is; what the modal says has
come about as it should. -/
structure Told (budget : ℕ) (steps : List SessionStep) (s : Session) : Prop where
  idle : (∀ w, ¬ Shows ⟨w, .running⟩ s) → s.installers = []
  running : ∀ w, Shows ⟨w, .running⟩ s → s.installers = [some w] ∧
    Since Session.step (Session.new budget) (Launches w) (Shows ⟨w, .running⟩) steps
  confirming : ∀ w, Shows ⟨w, .confirming⟩ s →
    Since Session.step (Session.new budget) (Opens w) (Shows ⟨w, .confirming⟩) steps
  restart : ∀ w, Shows ⟨w, .restart⟩ s →
    Since Session.step (Session.new budget) (Succeeds w) (Shows ⟨w, .restart⟩) steps

/-- INTERNAL: without a modal there is little to tell. -/
theorem told_of_none (budget : ℕ) (steps : List SessionStep) (s : Session)
    (hnone : s.console.confirmVersionSwitch = none) (hidle : s.installers = []) :
    Told budget steps s := by
  have hshows (c : ConfirmVersionSwitch) : ¬ Shows c s := by
    intro h
    unfold Shows at h
    rw [hnone] at h
    cases h
  exact ⟨fun _ => hidle, fun w h => absurd h (hshows _), fun w h => absurd h (hshows _),
    fun w h => absurd h (hshows _)⟩

/-- INTERNAL: a session starts without a modal. -/
theorem told_new (budget : ℕ) : Told budget [] (Session.new budget) :=
  told_of_none budget [] _ rfl rfl

/-- INTERNAL: the modal shows one thing at a time. -/
theorem Shows.inj (c c' : ConfirmVersionSwitch) (s : Session) (h : Shows c s) (h' : Shows c' s) :
    c = c' :=
  Option.some.inj (h.symm.trans h')

/-- INTERNAL: one version, and one status. -/
theorem Shows.parts (w w' : String) (status status' : ConfirmStatus) (s : Session)
    (h : Shows ⟨w, status⟩ s) (h' : Shows ⟨w', status'⟩ s) : w' = w ∧ status' = status := by
  have hsame := Shows.inj _ _ s h' h
  rw [ConfirmVersionSwitch.mk.injEq] at hsame
  exact hsame

/-- INTERNAL: with a modal it is enough to tell what belongs to its status. -/
theorem told_of_shows (budget : ℕ) (steps : List SessionStep) (s : Session) (w : String)
    (status : ConfirmStatus) (hmodal : Shows ⟨w, status⟩ s)
    (hidle : status ≠ .running → s.installers = [])
    (hrunning : status = .running → s.installers = [some w] ∧
      Since Session.step (Session.new budget) (Launches w) (Shows ⟨w, .running⟩) steps)
    (hconfirming : status = .confirming →
      Since Session.step (Session.new budget) (Opens w) (Shows ⟨w, .confirming⟩) steps)
    (hrestart : status = .restart →
      Since Session.step (Session.new budget) (Succeeds w) (Shows ⟨w, .restart⟩) steps) :
    Told budget steps s := by
  refine ⟨fun hnone => hidle fun hstatus => ?_, fun w' hw' => ?_, fun w' hw' => ?_,
    fun w' hw' => ?_⟩
  · rw [hstatus] at hmodal
    exact hnone w hmodal
  · obtain ⟨hw, hstatus⟩ := hmodal.parts w w' status .running s hw'
    rw [hw]
    exact hrunning hstatus.symm
  · obtain ⟨hw, hstatus⟩ := hmodal.parts w w' status .confirming s hw'
    rw [hw]
    exact hconfirming hstatus.symm
  · obtain ⟨hw, hstatus⟩ := hmodal.parts w w' status .restart s hw'
    rw [hw]
    exact hrestart hstatus.symm

/-! ## One step of a session -/

/-- INTERNAL: what a step does to the modal and to the installers, and the effect it has. -/
inductive SessionMove (s : Session) (l : SessionStep) (s' : Session) (e : Effect) : Prop
  | keeps (hl : ∃ now u, l = .update now u)
      (hmodal : s'.console.confirmVersionSwitch = s.console.confirmVersionSwitch)
      (hinstallers : s'.installers = s.installers) (he : Plain e)
  | opens (w : String) (hopens : Opens w s l) (hmodal : Shows ⟨w, .confirming⟩ s')
      (hinstallers : s.installers = [] ∧ s'.installers = []) (he : Plain e)
  | launches (w : String) (hl : ∃ now u, l = .update now u) (hshown : Shows ⟨w, .confirming⟩ s)
      (hmodal : Shows ⟨w, .running⟩ s') (hinstallers : s'.installers = [some w])
      (he : e = .runUpdateInstaller (some w))
  | restarts (w : String) (hl : ∃ now u, l = .update now u) (hshown : Shows ⟨w, .restart⟩ s)
      (hmodal : Shows ⟨w, .restart⟩ s') (hinstallers : s'.installers = []) (he : e = .restart)
  | dismisses (hl : ∃ now u, l = .update now u)
      (hmodal : s'.console.confirmVersionSwitch = none) (hinstallers : s'.installers = [])
      (he : Plain e)
  | reports (now : ℕ) (outcome : InstallerOutcome) (w : String)
      (hl : l = .report now 0 outcome) (hshown : Shows ⟨w, .running⟩ s)
      (hbefore : s.installers = [some w]) (hmodal : Shows ⟨w, outcomeStatus outcome⟩ s')
      (hinstallers : s'.installers = []) (he : Plain e)

/-- INTERNAL: an installer is launched from the modal, which shows it running after that. -/
theorem SessionMove.launched (s s' : Session) (l : SessionStep) (version : Option String)
    (h : SessionMove s l s' (.runUpdateInstaller version)) :
    ∃ w, version = some w ∧ Shows ⟨w, .confirming⟩ s ∧ Shows ⟨w, .running⟩ s' := by
  cases h with
  | launches w _ hshown hmodal _ he => exact ⟨w, Effect.runUpdateInstaller.inj he, hshown, hmodal⟩
  | restarts _ _ _ _ _ he => cases he
  | keeps _ _ _ he | opens _ _ _ _ he | dismisses _ _ _ he | reports _ _ _ _ _ _ _ _ he =>
    exact absurd rfl (he.2 version)

/-- INTERNAL: what an installer reports lands on the modal that shows it running. -/
theorem SessionMove.reported (s s' : Session) (e : Effect) (now n : ℕ)
    (outcome : InstallerOutcome) (h : SessionMove s (.report now n outcome) s' e) :
    ∃ w, Shows ⟨w, .running⟩ s ∧ Shows ⟨w, outcomeStatus outcome⟩ s' ∧ s'.installers = [] := by
  have hreport (hl : ∃ now' u, SessionStep.report now n outcome = .update now' u) : False := by
    obtain ⟨now', u, hl⟩ := hl
    cases hl
  cases h with
  | reports _ outcome' w hl hshown _ hmodal hinstallers _ =>
    cases hl
    exact ⟨w, hshown, hmodal, hinstallers⟩
  | opens _ hopens _ _ _ => exact (hreport (hopens.1.imp fun _ hl => ⟨_, hl⟩)).elim
  | keeps hl _ _ _ | launches _ hl _ _ _ _ | restarts _ hl _ _ _ _ | dismisses hl _ _ _ =>
    exact (hreport hl).elim

/-- INTERNAL: the console is restarted from the modal that shows the success. -/
theorem SessionMove.restarted (s s' : Session) (l : SessionStep)
    (h : SessionMove s l s' .restart) : ∃ w, Shows ⟨w, .restart⟩ s := by
  cases h with
  | restarts w _ hshown _ _ _ => exact ⟨w, hshown⟩
  | launches _ _ _ _ _ he => cases he
  | keeps _ _ _ he | opens _ _ _ _ he | dismisses _ _ _ he | reports _ _ _ _ _ _ _ _ he =>
    exact absurd rfl he.1

/-- INTERNAL: a step is an update that the console takes, from an installer or not. -/
theorem apply_eq_some (s s' : Session) (l : SessionStep) (e : Effect)
    (h : s.apply l = some (s', e)) :
    (∃ now u, l = .update now u ∧ u.isReport = false ∧
      s.console.apply now u = some (s'.console, e) ∧
      s'.installers = s.installers ++ e.installers) ∨
    ∃ now n outcome, l = .report now n outcome ∧ n < s.installers.length ∧
      s.console.apply now outcome.update = some (s'.console, e) ∧
      s'.installers = s.installers.eraseIdx n ++ e.installers := by
  cases l with
  | update now u =>
    unfold Session.apply at h
    dsimp only at h
    split at h
    · cases h
    · next hu =>
      obtain ⟨r, hr, hpair⟩ := Option.map_eq_some_iff.mp h
      cases hpair
      exact Or.inl ⟨now, u, rfl, eq_false_of_ne_true hu, hr, rfl⟩
  | report now n outcome =>
    unfold Session.apply at h
    dsimp only at h
    split at h
    · next hn =>
      obtain ⟨r, hr, hpair⟩ := Option.map_eq_some_iff.mp h
      cases hpair
      exact Or.inr ⟨now, n, outcome, rfl, hn, hr, rfl⟩
    · cases h

/-- INTERNAL: a plain effect starts no installer. -/
theorem Plain.installers (e : Effect) (he : Plain e) : e.installers = [] := by
  cases e with
  | runUpdateInstaller version => exact absurd rfl (he.2 version)
  | _ => rfl

/-- INTERNAL: what an installer reports is a report. -/
theorem update_isReport (outcome : InstallerOutcome) : outcome.update.isReport = true := by
  cases outcome <;> rfl

/-- INTERNAL: different outcomes are reported differently. -/
theorem update_injective (outcome outcome' : InstallerOutcome)
    (h : outcome.update = outcome'.update) : outcome = outcome' := by
  cases outcome with
  | succeeded =>
    cases outcome' with
    | succeeded => rfl
    | failed output => cases h
  | failed output =>
    cases outcome' with
    | succeeded => cases h
    | failed output' =>
      cases h
      rfl

section Told

variable (budget : ℕ) (steps : List SessionStep) (s s' : Session)

/-- INTERNAL: while the modal says anything but that it is running, no installer is. -/
theorem Told.not_running (h : Told budget steps s) (c : ConfirmVersionSwitch)
    (hc : Shows c s) (hstatus : c.status ≠ .running) : s.installers = [] := by
  refine h.idle fun w hw => hstatus ?_
  rw [hc.inj c ⟨w, .running⟩ s hw]

/-- INTERNAL: without a modal no installer is running. -/
theorem Told.no_modal (h : Told budget steps s)
    (hnone : s.console.confirmVersionSwitch = none) : s.installers = [] := by
  refine h.idle fun w hw => ?_
  unfold Shows at hw
  rw [hnone] at hw
  cases hw

/-- INTERNAL: an installer is running, so the modal says so. -/
theorem Told.shows_running (h : Told budget steps s) (n : ℕ) (hn : n < s.installers.length) :
    n = 0 ∧ ∃ w, Shows ⟨w, .running⟩ s ∧ s.installers = [some w] := by
  by_cases hrunning : ∃ w, Shows ⟨w, .running⟩ s
  · obtain ⟨w, hw⟩ := hrunning
    have hone := (h.running w hw).1
    refine ⟨?_, w, hw, hone⟩
    rw [hone, List.length_singleton] at hn
    omega
  · rw [h.idle fun w hw => hrunning ⟨w, hw⟩] at hn
    exact absurd hn (Nat.not_lt_zero n)

/-- INTERNAL: **what one step of a session does.** -/
theorem Told.moves (h : Told budget steps s) (l : SessionStep) (e : Effect)
    (happly : s.apply l = some (s', e)) :
    SessionMove s l s' e := by
  rcases apply_eq_some s s' l e happly with hupdate | hreport
  · obtain ⟨now, u, hl, hu, hconsole, hinstallers⟩ := hupdate
    have hsame (he : Plain e) : s'.installers = s.installers := by
      rw [hinstallers, he.installers, List.append_nil]
    cases apply_modal now _ _ u e hconsole with
    | keeps hmodal _ he => exact SessionMove.keeps ⟨now, u, hl⟩ hmodal (hsame he) he
    | opens w hbegin hnone hserver hmodal he =>
      rw [hbegin] at hl
      have hidle := h.no_modal budget steps s hnone
      exact SessionMove.opens w ⟨⟨now, hl⟩, hnone, hserver⟩ hmodal
        ⟨hidle, (hsame he).trans hidle⟩ he
    | launches w _ hopen hmodal he =>
      have hidle := h.not_running budget steps s _ hopen ConfirmStatus.noConfusion
      refine SessionMove.launches w ⟨now, u, hl⟩ hopen hmodal ?_ he
      rw [hinstallers, hidle, he]
      rfl
    | restarts w _ hopen hmodal he =>
      have hidle := h.not_running budget steps s _ hopen ConfirmStatus.noConfusion
      refine SessionMove.restarts w ⟨now, u, hl⟩ hopen (hmodal.trans hopen) ?_ he
      rw [hinstallers, hidle, he]
      rfl
    | dismisses w status _ hopen hstatus hmodal he =>
      have hidle := h.not_running budget steps s _ hopen hstatus
      exact SessionMove.dismisses ⟨now, u, hl⟩ hmodal ((hsame he).trans hidle) he
    | reports outcome w status hreport _ _ _ =>
      rw [hreport, update_isReport] at hu
      cases hu
  · obtain ⟨now, n, outcome, hl, hn, hconsole, hinstallers⟩ := hreport
    obtain ⟨hzero, w, hw, hone⟩ := h.shows_running budget steps s n hn
    have hfrom (hu : outcome.update.isReport = false) : False := by
      rw [update_isReport] at hu
      cases hu
    cases apply_modal now _ _ _ e hconsole with
    | keeps _ hnone _ =>
      have hmodal := hnone (update_isReport outcome)
      unfold Shows at hw
      rw [hmodal] at hw
      cases hw
    | opens _ hbegin _ _ _ _ => cases outcome <;> cases hbegin
    | launches _ hu _ _ _ => exact (hfrom hu).elim
    | restarts _ hu _ _ _ => exact (hfrom hu).elim
    | dismisses _ _ hu _ _ _ _ => exact (hfrom hu).elim
    | reports outcome' w' status hreport hopen hmodal he =>
      have hsame := update_injective outcome outcome' hreport
      have hversion := (Shows.parts _ _ _ _ s hw hopen).1
      rw [hversion, ← hsame] at hmodal
      rw [hzero] at hl hinstallers
      refine SessionMove.reports now outcome w hl hw hone hmodal ?_ he
      rw [hinstallers, hone, he.installers]
      rfl

/-- INTERNAL: **the step lemma**. -/
theorem Told.step (h : Told budget steps s) (l : SessionStep)
    (hrun : run Session.step (Session.new budget) steps = some s)
    (hstep : s.step l = some s') : Told budget (steps ++ [l]) s' := by
  obtain ⟨r, happly, hfirst⟩ := Option.map_eq_some_iff.mp hstep
  obtain ⟨s₁, e⟩ := r
  have hs₁ : s₁ = s' := hfirst
  rw [hs₁] at happly
  have hrun' : run Session.step (Session.new budget) (steps ++ [l]) = some s' :=
    (run_snoc_eq_some _ _ steps l s').mpr ⟨s, hrun, hstep⟩
  cases h.moves budget steps s s' l e happly with
  | keeps _ hmodal hinstallers _ =>
    have hshows (c : ConfirmVersionSwitch) : Shows c s' ↔ Shows c s := by
      unfold Shows
      rw [hmodal]
    refine ⟨fun hnone => ?_, fun w hw => ?_, fun w hw => ?_, fun w hw => ?_⟩
    · rw [hinstallers]
      exact h.idle fun w hw => hnone w ((hshows _).mpr hw)
    · obtain ⟨hone, hsince⟩ := h.running w ((hshows _).mp hw)
      exact ⟨hinstallers.trans hone, hsince.later _ _ _ _ steps l s' hrun' hw⟩
    · exact (h.confirming w ((hshows _).mp hw)).later _ _ _ _ steps l s' hrun' hw
    · exact (h.restart w ((hshows _).mp hw)).later _ _ _ _ steps l s' hrun' hw
  | opens w hopens hmodal hinstallers _ =>
    apply told_of_shows budget _ s' w .confirming hmodal
    · exact fun _ => hinstallers.2
    · exact ConfirmStatus.noConfusion
    · exact fun _ => since_here _ _ _ _ steps l s s' hrun hopens hstep hmodal
    · exact ConfirmStatus.noConfusion
  | launches w _ _ hmodal hinstallers he =>
    rw [he] at happly
    have hsince : Since Session.step (Session.new budget) (Launches w) (Shows ⟨w, .running⟩)
        (steps ++ [l]) := since_here _ _ _ _ steps l s s' hrun ⟨s', happly⟩ hstep hmodal
    apply told_of_shows budget _ s' w .running hmodal
    · exact fun hne => absurd rfl hne
    · exact fun _ => ⟨hinstallers, hsince⟩
    · exact ConfirmStatus.noConfusion
    · exact ConfirmStatus.noConfusion
  | restarts w _ hshown hmodal hinstallers _ =>
    apply told_of_shows budget _ s' w .restart hmodal
    · exact fun _ => hinstallers
    · exact ConfirmStatus.noConfusion
    · exact ConfirmStatus.noConfusion
    · exact fun _ => (h.restart w hshown).later _ _ _ _ steps l s' hrun' hmodal
  | dismisses _ hmodal hinstallers _ => exact told_of_none budget _ s' hmodal hinstallers
  | reports now outcome w hl hshown hbefore hmodal hinstallers _ =>
    cases outcome with
    | succeeded =>
      apply told_of_shows budget _ s' w .restart hmodal
      · exact fun _ => hinstallers
      · exact ConfirmStatus.noConfusion
      · exact ConfirmStatus.noConfusion
      · exact fun _ => since_here _ _ _ _ steps l s s' hrun ⟨⟨now, hl⟩, hbefore⟩ hstep hmodal
    | failed output =>
      apply told_of_shows budget _ s' w (outcomeStatus (.failed output)) hmodal
      · exact fun _ => hinstallers
      · exact ConfirmStatus.noConfusion
      · exact ConfirmStatus.noConfusion
      · exact ConfirmStatus.noConfusion

end Told

/-! ## Every session -/

/-- INTERNAL: **the run lemma**. -/
theorem told_run (budget : ℕ) (steps : List SessionStep) (s : Session)
    (hrun : run Session.step (Session.new budget) steps = some s) : Told budget steps s := by
  induction steps using List.reverseRecOn generalizing s with
  | nil =>
    cases hrun
    exact told_new budget
  | append_singleton steps l ih =>
    obtain ⟨s₁, h₁, hlast⟩ := (run_snoc_eq_some _ _ steps l s).mp hrun
    exact (ih s₁ h₁).step budget steps s₁ s l h₁ hlast

/-- CODE: core.rs:1133-1203 — **the modal of a version switch runs one installer at a time**:
after any updates an installer is running exactly if the modal says so, and then only that one.
An installer is started only with the version the modal has shown since it was opened on what
the server said then; what it reports lands on the modal that has shown it running since it was
started; the console is restarted only while the modal shows the success it was left with. -/
theorem installer_runs_with_modal (budget : ℕ) (steps : List SessionStep) (s : Session)
    (hrun : run Session.step (Session.new budget) steps = some s) :
    s.installers.length ≤ 1 ∧ (s.installers ≠ [] ↔ ∃ w, Shows ⟨w, .running⟩ s) ∧
      ∀ l s' e, s.apply l = some (s', e) →
        (∀ version, e = .runUpdateInstaller version → ∃ w, version = some w ∧
          Since Session.step (Session.new budget) (Opens w) (Shows ⟨w, .confirming⟩) steps ∧
          Shows ⟨w, .running⟩ s') ∧
        (∀ now n outcome, l = .report now n outcome → ∃ w,
          Since Session.step (Session.new budget) (Launches w) (Shows ⟨w, .running⟩) steps ∧
          Shows ⟨w, outcomeStatus outcome⟩ s' ∧ s'.installers = []) ∧
        (e = .restart → ∃ w,
          Since Session.step (Session.new budget) (Succeeds w) (Shows ⟨w, .restart⟩) steps) := by
  have htold := told_run budget steps s hrun
  have hiff : s.installers ≠ [] ↔ ∃ w, Shows ⟨w, .running⟩ s := by
    constructor
    · intro hsome
      by_contra hnone
      exact hsome (htold.idle fun w hw => hnone ⟨w, hw⟩)
    · intro hsome
      obtain ⟨w, hw⟩ := hsome
      rw [(htold.running w hw).1]
      exact List.cons_ne_nil _ _
  refine ⟨?_, hiff, fun l s' e happly => ?_⟩
  · by_cases hnone : s.installers = []
    · rw [hnone]
      exact Nat.zero_le 1
    · obtain ⟨w, hw⟩ := hiff.mp hnone
      rw [(htold.running w hw).1]
      exact le_rfl
  have hmove := htold.moves budget steps s s' l e happly
  refine ⟨fun version he => ?_, fun now n outcome hl => ?_, fun he => ?_⟩
  · rw [he] at hmove
    obtain ⟨w, hversion, hshown, hmodal⟩ := SessionMove.launched s s' l version hmove
    exact ⟨w, hversion, htold.confirming w hshown, hmodal⟩
  · rw [hl] at hmove
    obtain ⟨w, hshown, hmodal, hinstallers⟩ := SessionMove.reported s s' e now n outcome hmove
    exact ⟨w, (htold.running w hshown).2, hmodal, hinstallers⟩
  · rw [he] at hmove
    obtain ⟨w, hshown⟩ := SessionMove.restarted s s' l hmove
    exact ⟨w, htold.restart w hshown⟩

/-- INTERNAL: a switch that succeeds, the server being restarted meanwhile. -/
def upgrade : List SessionStep :=
  [.update 0 (.serverInfoReceived "0.2.0"), .update 1 .beginConfirmVersionSwitch,
    .update 2 .confirmVersionSwitchYes, .update 3 (.serverInfoReceived "0.1.4"),
    .report 4 0 .succeeded]

/-- INTERNAL: after `upgrade` the console restarts on request. -/
theorem installer_runs_upgrade :
    ∃ s s', run Session.step (Session.new 1000) upgrade = some s ∧
      s.apply (.update 5 .confirmVersionSwitchYes) = some (s', .restart) ∧
      ∃ w, Since Session.step (Session.new 1000) (Succeeds w) (Shows ⟨w, .restart⟩) upgrade :=
  ⟨_, _, rfl, rfl, ((installer_runs_with_modal 1000 upgrade _ rfl).2.2
    (.update 5 .confirmVersionSwitchYes) _ _ rfl).2.2 rfl⟩

end TracingConsole.Analysis.VersionSwitch
