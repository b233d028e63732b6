import TracingConsole.Model.Apply

/-!
# A session

The loop around the reducer (runtime.rs:316-397): it applies one update after the other, and an
installer that an update asks for runs in the background until it reports its outcome, which is
an update as well.
-/

set_option autoImplicit false

namespace TracingConsole.Model

/-- INTERNAL: how an installer ends, with what is shown of a failure.
SRCLINE: runtime.rs:367-391 -/
inductive InstallerOutcome where
  | succeeded
  | failed (output : String)
deriving DecidableEq

/-- INTERNAL: the update an installer reports its outcome with.
SRCLINE: runtime.rs:371-392 -/
def InstallerOutcome.update : InstallerOutcome → Update
  | .succeeded => .installerSucceeded
  | .failed output => .installerFailed output

/-- INTERNAL: whether an update comes from an installer. -/
def Update.isReport : Update → Bool
  | .installerSucceeded | .installerFailed _ => true
  | _ => false

/-- INTERNAL: the installers an effect starts, each by the version it is given.
SRCLINE: runtime.rs:355-369 -/
def Effect.installers : Effect → List (Option String)
  | .runUpdateInstaller version => [version]
  | _ => []

/-- INTERNAL: the console, and the installers that have not reported yet. -/
structure Session where
  console : ConsoleModel
  installers : List (Option String)

/-- INTERNAL: what can happen next: an update that no installer sends, or the report of the
`n`-th of the installers. -/
inductive SessionStep where
  | update (now : ℕ) (u : Update)
  | report (now n : ℕ) (outcome : InstallerOutcome)

namespace Session

/-- INTERNAL: SRCLINE: runtime.rs:316-330 -/
def new (historyBudget : ℕ) : Session :=
  { console := ConsoleModel.new historyBudget, installers := [] }

/-- INTERNAL: one update and the effect it has.
SRCLINE: runtime.rs:332-397 -/
def apply (s : Session) : SessionStep → Option (Session × Effect)
  | .update now u =>
    if u.isReport then none
    else
      (s.console.apply now u).map fun r =>
        ({ console := r.1, installers := s.installers ++ r.2.installers }, r.2)
  | .report now n outcome =>
    if n < s.installers.length then
      (s.console.apply now outcome.update).map fun r =>
        ({ console := r.1, installers := s.installers.eraseIdx n ++ r.2.installers }, r.2)
    else none

/-- INTERNAL: one step, without its effect. -/
def step (s : Session) (l : SessionStep) : Option Session := (s.apply l).map Prod.fst

end Session

end TracingConsole.Model
