import TracingConsole.Model.Installer
import TracingConsole.Model.Session

/-!
# Running the installer

The public installer is a shell pipeline.  The version it is to install is the one the modal was
opened on, and that is whatever the host said: the pipeline is put together only from versions
that look like one.

What the shell answers is a parameter of the steps; so is the quoting of a refused version.
-/

set_option autoImplicit false

namespace TracingConsole.Model

/-! ## The pipeline -/

/-- INTERNAL: SRCLINE: installer.rs:14-17 -/
def installerUrl : String :=
  "https://raw.githubusercontent.com/kvc0/tracing-console/main/install.sh"

/-- INTERNAL: SRCLINE: installer.rs:173-175 -/
def versionIsSafe (v : String) : Bool :=
  v ≠ "" && v.utf8ByteSize < 32 && v.toList.all fun c => c.isDigit || c = '.'

/-- INTERNAL: SRCLINE: installer.rs:158-171 -/
def installerCommand : Option String → String
  | none => "set -o pipefail; curl -fsSL " ++ installerUrl ++ " | bash"
  | some v => "set -o pipefail; curl -fsSL " ++ installerUrl ++ " | bash -s -- " ++ v

/-- INTERNAL: what a shell that was started leaves behind; bytes that are no text have been
replaced.
SRCLINE: installer.rs:57-73, 149-156 -/
structure ShellOutput where
  success : Bool
  status : String
  stderr : String
  stdout : String

/-- INTERNAL: SRCLINE: installer.rs:62-73 -/
def ShellOutput.combined (output : ShellOutput) : String :=
  if output.stdout = "" then output.stderr
  else if output.stderr ≠ "" ∧ output.stderr.toList.getLast? ≠ some '\n' then
    output.stderr ++ "\n" ++ output.stdout
  else output.stderr ++ output.stdout

section Quoting

-- a text in quotes, as it is debugged
variable (debug : String → String)

/-- INTERNAL: SRCLINE: installer.rs:50-53 -/
def refusal (v : String) : String :=
  "refusing to run installer for unsafe version string: " ++ debug v

/-- INTERNAL: the shell is asked only when the version is safe.
SRCLINE: installer.rs:46-79 -/
def runCapturing (bash : String → Except String ShellOutput) (version : Option String) :
    Except String (ShellOutput × String) :=
  match version.filter fun v => !versionIsSafe v with
  | some v => .error (refusal debug v)
  | none =>
    (bash (installerCommand version)).map fun output =>
      (output, sanitizeForModal output.combined)

end Quoting

/-- INTERNAL: `str::trim_end`. -/
def trimEnd (text : String) : String :=
  String.ofList (text.toList.reverse.dropWhile isWhiteSpace).reverse

/-- INTERNAL: what the task that ran it reports.
SRCLINE: runtime.rs:367-392 -/
def installerOutcome : Except String (ShellOutput × String) → InstallerOutcome
  | .ok (output, text) =>
    if output.success then .succeeded
    else if text = "" then .failed ("installer exited with status " ++ output.status)
    else .failed ("installer exited with status " ++ output.status ++ "\n\n" ++ trimEnd text)
  | .error e => .failed ("failed to launch installer: " ++ e)

/-- INTERNAL: what is given to a shell for a version. -/
def scripts (version : Option String) : List String :=
  if version.any fun v => !versionIsSafe v then [] else [installerCommand version]

/-! ## A session with its shells -/

/-- INTERNAL: a session; `started` is a history, what was given to a shell, oldest first. -/
structure Installing where
  session : Session
  started : List String

/-- INTERNAL: an update that no installer sends, or the end of the `n`-th task that runs one, whose
shell, if it has one, gave `answer`. -/
inductive InstallingStep where
  | update (now : ℕ) (u : Update)
  | finish (now n : ℕ) (answer : Except String ShellOutput)

namespace Installing

/-- INTERNAL: a console before its first update. -/
def new (historyBudget : ℕ) : Installing := { session := Session.new historyBudget, started := [] }

/-- INTERNAL: the session goes on; every installer an effect starts gets its shell.
SRCLINE: runtime.rs:355-394 -/
def goOn (s : Installing) (l : SessionStep) : Option Installing :=
  (s.session.apply l).map fun r =>
    { session := r.1, started := s.started ++ r.2.installers.flatMap scripts }

/-- INTERNAL: SRCLINE: runtime.rs:332-397 -/
def step (debug : String → String) (s : Installing) : InstallingStep → Option Installing
  | .update now u => s.goOn (.update now u)
  | .finish now n answer =>
    (s.session.installers[n]?).bind fun version =>
      s.goOn (.report now n (installerOutcome (runCapturing debug (fun _ => answer) version)))

end Installing

end TracingConsole.Model
