import TracingConsole.Model.Apply

/-!
# The keyboard and the terminal loop

Two threads share three flags (runtime.rs:290-433, 515-763).  The loop applies the updates one by
one and stores after each which prompt is open, which view is shown and whether a quit is to be
confirmed.  The keyboard thread loads these flags, one at a time, to see what a key means, and
sends the update it stands for.

Stores and loads are steps of their own, so a key may be read by flags that the loop has yet to
renew.
-/

set_option autoImplicit false

namespace TracingConsole.Model

/-- INTERNAL: the keys the bindings tell apart. -/
inductive KeyCode where
  | char (c : Char)
  | backspace | enter | esc | tab | backTab
  | up | down | left | right
  | other
deriving DecidableEq

/-- INTERNAL: SRCLINE: runtime.rs:497-512 -/
inductive ModalKind where
  | none
  | chance
  | graphAgg
  | graphWindow
  | graphLookback
  | exploreSearch
  | confirmVersionSwitch
deriving DecidableEq

/-- INTERNAL: SRCLINE: runtime.rs:514-520 -/
inductive ViewTag where
  | table | graph | explore | traceDetail
deriving DecidableEq

namespace ConsoleModel

/-- INTERNAL: SRCLINE: runtime.rs:398-431 -/
def modalKind (m : ConsoleModel) : ModalKind :=
  if m.confirmVersionSwitch.isSome then .confirmVersionSwitch
  else if m.chanceInput.isSome then .chance
  else
    match m.view with
    | .graph gs =>
      if gs.aggInput.isSome then .graphAgg
      else if gs.windowInput.isSome then .graphWindow
      else if gs.lookbackInput.isSome then .graphLookback
      else .none
    | .explore es => if es.searchInput.isSome then .exploreSearch else .none
    | _ => .none

/-- INTERNAL: SRCLINE: runtime.rs:422-427 -/
def viewTag (m : ConsoleModel) : ViewTag :=
  match m.view with
  | .table => .table
  | .graph _ => .graph
  | .explore _ => .explore
  | .traceDetail _ => .traceDetail

end ConsoleModel

/-! ## The bindings -/

namespace Keyboard

/-- INTERNAL: the four keys of a text prompt. -/
def textPrompt (char : Char → Update) (backspace commit cancel : Update) : KeyCode → Option Update
  | .char c => some (char c)
  | .backspace => some backspace
  | .enter => some commit
  | .esc => some cancel
  | _ => none

/-- INTERNAL: SRCLINE: runtime.rs:559-593 -/
def modalUpdate : ModalKind → KeyCode → Option Update
  | .none, _ => none
  | .chance, k =>
    textPrompt .chanceInputChar .chanceInputBackspace .chanceInputCommit .chanceInputCancel k
  | .graphAgg, k =>
    textPrompt .graphAggInputChar .graphAggInputBackspace .graphAggInputCommit
      .graphAggInputCancel k
  | .graphWindow, k =>
    textPrompt .graphWindowInputChar .graphWindowInputBackspace .graphWindowInputCommit
      .graphWindowInputCancel k
  | .graphLookback, k =>
    textPrompt .graphLookbackInputChar .graphLookbackInputBackspace .graphLookbackInputCommit
      .graphLookbackInputCancel k
  | .exploreSearch, k =>
    textPrompt .exploreSearchChar .exploreSearchBackspace .exploreSearchCommit
      .exploreSearchCancel k
  | .confirmVersionSwitch, .char c =>
    if c = 'y' ∨ c = 'Y' then some .confirmVersionSwitchYes
    else if c = 'n' ∨ c = 'N' then some .confirmVersionSwitchNo
    else none
  | .confirmVersionSwitch, .esc => some .confirmVersionSwitchNo
  | .confirmVersionSwitch, _ => none

/-- INTERNAL: SRCLINE: runtime.rs:604-610 -/
def levelKey : KeyCode → Option WireLevelFilter
  | .char 'O' => some .off
  | .char 'I' => some .info
  | .char 'D' => some .debug
  | .char 'T' => some .trace
  | _ => none

/-- INTERNAL: SRCLINE: runtime.rs:651-690 -/
def graphUpdate : KeyCode → Option Update
  | .char 'q' => some .quit
  | .esc => some .toggleGraph
  | .char 's' => some .enterTable
  | .char 'e' => some .enterExplore
  | .char 'a' => some .beginGraphAggInput
  | .char 'm' => some .toggleGraphMetric
  | .char 'w' => some .beginGraphWindowInput
  | .char 'l' => some .beginGraphLookbackInput
  | .char 'u' => some .toggleGraphTimeLabels
  | .tab | .backTab => some .graphSwitchFocus
  | .down | .char 'j' => some .graphSelectDown
  | .up | .char 'k' => some .graphSelectUp
  | .left | .char 'h' => some .graphSortColumnLeft
  | .right => some .graphSortColumnRight
  | .char ' ' => some .graphToggleSplit
  | _ => none

/-- INTERNAL: SRCLINE: runtime.rs:698-717 -/
def exploreUpdate : KeyCode → Option Update
  | .char 'q' => some .quit
  | .esc => some .exitExplore
  | .char 's' => some .enterTable
  | .char 'g' => some .enterGraph
  | .char '/' => some .beginExploreSearch
  | .char 'i' => some .exploreInvertSort
  | .down | .char 'j' => some .exploreSelectDown
  | .up | .char 'k' => some .exploreSelectUp
  | .left | .char 'h' => some .exploreSortLeft
  | .right | .char 'l' => some .exploreSortRight
  | .enter => some .exploreOpenTrace
  | _ => none

/-- INTERNAL: SRCLINE: runtime.rs:724-741 -/
def traceDetailUpdate : KeyCode → Option Update
  | .char 'q' => some .quit
  | .esc => some .exitTraceDetail
  | .char 's' => some .enterTable
  | .char 'g' => some .enterGraph
  | .char 'e' => some .exitTraceDetail
  | .down => some .traceDetailSelectDown
  | .up => some .traceDetailSelectUp
  | .right => some .traceDetailExpand
  | .left => some .traceDetailCollapse
  | _ => none

/-- INTERNAL: SRCLINE: runtime.rs:744-762 -/
def tableUpdate : KeyCode → Option Update
  | .char 'q' | .esc => some .quit
  | .down | .char 'j' => some .selectDown
  | .up | .char 'k' => some .selectUp
  | .right | .char 'l' => some .expandSelected
  | .enter => some .expandAllSelected
  | .left | .char 'h' => some .collapseSelected
  | .tab | .backTab => some .switchFocus
  | .char ' ' => some .toggleSplitSelected
  | .char 'C' => some .beginChanceInput
  | .char 'g' => some .toggleGraph
  | .char 'e' => some .enterExplore
  | _ => none

/-- INTERNAL: SRCLINE: runtime.rs:641-762 -/
def viewUpdate : ViewTag → KeyCode → Option Update
  | .graph => graphUpdate
  | .explore => exploreUpdate
  | .traceDetail => traceDetailUpdate
  | .table => tableUpdate

end Keyboard

/-! ## The two threads -/

/-- INTERNAL: the shared flags. -/
inductive Flag where
  | modalKind | currentView | quitConfirmActive
deriving DecidableEq

/-- INTERNAL: where the keyboard thread is with a key.
SRCLINE: runtime.rs:539-763 -/
inductive KeyboardPhase where
  | polling
  /-- a key was read, the modal kind is loaded next -/
  | read (k : KeyCode)
  /-- no prompt, and not a level key -/
  | commanding (k : KeyCode)
  /-- no quit to dismiss, and not the key of the version switch -/
  | viewing (k : KeyCode)
deriving DecidableEq

/-- INTERNAL: how the loop was left, with the key that did it.
SRCLINE: runtime.rs:346, 354-362 -/
inductive Exit where
  | quit (k : KeyCode)
  | restart (k : KeyCode)
deriving DecidableEq

/-- INTERNAL: both threads, the flags and the keyboard's channel; an update is kept with the key
it stands for.  `toStore` are the flags the loop has yet to store. -/
structure Terminal where
  console : ConsoleModel
  modalKind : ModalKind
  currentView : ViewTag
  quitConfirmActive : Bool
  toStore : List Flag
  keyboard : KeyboardPhase
  channel : List (KeyCode × Update)
  exited : Option Exit

/-- INTERNAL: `dropped` says that the channel is full. -/
inductive TerminalStep where
  | key (k : KeyCode)
  | loadModal (dropped : Bool)
  | loadQuit (dropped : Bool)
  | loadView (dropped : Bool)
  /-- the loop takes the keyboard's next update -/
  | apply (now : ℕ)
  /-- the loop takes an update of another sender -/
  | other (now : ℕ) (u : Update)
  | store
  | tick (now : ℕ)

/-- INTERNAL: whether an update is one the keyboard never sends: it comes from the network task or
from an installer.
SRCLINE: runtime.rs:109-260, 371-392 -/
def Update.isExternal : Update → Bool
  | .spanReceived _ | .cacheLevelReceived _ | .cacheChanceReceived _ | .serverInfoReceived _
  | .connected | .disconnected _ | .status _ | .installerSucceeded | .installerFailed _ => true
  | _ => false

namespace Terminal

/-- INTERNAL: SRCLINE: runtime.rs:309-327 -/
def start (historyBudget : ℕ) : Terminal where
  console := ConsoleModel.new historyBudget
  modalKind := .none
  currentView := .table
  quitConfirmActive := false
  toStore := []
  keyboard := .polling
  channel := []
  exited := none

/-- INTERNAL: the key is dealt with: its update is sent, unless the channel is full or the key
means nothing.
SRCLINE: runtime.rs:528-537 -/
def sendOrExit (s : Terminal) (dropped : Bool) (k : KeyCode) (u : Option Update) : Terminal :=
  { s with
    keyboard := .polling
    channel := if dropped then s.channel else s.channel ++ u.toList.map fun u => (k, u) }

/-- INTERNAL: all flags are stored after an update.
SRCLINE: runtime.rs:421-433 -/
def allFlags : List Flag := [.modalKind, .currentView, .quitConfirmActive]

/-- INTERNAL: the loop is left on two of the effects.
SRCLINE: runtime.rs:344-362 -/
def exitOf (k : KeyCode) : Effect → Option Exit
  | .quit => some (.quit k)
  | .restart => some (.restart k)
  | _ => none

/-- INTERNAL: SRCLINE: runtime.rs:421-433 -/
def storeFlag (s : Terminal) : Flag → Terminal
  | .modalKind => { s with modalKind := s.console.modalKind }
  | .currentView => { s with currentView := s.console.viewTag }
  | .quitConfirmActive => { s with quitConfirmActive := s.console.quitConfirmDeadline.isSome }

/-- INTERNAL: one step, if the thread that takes it is where it needs to be.
SRCLINE: runtime.rs:335-450, 539-763 -/
def step (s : Terminal) (a : TerminalStep) : Option Terminal :=
  if s.exited ≠ none then none
  else
    match a with
    | .key k => if s.keyboard = .polling then some { s with keyboard := .read k } else none
    | .loadModal dropped =>
      match s.keyboard with
      | .read k =>
        if s.modalKind ≠ .none then
          some (s.sendOrExit dropped k (Keyboard.modalUpdate s.modalKind k))
        else
          match Keyboard.levelKey k with
          | some level => some (s.sendOrExit dropped k (some (.requestCacheLevel level)))
          | none => some { s with keyboard := .commanding k }
      | _ => none
    | .loadQuit dropped =>
      match s.keyboard with
      | .commanding k =>
        if s.quitConfirmActive ∧ k = .esc then
          some (s.sendOrExit dropped k (some .quitConfirmDismiss))
        else if k = .char 'v' then
          some (s.sendOrExit dropped k (some .beginConfirmVersionSwitch))
        else some { s with keyboard := .viewing k }
      | _ => none
    | .loadView dropped =>
      match s.keyboard with
      | .viewing k => some (s.sendOrExit dropped k (Keyboard.viewUpdate s.currentView k))
      | _ => none
    | .apply now =>
      match s.toStore, s.channel with
      | [], (k, u) :: channel =>
        (s.console.apply now u).map fun r =>
          { s with
            console := r.1, toStore := allFlags, channel := channel, exited := exitOf k r.2 }
      | _, _ => none
    | .other now u =>
      if s.toStore = [] ∧ u.isExternal then
        (s.console.apply now u).map fun r => { s with console := r.1, toStore := allFlags }
      else none
    | .store =>
      match s.toStore with
      | flag :: rest => some { s.storeFlag flag with toStore := rest }
      | [] => none
    | .tick now =>
      if s.toStore = [] then
        some { s with
          console := s.console.expireQuitConfirmIfDue now
          toStore := [.quitConfirmActive] }
      else none

end Terminal

end TracingConsole.Model
