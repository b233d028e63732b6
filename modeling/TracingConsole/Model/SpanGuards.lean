import TracingConsole.Model.CacheThreads

/-!
# Guards of entered spans

`enter` and `exit` as their callers mean them: `exit` is told which span is left, and guards may
be dropped in any order.  `entered` is what the callers have done, beside the threads of the
cache and not read by them: for each thread the spans it has entered and not exited, innermost
first, as the entries the calls to `enter` resolved.  An exit leaves the most recent of them
with its id.
-/

set_option autoImplicit false

namespace TracingConsole.Model

/-- INTERNAL: the threads of a cache, and what their callers have entered and not exited. -/
structure GuardedWorld (T : Type) where
  world : World T
  entered : T → List StackedSpan

/-- INTERNAL: a step of a thread; `leave` is `exit` with the span it is told to leave. -/
inductive GuardStep (T : Type) where
  | call (a : CacheStep T)
  | leave (t : T) (n : ℕ)
deriving DecidableEq

namespace GuardedWorld

variable {T : Type} [DecidableEq T]

/-- INTERNAL: nothing has been entered. -/
def start (w : World T) : GuardedWorld T where
  world := w
  entered := fun _ => []

/-- INTERNAL: SRCLINE: cache.rs:523-536 -/
def enter (g : GuardedWorld T) (t : T) (n : ℕ) : Option (GuardedWorld T) :=
  match g.world.spans[n]?, g.world.step (.enter t n) with
  | some sp, some w =>
    match g.world.cache.enteredSpan sp.tracingId with
    | .value entry =>
      some { world := w, entered := Function.update g.entered t (entry :: g.entered t) }
    | _ => some { g with world := w }
  | _, _ => none

/-- INTERNAL: a thread exits a span that it has entered.
SRCLINE: cache.rs:538-540 -/
def leave (g : GuardedWorld T) (t : T) (n : ℕ) : Option (GuardedWorld T) :=
  match g.world.spans[n]?, g.world.step (.exit t) with
  | some sp, some w =>
    if (g.entered t).any fun e => e.tracingId = sp.tracingId then
      some
        { world := w
          entered := Function.update g.entered t
            ((g.entered t).eraseP fun e => e.tracingId = sp.tracingId) }
    else none
  | _, _ => none

/-- INTERNAL: one step; an exit names the span it leaves. -/
def step (g : GuardedWorld T) : GuardStep T → Option (GuardedWorld T)
  | .call (.enter t n) => g.enter t n
  | .call (.exit _) => none
  | .call a => (g.world.step a).map fun w => { g with world := w }
  | .leave t n => g.leave t n

end GuardedWorld

/-- INTERNAL: the span a contextual span or event belongs to below the entry `top`.
SRCLINE: cache.rs:373-379, 485-497 -/
def contextualParent : Option StackedSpan → Outcome ℕ
  | none => .disabled
  | some top => if top.tracingId = disabledId then .disabled else .value top.actualId

end TracingConsole.Model
