import TracingConsole.Analysis.RecordedSpans
import TracingConsole.Analysis.Sidecar
import TracingConsole.Model.SpanGuards

/-!
# The contextual parent

`exit` pops whatever is on top of the thread's stack.  As long as the span it is told to leave is
the innermost one, the stack lists the spans entered and not exited (`stack_listed_iff`), and its
top is the parent a contextual span or event has to get.
-/

set_option autoImplicit false

namespace TracingConsole.Analysis

open TracingConsole.Library TracingConsole.Model

variable {T : Type} [DecidableEq T]

/-! ## The stacks under a step -/

/-- INTERNAL: only `enter` and `exit` touch a stack.
SRCLINE: cache.rs:353-567 -/
theorem step_spanStack (w w' : World T) (a : CacheStep T) (henter : ∀ t n, a ≠ .enter t n)
    (hexit : ∀ t, a ≠ .exit t) (hstep : w.step a = some w') : w'.spanStack = w.spanStack := by
  cases a with
  | enter t n => exact absurd rfl (henter t n)
  | exit t => exact absurd rfl (hexit t)
  | newSpan t parent metadata values =>
    simp only [World.step] at hstep
    split at hstep
    · obtain rfl := Option.some.inj hstep
      unfold World.newSpan
      split <;> rfl
    · cases hstep
  | predicate t accepts =>
    simp only [World.step] at hstep
    split at hstep
    · obtain rfl := Option.some.inj hstep
      split <;> rfl
    · cases hstep
  | allocate t now =>
    simp only [World.step] at hstep
    split at hstep
    · obtain rfl := Option.some.inj hstep
      unfold World.allocate
      dsimp only
      split <;> rfl
    · cases hstep
  | pickShard t =>
    simp only [World.step] at hstep
    split at hstep
    · obtain rfl := Option.some.inj hstep
      unfold World.pickShard
      split <;> rfl
    · cases hstep
  | insert t slabIdx =>
    simp only [World.step] at hstep
    split at hstep
    · split at hstep
      · obtain rfl := Option.some.inj hstep
        unfold World.insert
        split <;> rfl
      · cases hstep
    · cases hstep
  | store t =>
    simp only [World.step] at hstep
    split at hstep
    · obtain rfl := Option.some.inj hstep
      unfold World.store
      split <;> rfl
    · cases hstep
  | finish t =>
    simp only [World.step] at hstep
    split at hstep
    · obtain rfl := Option.some.inj hstep
      rfl
    · cases hstep
  | event t parent metadata values now =>
    cases parent with
    | none =>
      simp only [World.step] at hstep
      split at hstep
      · obtain rfl := Option.some.inj hstep
        unfold World.event
        split <;> rfl
      · cases hstep
    | some n =>
      simp only [World.step] at hstep
      split at hstep
      · obtain rfl := Option.some.inj hstep
        unfold World.event
        split <;> rfl
      · cases hstep
  | tryClose t n now =>
    simp only [World.step] at hstep
    split at hstep
    · obtain rfl := Option.some.inj hstep
      unfold World.markClosed World.tryClose
      split <;> rfl
    · cases hstep

/-- INTERNAL: an exit pops the thread's stack. -/
theorem step_exit (w w' : World T) (t : T) (hstep : w.step (.exit t) = some w') :
    w' = w.exit t := by
  simp only [World.step] at hstep
  split at hstep
  · exact (Option.some.inj hstep).symm
  · cases hstep

/-! ## What the callers have entered -/

/-- INTERNAL: **the stack of every thread lists what it has entered and not exited**. -/
def StackListed (g : GuardedWorld T) : Prop := ∀ t, g.world.spanStack t = g.entered t

/-- INTERNAL: **an exit names the innermost entered span**. -/
def LeavesInnermost (g : GuardedWorld T) : GuardStep T → Prop
  | .call _ => True
  | .leave t n => (g.entered t).head?.map StackedSpan.tracingId =
      g.world.spans[n]?.map Returned.tracingId

/-- INTERNAL: decidable, so that it can be tested on a run. -/
instance (g : GuardedWorld T) (a : GuardStep T) : Decidable (LeavesInnermost g a) := by
  cases a with
  | call a => exact isTrue trivial
  | leave t n => exact inferInstanceAs (Decidable (_ = _))

/-- INTERNAL: removing an entry that is not the first one cannot give the rest of the list. -/
theorem eraseP_eq_tail_iff (l : List StackedSpan) (id : ℕ) (hmem : ∃ e ∈ l, e.tracingId = id) :
    l.eraseP (fun e => e.tracingId = id) = l.tail ↔
      l.head?.map StackedSpan.tracingId = some id := by
  induction l with
  | nil =>
    obtain ⟨e, he, -⟩ := hmem
    cases he
  | cons x rest ih =>
    by_cases hx : x.tracingId = id
    · simp [hx]
    · -- the head stays, so the rest would have to begin with it
      have hrest : ∃ e ∈ rest, e.tracingId = id := by
        obtain ⟨e, he, hid⟩ := hmem
        rcases List.mem_cons.mp he with rfl | hin
        · exact absurd hid hx
        · exact ⟨e, hin, hid⟩
      simp only [List.eraseP_cons, hx, decide_false, cond_false, List.tail_cons, List.head?_cons,
        Option.map_some, Option.some.injEq, iff_false]
      intro heq
      cases rest with
      | nil => cases heq
      | cons y rest =>
        obtain ⟨hxy, htail⟩ := List.cons.inj heq
        have hhead := (ih hrest).mp htail
        rw [List.head?_cons, Option.map_some, Option.some.injEq, ← hxy] at hhead
        exact hx hhead

/-- INTERNAL: a call beside entering and leaving. -/
theorem step_call (g : GuardedWorld T) (a : CacheStep T) (henter : ∀ t n, a ≠ .enter t n)
    (hexit : ∀ t, a ≠ .exit t) :
    g.step (.call a) = (g.world.step a).map fun w => { g with world := w } := by
  cases a with
  | enter t n => exact absurd rfl (henter t n)
  | exit t => exact absurd rfl (hexit t)
  | _ => rfl

/-- INTERNAL: an entered span is pushed on both sides.
SRCLINE: cache.rs:523-536 -/
theorem enter_listed (g g' : GuardedWorld T) (t : T) (n : ℕ) (h : StackListed g)
    (hstep : g.enter t n = some g') : StackListed g' := by
  unfold GuardedWorld.enter at hstep
  split at hstep
  · next sp w hsp henter =>
    have hw : w = g.world.enter t sp.tracingId := by
      simp only [World.step, hsp] at henter
      split at henter
      · next heq =>
        obtain rfl := Option.some.inj heq
        exact (Option.some.inj henter).symm
      · cases henter
    subst hw
    intro t'
    split at hstep
    · next entry hentry =>
      obtain rfl := Option.some.inj hstep
      simp only [World.enter, hentry]
      by_cases ht : t' = t
      · rw [ht, Function.update_self, Function.update_self, h t]
      · rw [Function.update_of_ne ht, Function.update_of_ne ht, h t']
    · next hother =>
      obtain rfl := Option.some.inj hstep
      have hsame : (g.world.enter t sp.tracingId).spanStack = g.world.spanStack := by
        unfold World.enter
        split
        · next entry hentry => exact absurd hentry (hother entry)
        · rfl
        · rfl
      dsimp only
      rw [hsame, h t']
  · cases hstep

/-- INTERNAL: **an exit keeps the stacks listed exactly when it names the innermost span**, and
any other call keeps them.
SRCLINE: cache.rs:523-540, thread_state.rs:104-119 -/
theorem guardedStep_listed (g g' : GuardedWorld T) (a : GuardStep T) (h : StackListed g)
    (hstep : g.step a = some g') : LeavesInnermost g a ↔ StackListed g' := by
  cases a with
  | leave t n =>
    simp only [GuardedWorld.step, GuardedWorld.leave] at hstep
    split at hstep
    · next sp w hsp hexit =>
      split at hstep
      · next hin =>
        obtain rfl := Option.some.inj hstep
        obtain rfl := step_exit g.world w t hexit
        have hmem : ∃ e ∈ g.entered t, e.tracingId = sp.tracingId := by simpa using hin
        dsimp only [LeavesInnermost]
        rw [hsp, Option.map_some, ← eraseP_eq_tail_iff _ _ hmem]
        constructor
        · intro heq t'
          dsimp only [World.exit]
          by_cases ht : t' = t
          · rw [ht, Function.update_self, Function.update_self, heq, h t]
          · rw [Function.update_of_ne ht, Function.update_of_ne ht, h t']
        · intro hlisted
          have heq := hlisted t
          dsimp only [World.exit] at heq
          rw [Function.update_self, Function.update_self, h t] at heq
          exact heq.symm
      · cases hstep
    · cases hstep
  | call a =>
    refine ⟨fun _ => ?_, fun _ => trivial⟩
    by_cases henter : ∃ t n, a = .enter t n
    · obtain ⟨t, n, rfl⟩ := henter
      exact enter_listed g g' t n h hstep
    · by_cases hexit : ∃ t, a = .exit t
      · obtain ⟨t, rfl⟩ := hexit
        cases hstep
      · push Not at henter hexit
        rw [step_call g a henter hexit] at hstep
        obtain ⟨w, hw, rfl⟩ := Option.map_eq_some_iff.mp hstep
        intro t
        dsimp only
        rw [step_spanStack g.world w a henter hexit hw, h t]

/-! ## Runs -/

/-- INTERNAL: **exactly when the stacks list what has been entered** all along a run: when every
exit names the innermost span.
SRCLINE: cache.rs:523-540 -/
theorem stack_listed_iff (w : World T) (hempty : ∀ t, w.spanStack t = [])
    (steps : List (GuardStep T)) (g : GuardedWorld T)
    (hrun : run GuardedWorld.step (GuardedWorld.start w) steps = some g) :
    RunsUnder GuardedWorld.step LeavesInnermost (GuardedWorld.start w) steps ↔
      ∀ l₁ l₂ g₁, steps = l₁ ++ l₂ →
        run GuardedWorld.step (GuardedWorld.start w) l₁ = some g₁ → StackListed g₁ :=
  runsUnder_iff_passed GuardedWorld.step LeavesInnermost (fun _ => True) StackListed
    (fun _ _ _ _ _ => trivial) (fun g a g' _ h hstep => guardedStep_listed g g' a h hstep)
    (GuardedWorld.start w) steps g trivial hempty hrun

/-- INTERNAL: **a thread's contextual parent is its innermost entered span**: the last entered of
those not exited.
SRCLINE: cache.rs:373-379, 485-497, thread_state.rs:104-107 -/
structure InnermostParent (g : GuardedWorld T) (t : T) : Prop where
  top : g.world.stackTop t = (g.entered t).head?
  child : ∀ attrs, attrs.parent = .contextual →
    g.world.cache.resolveParent attrs (g.world.stackTop t) =
      (contextualParent (g.entered t).head?).map some
  event : g.world.cache.eventParent none (g.world.stackTop t) =
    contextualParent (g.entered t).head?

omit [DecidableEq T] in
/-- INTERNAL: the top of the stack is the innermost span's. -/
theorem innermostParent_of_top (g : GuardedWorld T) (t : T)
    (htop : g.world.stackTop t = (g.entered t).head?) : InnermostParent g t := by
  refine ⟨htop, fun attrs hattrs => ?_, ?_⟩
  · rw [htop]
    unfold SpanCache.resolveParent contextualParent
    rw [hattrs]
    cases (g.entered t).head? with
    | none => rfl
    | some e =>
      dsimp only
      split <;> rfl
  · rw [htop]
    unfold SpanCache.eventParent contextualParent
    cases (g.entered t).head? with
    | none => rfl
    | some e => rfl

/-- CODE: cache.rs:373-402, 523-540, thread_state.rs:104-119 — **the contextual parent is the
innermost entered span** in every state a run reaches whose every exit names the innermost
entered span of its thread. -/
theorem contextual_parent_innermost (cache : SpanCache) (key : ℕ) (keys : T → ℕ)
    (steps : List (GuardStep T)) (g : GuardedWorld T)
    (hleaves : RunsUnder GuardedWorld.step LeavesInnermost
      (GuardedWorld.start (World.start cache key keys)) steps)
    (hrun : run GuardedWorld.step (GuardedWorld.start (World.start cache key keys)) steps =
      some g) (t : T) : InnermostParent g t := by
  have hlisted := (stack_listed_iff (World.start cache key keys) (fun _ => rfl) steps g hrun).mp
    hleaves steps [] g (List.append_nil steps).symm hrun
  apply innermostParent_of_top
  rw [World.stackTop, hlisted t]

/-! Two spans, entered one inside the other. -/

/-- INTERNAL: two root spans are opened and entered. -/
def enterTwo : List (GuardStep Bool) :=
  let second : List (CacheStep Bool) :=
    [.newSpan false .root { name := "root", target := "app", level := .info } [],
      .predicate false true, .allocate false 0, .pickShard false, .insert false 1, .store false,
      .finish false, .enter false 0, .enter false 1]
  (openRoot false ++ second).map GuardStep.call

/-- CODE: cache.rs:523-540 — the inner span is left first: the outer one is the parent again. -/
theorem contextual_parent_innermost_nested :
    ∃ g, run GuardedWorld.step (GuardedWorld.start (World.start twoSlots 0 fun _ => 0))
        (enterTwo ++ [.leave false 1]) = some g ∧
      g.entered false = [{ tracingId := 2, actualId := 1024 }] ∧ InnermostParent g false :=
  ⟨_, rfl, rfl, contextual_parent_innermost twoSlots 0 (fun _ => 0)
    (enterTwo ++ [.leave false 1]) _ (by decide) rfl false⟩

/-- CODE: cache.rs:538-540 — the outer span is left first: it is the parent of what comes next,
and the inner one, which is still entered, is not. -/
theorem exited_span_is_parent :
    ∃ g, run GuardedWorld.step (GuardedWorld.start (World.start twoSlots 0 fun _ => 0))
        (enterTwo ++ [.leave false 0]) = some g ∧
      g.world.stackTop false = some { tracingId := 2, actualId := 1024 } ∧
      g.entered false = [{ tracingId := 3, actualId := 1025 }] ∧ ¬ InnermostParent g false := by
  refine ⟨_, rfl, rfl, rfl, fun hparent => ?_⟩
  have htop := hparent.top
  cases htop

end TracingConsole.Analysis
