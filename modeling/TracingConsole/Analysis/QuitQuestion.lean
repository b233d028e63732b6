import TracingConsole.Analysis.KeyboardRuns
import TracingConsole.Library.Since

/-!
# The question before quitting

Whatever the keys, the network and the ticks do in between, and however stale the flags are that
a key was read by: the terminal quits exactly when a second request to quit is applied while the
question of the first is still up, and less than two seconds after it.
-/

set_option autoImplicit false

namespace TracingConsole.Analysis.Console

open TracingConsole.Library
open TracingConsole.Model TracingConsole.Model.ConsoleModel

/-- INTERNAL: the loop takes a request to quit at a time. -/
def AsksToQuit (t : ℕ) (s : Terminal) (a : TerminalStep) : Prop :=
  a = .apply t ∧ ∃ k, s.channel.head? = some (k, .quit)

/-- INTERNAL: the question that was put at a time is up. -/
def QuestionUp (t : ℕ) (s : Terminal) : Prop :=
  s.console.quitConfirmDeadline = some (t + 2000000000)

/-- INTERNAL: the deadline after an update. -/
theorem apply_deadline (now : ℕ) (m m' : ConsoleModel) (u : Update) (e : Effect)
    (h : m.apply now u = some (m', e)) (deadline : ℕ)
    (hdeadline : m'.quitConfirmDeadline = some deadline) :
    m.quitConfirmDeadline = some deadline ∨ u = .quit ∧ deadline = now + 2000000000 := by
  have hpanel : m'.quitConfirmDeadline = ((panel m).after now u).quitConfirmDeadline := by
    rw [← (apply_panel now m m' u e h).1]
    rfl
  rw [hpanel] at hdeadline
  cases u with
  | quit =>
    refine Or.inr ⟨rfl, ?_⟩
    simp only [Panel.after, Panel.requestQuit] at hdeadline
    split at hdeadline
    · split at hdeadline
      · cases hdeadline
      · exact (Option.some.inj hdeadline).symm
    · exact (Option.some.inj hdeadline).symm
  | quitConfirmDismiss => cases hdeadline
  | _ => exact Or.inl hdeadline

/-- INTERNAL: a deadline that is left was there before. -/
theorem expire_deadline (m : ConsoleModel) (now deadline : ℕ)
    (h : (m.expireQuitConfirmIfDue now).quitConfirmDeadline = some deadline) :
    m.quitConfirmDeadline = some deadline := by
  unfold ConsoleModel.expireQuitConfirmIfDue at h
  split at h
  · split at h
    · cases h
    · exact h
  · exact h

/-- INTERNAL: a step of either thread puts the question, or leaves it as it was. -/
theorem step_deadline (s s' : Terminal) (a : TerminalStep) (hstep : s.step a = some s')
    (deadline : ℕ) (hdeadline : s'.console.quitConfirmDeadline = some deadline) :
    s.console.quitConfirmDeadline = some deadline ∨
      ∃ t, AsksToQuit t s a ∧ deadline = t + 2000000000 := by
  unfold Terminal.step at hstep
  split at hstep
  · cases hstep
  · cases a with
    | key k =>
      dsimp only at hstep
      split at hstep <;> cases hstep
      exact Or.inl hdeadline
    | loadModal dropped =>
      dsimp only at hstep
      split at hstep
      · split at hstep
        · cases hstep
          exact Or.inl hdeadline
        · split at hstep <;> cases hstep <;> exact Or.inl hdeadline
      · cases hstep
    | loadQuit dropped =>
      dsimp only at hstep
      split at hstep
      · split at hstep
        · cases hstep
          exact Or.inl hdeadline
        · split at hstep <;> cases hstep <;> exact Or.inl hdeadline
      · cases hstep
    | loadView dropped =>
      dsimp only at hstep
      split at hstep <;> cases hstep
      exact Or.inl hdeadline
    | apply now =>
      dsimp only at hstep
      split at hstep
      · next k u channel _ hchannel =>
        obtain ⟨⟨m', e⟩, happly, hs'⟩ := Option.map_eq_some_iff.mp hstep
        rw [← hs'] at hdeadline
        refine (apply_deadline now s.console m' u e happly deadline hdeadline).imp_right ?_
        rintro ⟨hu, hnow⟩
        exact ⟨now, ⟨rfl, k, by rw [hchannel, hu]; rfl⟩, hnow⟩
      · cases hstep
    | other now u =>
      dsimp only at hstep
      split at hstep
      · next hready =>
        obtain ⟨⟨m', e⟩, happly, hs'⟩ := Option.map_eq_some_iff.mp hstep
        rw [← hs'] at hdeadline
        refine (apply_deadline now s.console m' u e happly deadline hdeadline).imp_right ?_
        rintro ⟨hu, -⟩
        rw [hu] at hready
        exact absurd hready.2 Bool.false_ne_true
      · cases hstep
    | store =>
      dsimp only at hstep
      split at hstep
      · next flag rest _ =>
        cases hstep
        refine Or.inl ?_
        cases flag <;> exact hdeadline
      · cases hstep
    | tick now =>
      dsimp only at hstep
      split at hstep <;> cases hstep
      exact Or.inl (expire_deadline s.console now deadline hdeadline)

/-- INTERNAL: **a question that is up has been up since it was put.** -/
theorem question_since (historyBudget : ℕ) (steps : List TerminalStep) (s : Terminal)
    (hrun : run Terminal.step (Terminal.start historyBudget) steps = some s) (deadline : ℕ)
    (hdeadline : s.console.quitConfirmDeadline = some deadline) :
    ∃ t, deadline = t + 2000000000 ∧
      Since Terminal.step (Terminal.start historyBudget) (AsksToQuit t) (QuestionUp t) steps := by
  induction steps using List.reverseRecOn generalizing s deadline with
  | nil =>
    cases hrun
    cases hdeadline
  | append_singleton steps a ih =>
    obtain ⟨s₁, hbefore, hstep⟩ :=
      (run_snoc_eq_some Terminal.step (Terminal.start historyBudget) steps a s).mp hrun
    rcases step_deadline s₁ s a hstep deadline hdeadline with hsame | hasked
    · obtain ⟨t, ht, hsince⟩ := ih s₁ hbefore deadline hsame
      refine ⟨t, ht, hsince.later _ _ _ _ steps a s hrun ?_⟩
      rw [QuestionUp, ← ht]
      exact hdeadline
    · obtain ⟨t, hasks, ht⟩ := hasked
      refine ⟨t, ht, since_here _ _ _ _ steps a s₁ s hbefore hasks hstep ?_⟩
      rw [QuestionUp, ← ht]
      exact hdeadline

/-- CODE: runtime.rs:335-450, core.rs:335-346, 1114-1135 — **quitting takes two requests**: in
every run of the two threads, an update quits exactly when it is a request to quit and an earlier
one was applied less than two seconds before, whose question has been up in every state since. -/
theorem quits_iff_asked_twice (historyBudget : ℕ) (steps : List TerminalStep) (s : Terminal)
    (hrun : run Terminal.step (Terminal.start historyBudget) steps = some s) (now : ℕ)
    (s' : Terminal) (hstep : s.step (.apply now) = some s') (k : KeyCode) :
    s'.exited = some (.quit k) ↔
      s.channel.head? = some (k, .quit) ∧ ∃ t, now < t + 2000000000 ∧
        Since Terminal.step (Terminal.start historyBudget) (AsksToQuit t) (QuestionUp t) steps := by
  unfold Terminal.step at hstep
  split at hstep
  · cases hstep
  · dsimp only at hstep
    split at hstep
    · next k₁ u channel _ hchannel =>
      obtain ⟨⟨m', e⟩, happly, hs'⟩ := Option.map_eq_some_iff.mp hstep
      rw [← hs', hchannel, List.head?_cons]
      dsimp only
      constructor
      · intro hexit
        cases e with
        | quit =>
          cases hexit
          obtain ⟨hu, deadline, hdeadline, hlive⟩ := apply_quits now s.console m' u happly
          obtain ⟨t, ht, hsince⟩ := question_since historyBudget steps s hrun deadline hdeadline
          exact ⟨by rw [hu], t, by omega, hsince⟩
        | _ => cases hexit
      · rintro ⟨hhead, t, hnow, hsince⟩
        cases hhead
        have hup : s.console.quitConfirmDeadline = some (t + 2000000000) :=
          hsince.now _ _ _ _ steps s hrun
        have hquit := Option.some.inj happly
        unfold ConsoleModel.requestQuit at hquit
        rw [hup] at hquit
        dsimp only at hquit
        rw [if_pos hnow] at hquit
        cases hquit
        rfl
    · cases hstep

/-- INTERNAL: `Esc` twice in the table, the second one read before the flags of the first. -/
def escTwice : List TerminalStep := press .esc ++ [.apply 0] ++ press .esc ++ published

/-- CODE: runtime.rs:335-450 — two fast `Esc` are two requests. -/
theorem quits_iff_asked_twice_esc :
    ∃ s s', run Terminal.step (Terminal.start 4) escTwice = some s ∧
      s.step (.apply 1) = some s' ∧ s'.exited = some (.quit .esc) ∧
      ∃ t, 1 < t + 2000000000 ∧
        Since Terminal.step (Terminal.start 4) (AsksToQuit t) (QuestionUp t) escTwice := by
  have hexit : (run Terminal.step (Terminal.start 4) (escTwice ++ [.apply 1])).map
      Terminal.exited = some (some (.quit .esc)) := by decide +kernel
  obtain ⟨s', hrun', hs'⟩ := Option.map_eq_some_iff.mp hexit
  obtain ⟨s, hrun, hstep⟩ :=
    (run_snoc_eq_some Terminal.step (Terminal.start 4) escTwice (.apply 1) s').mp hrun'
  have hasked := (quits_iff_asked_twice 4 escTwice s hrun 1 s' hstep .esc).mp hs'
  exact ⟨s, s', hrun, hstep, hs', hasked.2⟩

end TracingConsole.Analysis.Console
