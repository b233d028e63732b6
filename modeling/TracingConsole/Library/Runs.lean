import Mathlib

/-!
# Runs of a partial step function

A machine is a step function `σ → ℓ → Option σ`: the label says which of the possible
steps is taken, `none` that it cannot be taken.  `run step s ls` takes the steps `ls` in
order.

`run_invariant` is the rule every safety result of the development is an instance of:
what a single step preserves, a run preserves.  `RunsUnder` is the family of runs whose
every step meets a condition on the state it starts in, and `run_invariant_under` is the
rule for those.
-/

set_option autoImplicit false

namespace TracingConsole.Library

variable {σ ℓ : Type}

/-- INTERNAL: take the steps `ls` one after the other. -/
def run (step : σ → ℓ → Option σ) (s : σ) (ls : List ℓ) : Option σ :=
  ls.foldlM step s

/-- INTERNAL: the empty run. -/
@[simp] theorem run_nil (step : σ → ℓ → Option σ) (s : σ) : run step s [] = some s := rfl

/-- INTERNAL: a run, from its first step. -/
@[simp] theorem run_cons (step : σ → ℓ → Option σ) (s : σ) (l : ℓ) (ls : List ℓ) :
    run step s (l :: ls) = (step s l).bind fun s' => run step s' ls := rfl

/-- INTERNAL: a run splits at any point. -/
theorem run_append (step : σ → ℓ → Option σ) (s : σ) (l₁ l₂ : List ℓ) :
    run step s (l₁ ++ l₂) = (run step s l₁).bind fun s' => run step s' l₂ := by
  induction l₁ generalizing s with
  | nil => simp
  | cons l l₁ ih =>
    simp only [List.cons_append, run_cons]
    cases step s l with
    | none => rfl
    | some s' => simpa using ih s'

/-- INTERNAL: **the invariant rule**: what every step preserves, every run preserves. -/
theorem run_invariant (step : σ → ℓ → Option σ) (I : σ → Prop)
    (hstep : ∀ s l s', I s → step s l = some s' → I s') (s : σ) (ls : List ℓ) (s' : σ)
    (hs : I s) (h : run step s ls = some s') : I s' := by
  induction ls generalizing s with
  | nil => cases h; exact hs
  | cons l ls ih =>
    rw [run_cons, Option.bind_eq_some_iff] at h
    obtain ⟨s₁, h₁, h⟩ := h
    exact ih s₁ (hstep s l s₁ hs h₁) h

/-- INTERNAL: **the projection rule**: when a step of one machine is a step of another seen
through `f`, or not seen at all, so are its runs. -/
theorem run_projects {τ κ : Type} (step : σ → ℓ → Option σ) (step' : τ → κ → Option τ) (f : σ → τ)
    (hstep : ∀ s l s', step s l = some s' → f s' = f s ∨ ∃ k, step' (f s) k = some (f s')) (s : σ)
    (ls : List ℓ) (s' : σ) (h : run step s ls = some s') :
    ∃ ks, run step' (f s) ks = some (f s') := by
  induction ls generalizing s with
  | nil =>
    cases h
    exact ⟨[], rfl⟩
  | cons l ls ih =>
    rw [run_cons, Option.bind_eq_some_iff] at h
    obtain ⟨s₁, h₁, h⟩ := h
    obtain ⟨ks, hks⟩ := ih s₁ h
    cases hstep s l s₁ h₁ with
    | inl hsame => exact ⟨ks, by rw [← hsame, hks]⟩
    | inr hseen =>
      obtain ⟨k, hk⟩ := hseen
      exact ⟨k :: ks, by rw [run_cons, hk, Option.bind_some, hks]⟩

/-! ## Runs under a condition -/

/-- INTERNAL: every step of the run `ls` from `s` starts in a state that meets `ok`. -/
def RunsUnder (step : σ → ℓ → Option σ) (ok : σ → ℓ → Prop) : σ → List ℓ → Prop
  | _, [] => True
  | s, l :: ls => ok s l ∧ ∀ s', step s l = some s' → RunsUnder step ok s' ls

/-- INTERNAL: a weaker condition is met by more runs. -/
theorem RunsUnder.imp (step : σ → ℓ → Option σ) (ok ok' : σ → ℓ → Prop)
    (himp : ∀ s l, ok s l → ok' s l) (s : σ) (ls : List ℓ) (h : RunsUnder step ok s ls) :
    RunsUnder step ok' s ls := by
  induction ls generalizing s with
  | nil => trivial
  | cons l ls ih => exact ⟨himp s l h.1, fun s' hs' => ih s' (h.2 s' hs')⟩

/-- INTERNAL: the invariant rule for the runs whose steps meet a condition. -/
theorem run_invariant_under (step : σ → ℓ → Option σ) (ok : σ → ℓ → Prop) (I : σ → Prop)
    (hstep : ∀ s l s', I s → ok s l → step s l = some s' → I s') (s : σ) (ls : List ℓ)
    (s' : σ) (hs : I s) (hok : RunsUnder step ok s ls) (h : run step s ls = some s') :
    I s' := by
  induction ls generalizing s with
  | nil => cases h; exact hs
  | cons l ls ih =>
    rw [run_cons, Option.bind_eq_some_iff] at h
    obtain ⟨s₁, h₁, h⟩ := h
    exact ih s₁ (hstep s l s₁ hs hok.1 h₁) (hok.2 s₁ h₁) h

/-- INTERNAL: decidable. -/
instance (step : σ → ℓ → Option σ) (ok : σ → ℓ → Prop) [∀ s l, Decidable (ok s l)] :
    ∀ (s : σ) (ls : List ℓ), Decidable (RunsUnder step ok s ls)
  | _, [] => inferInstanceAs (Decidable True)
  | s, l :: ls =>
    match h : step s l with
    | none =>
      decidable_of_iff (ok s l)
        ⟨fun hok => ⟨hok, fun _ hs' => by rw [h] at hs'; cases hs'⟩, fun hrun => hrun.1⟩
    | some s₁ =>
      have := instDecidableRunsUnder step ok s₁ ls
      decidable_of_iff (ok s l ∧ RunsUnder step ok s₁ ls)
        ⟨fun hok => ⟨hok.1, fun _ hs' => by rw [h] at hs'; cases hs'; exact hok.2⟩,
          fun hrun => ⟨hrun.1, hrun.2 s₁ h⟩⟩

/-- INTERNAL: a condition that holds in every state needs no run. -/
theorem runsUnder_of_forall (step : σ → ℓ → Option σ) (ok : σ → ℓ → Prop) (s : σ) (ls : List ℓ)
    (h : ∀ s, ∀ l ∈ ls, ok s l) : RunsUnder step ok s ls := by
  induction ls generalizing s with
  | nil => trivial
  | cons l ls ih =>
    exact ⟨h s l (by simp), fun s' _ => ih s' fun s k hk => h s k (by simp [hk])⟩

/-- INTERNAL: two conditions that agree on the states of an invariant, which the second one
keeps, are met by the same runs, whether these go through or stop. -/
theorem runsUnder_congr (step : σ → ℓ → Option σ) (ok ok' : σ → ℓ → Prop) (I : σ → Prop)
    (hiff : ∀ s l, I s → (ok s l ↔ ok' s l))
    (hstep : ∀ s l s', I s → ok' s l → step s l = some s' → I s') (s : σ) (ls : List ℓ)
    (hs : I s) : RunsUnder step ok s ls ↔ RunsUnder step ok' s ls := by
  induction ls generalizing s with
  | nil => exact Iff.rfl
  | cons l ls ih =>
    have htail : ok' s l → ((∀ s', step s l = some s' → RunsUnder step ok s' ls) ↔
        ∀ s', step s l = some s' → RunsUnder step ok' s' ls) := fun hok =>
      forall_congr' fun s' => imp_congr_right fun h => ih s' (hstep s l s' hs hok h)
    exact (and_congr_left' (hiff s l hs)).trans (and_congr_right htail)

/-- INTERNAL: two conditions that agree on the states of an invariant, which the second one
keeps, are met by the same runs. -/
theorem runsUnder_iff (step : σ → ℓ → Option σ) (ok ok' : σ → ℓ → Prop) (I : σ → Prop)
    (hiff : ∀ s l s', I s → step s l = some s' → (ok s l ↔ ok' s l))
    (hstep : ∀ s l s', I s → ok' s l → step s l = some s' → I s') (s : σ) (ls : List ℓ)
    (s' : σ) (hs : I s) (h : run step s ls = some s') :
    RunsUnder step ok s ls ↔ RunsUnder step ok' s ls := by
  induction ls generalizing s with
  | nil => exact Iff.rfl
  | cons l ls ih =>
    rw [run_cons, Option.bind_eq_some_iff] at h
    obtain ⟨s₁, h₁, h⟩ := h
    have hfirst := hiff s l s₁ hs h₁
    constructor
    · intro hrun
      have hok := hfirst.mp hrun.1
      refine ⟨hok, fun s₂ hs₂ => ?_⟩
      rw [h₁] at hs₂
      cases hs₂
      exact (ih s₁ (hstep s l s₁ hs hok h₁) h).mp (hrun.2 s₁ h₁)
    · intro hrun
      refine ⟨hfirst.mpr hrun.1, fun s₂ hs₂ => ?_⟩
      rw [h₁] at hs₂
      cases hs₂
      exact (ih s₁ (hstep s l s₁ hs hrun.1 h₁) h).mpr (hrun.2 s₁ h₁)

/-- INTERNAL: when the condition on a step decides whether `P` goes on to hold, a run meets it
at every step exactly when `P` holds of every state the run passes. -/
theorem runsUnder_iff_passed (step : σ → ℓ → Option σ) (ok : σ → ℓ → Prop) (I P : σ → Prop)
    (hstep : ∀ s l s', I s → step s l = some s' → I s')
    (hiff : ∀ s l s', I s → P s → step s l = some s' → (ok s l ↔ P s')) (s : σ) (ls : List ℓ)
    (s' : σ) (hs : I s) (hP : P s) (h : run step s ls = some s') :
    RunsUnder step ok s ls ↔
      ∀ l₁ l₂ s₁, ls = l₁ ++ l₂ → run step s l₁ = some s₁ → P s₁ := by
  induction ls generalizing s with
  | nil =>
    refine ⟨fun _ l₁ l₂ s₁ hsplit hpassed => ?_, fun _ => trivial⟩
    obtain ⟨hnil, -⟩ := List.nil_eq_append_iff.mp hsplit
    subst hnil
    cases hpassed
    exact hP
  | cons l ls ih =>
    rw [run_cons, Option.bind_eq_some_iff] at h
    obtain ⟨s₂, h₂, h⟩ := h
    have hfirst := hiff s l s₂ hs hP h₂
    have hI := hstep s l s₂ hs h₂
    constructor
    · intro hrun l₁ l₂ s₁ hsplit hpassed
      cases l₁ with
      | nil => cases hpassed; exact hP
      | cons k l₁ =>
        rw [List.cons_append] at hsplit
        obtain ⟨hk, htail⟩ := List.cons.inj hsplit
        subst hk
        rw [run_cons, h₂] at hpassed
        exact (ih s₂ hI (hfirst.mp hrun.1) h).mp (hrun.2 s₂ h₂) l₁ l₂ s₁ htail hpassed
    · intro hpassed
      have hafter : P s₂ := hpassed [l] ls s₂ rfl (by rw [run_cons, h₂]; rfl)
      refine ⟨hfirst.mpr hafter, fun s₃ hs₃ => ?_⟩
      rw [h₂] at hs₃
      cases hs₃
      refine (ih s₂ hI hafter h).mpr fun l₁ l₂ s₁ hsplit hrun => ?_
      refine hpassed (l :: l₁) l₂ s₁ (by rw [hsplit]; rfl) ?_
      rw [run_cons, h₂]
      exact hrun

/-- INTERNAL: when a step keeps `P` exactly under the condition, and nothing makes up for a `P`
that was lost, a run meets the condition at every step exactly when `P` holds at its end. -/
theorem runsUnder_iff_last (step : σ → ℓ → Option σ) (ok : σ → ℓ → Prop) (I P : σ → Prop)
    (hstep : ∀ s l s', I s → step s l = some s' → I s')
    (hiff : ∀ s l s', I s → step s l = some s' → (P s' ↔ P s ∧ ok s l)) (s : σ) (ls : List ℓ)
    (s' : σ) (hs : I s) (h : run step s ls = some s') :
    P s' ↔ P s ∧ RunsUnder step ok s ls := by
  induction ls generalizing s with
  | nil =>
    cases h
    simp [RunsUnder]
  | cons l ls ih =>
    rw [run_cons, Option.bind_eq_some_iff] at h
    obtain ⟨s₁, h₁, h⟩ := h
    have htail : RunsUnder step ok s (l :: ls) ↔ ok s l ∧ RunsUnder step ok s₁ ls := by
      simp [RunsUnder, h₁]
    rw [ih s₁ (hstep s l s₁ hs h₁) h, hiff s l s₁ hs h₁, htail, and_assoc]

/-- INTERNAL: a run under a condition meets it at every step. -/
theorem RunsUnder.at_step (step : σ → ℓ → Option σ) (ok : σ → ℓ → Prop) (s s' : σ)
    (l₁ l₂ : List ℓ) (l : ℓ) (h : RunsUnder step ok s (l₁ ++ l :: l₂))
    (hrun : run step s l₁ = some s') : ok s' l := by
  induction l₁ generalizing s with
  | nil => cases hrun; exact h.1
  | cons k l₁ ih =>
    rw [run_cons, Option.bind_eq_some_iff] at hrun
    obtain ⟨s₁, h₁, hrun⟩ := hrun
    exact ih s₁ (h.2 s₁ h₁) hrun

/-- INTERNAL: runs under a condition compose. -/
theorem RunsUnder.append (step : σ → ℓ → Option σ) (ok : σ → ℓ → Prop) (s : σ)
    (l₁ l₂ : List ℓ) (h₁ : RunsUnder step ok s l₁)
    (h₂ : ∀ s', run step s l₁ = some s' → RunsUnder step ok s' l₂) :
    RunsUnder step ok s (l₁ ++ l₂) := by
  induction l₁ generalizing s with
  | nil => exact h₂ s rfl
  | cons l l₁ ih =>
    refine ⟨h₁.1, fun s' hs' => ih s' (h₁.2 s' hs') fun s'' hs'' => h₂ s'' ?_⟩
    rw [run_cons, hs']
    exact hs''

/-- INTERNAL: a prefix of a run under a condition is one. -/
theorem RunsUnder.prefix (step : σ → ℓ → Option σ) (ok : σ → ℓ → Prop) (s : σ)
    (l₁ l₂ : List ℓ) (h : RunsUnder step ok s (l₁ ++ l₂)) : RunsUnder step ok s l₁ := by
  induction l₁ generalizing s with
  | nil => trivial
  | cons l l₁ ih => exact ⟨h.1, fun s' hs' => ih s' (h.2 s' hs')⟩

end TracingConsole.Library
