import TracingConsole.Library.Runs

/-!
# What has held since a step

The operator "since" over the runs of a machine.  `Since step s₀ began holds ls` says of the
run `ls` from `s₀` that one of its steps began something, and that every state from that step
on has held it.  A run is told what has held since when one step at a time: a step begins it
(`since_here`), or keeps what has held so far (`Since.later`).  `Once` only asks for the step.
-/

set_option autoImplicit false

namespace TracingConsole.Library

variable {σ ℓ : Type}

/-- INTERNAL: `holds` in every state since a step that `began` it. -/
def Since (step : σ → ℓ → Option σ) (s₀ : σ) (began : σ → ℓ → Prop) (holds : σ → Prop)
    (ls : List ℓ) : Prop :=
  ∃ before l after, ls = before ++ l :: after ∧
    (∃ s, run step s₀ before = some s ∧ began s l) ∧
    ∀ part, part <+: after → ∀ s, run step s₀ (before ++ l :: part) = some s → holds s

section Since

variable (step : σ → ℓ → Option σ) (s₀ : σ) (began : σ → ℓ → Prop) (holds : σ → Prop)

/-- INTERNAL: one more step of a run. -/
theorem run_snoc_eq_some (ls : List ℓ) (l : ℓ) (s' : σ) :
    run step s₀ (ls ++ [l]) = some s' ↔ ∃ s, run step s₀ ls = some s ∧ step s l = some s' := by
  rw [run_append, Option.bind_eq_some_iff]
  have hone (s : σ) : run step s [l] = step s l := by
    rw [run_cons]
    cases step s l <;> rfl
  constructor
  · rintro ⟨s, hs, hlast⟩
    rw [hone] at hlast
    exact ⟨s, hs, hlast⟩
  · rintro ⟨s, hs, hlast⟩
    rw [← hone] at hlast
    exact ⟨s, hs, hlast⟩

/-- INTERNAL: the last step begins it. -/
theorem since_here (ls : List ℓ) (l : ℓ) (s s' : σ) (hrun : run step s₀ ls = some s)
    (hbegan : began s l) (hstep : step s l = some s') (hholds : holds s') :
    Since step s₀ began holds (ls ++ [l]) := by
  refine ⟨ls, l, [], rfl, ⟨s, hrun, hbegan⟩, fun part hpart t ht => ?_⟩
  rw [List.prefix_nil.mp hpart, run_snoc_eq_some] at ht
  obtain ⟨s₁, hs₁, hlast⟩ := ht
  have hs : s = s₁ := Option.some.inj (hrun.symm.trans hs₁)
  rw [← hs, hstep] at hlast
  rw [← Option.some.inj hlast]
  exact hholds

/-- INTERNAL: the last step keeps it. -/
theorem Since.later (ls : List ℓ) (l : ℓ) (s' : σ) (h : Since step s₀ began holds ls)
    (hrun : run step s₀ (ls ++ [l]) = some s') (hholds : holds s') :
    Since step s₀ began holds (ls ++ [l]) := by
  obtain ⟨before, first, after, hls, hbegan, hsofar⟩ := h
  have hall : ls ++ [l] = before ++ first :: (after ++ [l]) := by
    rw [hls, List.append_assoc, List.cons_append]
  refine ⟨before, first, after ++ [l], hall, hbegan, fun part hpart t ht => ?_⟩
  rcases List.prefix_concat_iff.mp hpart with hwhole | hearlier
  · rw [hwhole, ← hall, hrun] at ht
    rw [← Option.some.inj ht]
    exact hholds
  · exact hsofar part hearlier t ht

/-- INTERNAL: what has held since a step holds now. -/
theorem Since.now (ls : List ℓ) (s : σ) (h : Since step s₀ began holds ls)
    (hrun : run step s₀ ls = some s) : holds s := by
  obtain ⟨before, first, after, hls, -, hsofar⟩ := h
  rw [hls] at hrun
  exact hsofar after List.prefix_rfl s hrun

/-- INTERNAL: what has held since a step has held since a step of a weaker kind. -/
theorem Since.mono (began' : σ → ℓ → Prop) (ls : List ℓ) (h : Since step s₀ began holds ls)
    (hmono : ∀ s l, began s l → began' s l) : Since step s₀ began' holds ls := by
  obtain ⟨before, first, after, hls, ⟨s, hrun, hbegan⟩, hsofar⟩ := h
  exact ⟨before, first, after, hls, ⟨s, hrun, hmono s first hbegan⟩, hsofar⟩

end Since

/-! ## What a run has done once -/

/-- INTERNAL: one of the steps of the run met `met`. -/
def Once (step : σ → ℓ → Option σ) (s₀ : σ) (met : σ → ℓ → Prop) (ls : List ℓ) : Prop :=
  ∃ before l after, ls = before ++ l :: after ∧ ∃ s, run step s₀ before = some s ∧ met s l

section Once

variable (step : σ → ℓ → Option σ) (s₀ : σ) (met : σ → ℓ → Prop)

/-- INTERNAL: what the last step meets was met once. -/
theorem once_last (ls : List ℓ) (l : ℓ) (s : σ) (hrun : run step s₀ ls = some s) (h : met s l) :
    Once step s₀ met (ls ++ [l]) := ⟨ls, l, [], rfl, s, hrun, h⟩

/-- INTERNAL: what was met once stays so. -/
theorem Once.snoc (ls : List ℓ) (l : ℓ) (h : Once step s₀ met ls) :
    Once step s₀ met (ls ++ [l]) := by
  obtain ⟨before, first, after, hls, hmet⟩ := h
  exact ⟨before, first, after ++ [l], by rw [hls, List.append_assoc, List.cons_append], hmet⟩

/-- INTERNAL: a weaker condition was met too. -/
theorem Once.mono (met' : σ → ℓ → Prop) (ls : List ℓ) (h : Once step s₀ met ls)
    (hmono : ∀ s l, met s l → met' s l) : Once step s₀ met' ls := by
  obtain ⟨before, first, after, hls, s, hrun, hmet⟩ := h
  exact ⟨before, first, after, hls, s, hrun, hmono s first hmet⟩

end Once

end TracingConsole.Library
