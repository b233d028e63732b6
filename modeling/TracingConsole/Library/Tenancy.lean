import Mathlib

/-!
# Slots and their tenants

Tenants hold slots of a memory, each with the value they put there.  A tenant takes a
vacant slot, passes its slot on to another tenant, leaves it, or empties it first.  Whatever
the order, no slot has two tenants and every tenant finds its own value (`Tenancy.Sound`).
-/

set_option autoImplicit false

namespace TracingConsole.Library

variable {O S V : Type} [DecidableEq O] [DecidableEq S]

/-- INTERNAL: which slot a tenant holds, with its value, and what the memory stores. -/
structure Tenancy (O S V : Type) where
  holds : O → Option (S × V)
  memory : S → Option V

namespace Tenancy

/-- INTERNAL: every tenant's value is in its slot, and no two tenants share a slot. -/
structure Sound (x : Tenancy O S V) : Prop where
  occupied : ∀ o s v, x.holds o = some (s, v) → x.memory s = some v
  exclusive : ∀ o o' s v v', x.holds o = some (s, v) → x.holds o' = some (s, v') → o = o'

omit [DecidableEq O] [DecidableEq S] in
/-- INTERNAL: without tenants there is nothing to check. -/
theorem sound_empty (memory : S → Option V) : Sound { holds := fun _ : O => none, memory } where
  occupied := fun _ _ _ h => by cases h
  exclusive := fun _ _ _ _ _ h => by cases h

omit [DecidableEq S] in
/-- INTERNAL: what a tenant holds after the holding of one changed. -/
theorem held_update (x : Tenancy O S V) (o : O) (now : Option (S × V)) (p : O) (s : S) (v : V)
    (hp : Function.update x.holds o now p = some (s, v)) :
    (p = o ∧ now = some (s, v)) ∨ (p ≠ o ∧ x.holds p = some (s, v)) := by
  by_cases hpo : p = o
  · subst hpo
    rw [Function.update_self] at hp
    exact Or.inl ⟨rfl, hp⟩
  · rw [Function.update_of_ne hpo] at hp
    exact Or.inr ⟨hpo, hp⟩

/-- INTERNAL: a tenant takes a vacant slot. -/
theorem Sound.take (x : Tenancy O S V) (h : Sound x) (o : O) (s : S) (v : V)
    (hvacant : x.memory s = none) :
    Sound
      { holds := Function.update x.holds o (some (s, v))
        memory := Function.update x.memory s (some v) } := by
  -- a tenant of `s` would have its value there
  have hother : ∀ p s' v', x.holds p = some (s', v') → s' ≠ s := by
    rintro p s' v' hp rfl
    have hmem := h.occupied p s' v' hp
    rw [hvacant] at hmem
    cases hmem
  refine ⟨?_, ?_⟩
  · intro p s' v' hp
    rcases held_update x o _ p s' v' hp with ⟨-, hnow⟩ | ⟨-, hold⟩
    · cases hnow
      exact Function.update_self ..
    · exact (Function.update_of_ne (hother p s' v' hold) ..).trans (h.occupied p s' v' hold)
  · intro p q s' v₁ v₂ hp hq
    rcases held_update x o _ p s' v₁ hp with ⟨hpo, hnow⟩ | ⟨-, hold⟩
    · rcases held_update x o _ q s' v₂ hq with ⟨hqo, -⟩ | ⟨-, hold'⟩
      · rw [hpo, hqo]
      · cases hnow
        exact absurd rfl (hother q s v₂ hold')
    · rcases held_update x o _ q s' v₂ hq with ⟨-, hnow⟩ | ⟨-, hold'⟩
      · cases hnow
        exact absurd rfl (hother p s v₁ hold)
      · exact h.exclusive p q s' v₁ v₂ hold hold'

omit [DecidableEq S] in
/-- INTERNAL: a tenant passes its slot on to another. -/
theorem Sound.transfer (x : Tenancy O S V) (h : Sound x) (o o' : O) (s : S) (v : V)
    (ho : x.holds o = some (s, v)) :
    Sound
      { holds := Function.update (Function.update x.holds o none) o' (some (s, v))
        memory := x.memory } := by
  -- every holding but that of `o'` was there before, and not with `o`
  have hbefore : ∀ p s' v',
      Function.update (Function.update x.holds o none) o' (some (s, v)) p = some (s', v') →
      (p = o' ∧ s' = s ∧ v' = v) ∨ (p ≠ o' ∧ p ≠ o ∧ x.holds p = some (s', v')) := by
    intro p s' v' hp
    rcases held_update { x with holds := Function.update x.holds o none } o' _ p s' v' hp with
      ⟨hpo', hnow⟩ | ⟨hpo', hold⟩
    · cases hnow
      exact Or.inl ⟨hpo', rfl, rfl⟩
    · rcases held_update x o none p s' v' hold with ⟨-, hnow⟩ | ⟨hpo, hold⟩
      · cases hnow
      · exact Or.inr ⟨hpo', hpo, hold⟩
  refine ⟨?_, ?_⟩
  · intro p s' v' hp
    rcases hbefore p s' v' hp with ⟨-, rfl, rfl⟩ | ⟨-, -, hold⟩
    · exact h.occupied o s' v' ho
    · exact h.occupied p s' v' hold
  · intro p q s' v₁ v₂ hp hq
    rcases hbefore p s' v₁ hp with ⟨hpo', rfl, -⟩ | ⟨-, hpo, hold⟩
    · rcases hbefore q s' v₂ hq with ⟨hqo', -, -⟩ | ⟨-, hqo, hold'⟩
      · rw [hpo', hqo']
      · exact absurd (h.exclusive q o s' v₂ v hold' ho) hqo
    · rcases hbefore q s' v₂ hq with ⟨-, rfl, -⟩ | ⟨-, -, hold'⟩
      · exact absurd (h.exclusive p o s' v₁ v hold ho) hpo
      · exact h.exclusive p q s' v₁ v₂ hold hold'

omit [DecidableEq S] in
/-- INTERNAL: a tenant leaves its slot as it is, for good. -/
theorem Sound.abandon (x : Tenancy O S V) (h : Sound x) (o : O) :
    Sound { holds := Function.update x.holds o none, memory := x.memory } := by
  have hbefore : ∀ p s v, Function.update x.holds o none p = some (s, v) →
      x.holds p = some (s, v) := by
    intro p s v hp
    rcases held_update x o none p s v hp with ⟨-, hnow⟩ | ⟨-, hold⟩
    · cases hnow
    · exact hold
  refine ⟨?_, ?_⟩
  · intro p s v hp
    exact h.occupied p s v (hbefore p s v hp)
  · intro p q s v₁ v₂ hp hq
    exact h.exclusive p q s v₁ v₂ (hbefore p s v₁ hp) (hbefore q s v₂ hq)

/-- INTERNAL: a tenant leaves and empties its slot. -/
theorem Sound.leave (x : Tenancy O S V) (h : Sound x) (o : O) (s : S) (v : V)
    (ho : x.holds o = some (s, v)) :
    Sound
      { holds := Function.update x.holds o none
        memory := Function.update x.memory s none } := by
  have hbefore : ∀ p s' v', Function.update x.holds o none p = some (s', v') →
      p ≠ o ∧ x.holds p = some (s', v') := by
    intro p s' v' hp
    rcases held_update x o none p s' v' hp with ⟨-, hnow⟩ | hold
    · cases hnow
    · exact hold
  refine ⟨?_, ?_⟩
  · intro p s' v' hp
    obtain ⟨hpo, hold⟩ := hbefore p s' v' hp
    have hne : s' ≠ s := by
      rintro rfl
      exact hpo (h.exclusive p o s' v' v hold ho)
    exact (Function.update_of_ne hne ..).trans (h.occupied p s' v' hold)
  · intro p q s' v₁ v₂ hp hq
    exact h.exclusive p q s' v₁ v₂ (hbefore p s' v₁ hp).2 (hbefore q s' v₂ hq).2

/-- INTERNAL: a tenant changes its value. -/
theorem Sound.write (x : Tenancy O S V) (h : Sound x) (o : O) (s : S) (v v' : V)
    (ho : x.holds o = some (s, v)) :
    Sound
      { holds := Function.update x.holds o (some (s, v'))
        memory := Function.update x.memory s (some v') } := by
  -- as if it left its slot and took it again
  have hleft := Sound.take _ (h.leave x o s v ho) o s v' (Function.update_self ..)
  simpa only [Function.update_idem] using hleft

end Tenancy

end TracingConsole.Library
