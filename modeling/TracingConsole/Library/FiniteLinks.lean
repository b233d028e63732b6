import Mathlib

/-!
# Acyclic links with finitely many sources

`R x y` is a link from `x` to `y`, and every link starts at an element of the list `S`.
When no element is linked to itself through any number of links, a walk along the links
and a walk against them both end: each step makes a count of elements of `S` smaller
(`above_lt`, `below_lt`), so neither takes more steps than `S` is long.

`acyclic_of_edge` says when the links stay acyclic after those of one new element are added.
-/

set_option autoImplicit false

namespace TracingConsole.Library

open Relation

variable {α : Type} (R : α → α → Prop) (S : List α)

/-- INTERNAL: no element is linked to itself through any number of links. -/
def Acyclic : Prop := ∀ x, ¬ TransGen R x x

section Count

open Classical in
/-- INTERNAL: how many elements of `S` come at `x` or after it on a walk along the links. -/
noncomputable def above (x : α) : ℕ := (S.filter fun s => ReflTransGen R x s).length

open Classical in
/-- INTERNAL: how many elements of `S` come before `x` on a walk along the links. -/
noncomputable def below (x : α) : ℕ := (S.filter fun s => TransGen R s x).length

/-- INTERNAL: a filter that is narrower at one element of the list is shorter. -/
theorem filter_length_lt (p q : α → Prop) [DecidablePred p] [DecidablePred q]
    (himp : ∀ s, p s → q s) (x : α) (hx : x ∈ S) (hq : q x) (hp : ¬ p x) :
    (S.filter fun s => p s).length < (S.filter fun s => q s).length := by
  induction S with
  | nil => cases hx
  | cons s S ih =>
    have hle : (S.filter fun s => p s).length ≤ (S.filter fun s => q s).length := by
      rw [← List.countP_eq_length_filter, ← List.countP_eq_length_filter]
      apply List.countP_mono_left
      intro t _ ht
      simpa using himp t (by simpa using ht)
    by_cases hs : s = x
    · subst hs
      simp only [List.filter_cons, hq, hp, decide_true, decide_false, if_true, List.length_cons]
      simp only [Bool.false_eq_true, if_false]
      omega
    · have hrest := ih ((List.mem_cons.mp hx).resolve_left fun h => hs h.symm)
      by_cases hps : p s
      · simp only [List.filter_cons, hps, himp s hps, decide_true, if_true, List.length_cons]
        omega
      · simp only [List.filter_cons, hps, decide_false, Bool.false_eq_true, if_false]
        split
        · rw [List.length_cons]
          omega
        · exact hrest

/-- INTERNAL: no more elements are above than there are. -/
theorem above_le (x : α) : above R S x ≤ S.length := List.length_filter_le _ _

/-- INTERNAL: nor below. -/
theorem below_le (x : α) : below R S x ≤ S.length := List.length_filter_le _ _

/-- INTERNAL: **one step along the links leaves fewer elements ahead**. -/
theorem above_lt (hacyclic : Acyclic R) (x y : α) (hx : x ∈ S) (h : R x y) :
    above R S y < above R S x := by
  classical
  apply filter_length_lt S _ _ _ x hx
  · exact ReflTransGen.refl
  · intro hback
    exact hacyclic x (TransGen.head' h hback)
  · intro s hs
    exact ReflTransGen.head h hs

/-- INTERNAL: **one step against the links leaves fewer elements ahead**. -/
theorem below_lt (hacyclic : Acyclic R) (x y : α) (hx : x ∈ S) (h : R x y) :
    below R S x < below R S y := by
  classical
  apply filter_length_lt S _ _ _ x hx
  · exact TransGen.single h
  · exact hacyclic x
  · intro s hs
    exact TransGen.tail hs h

end Count

/-! ## Adding an element -/

/-- INTERNAL: fewer links make no cycle. -/
theorem Acyclic.mono (R' : α → α → Prop) (hsub : ∀ x y, R' x y → R x y) (h : Acyclic R) :
    Acyclic R' := fun x hx => h x (TransGen.mono hsub _ _ hx)

/-- INTERNAL: **a new element with links of its own closes a cycle exactly when one of them
leads back to it**; `R'` are the links with the new element, `R` the others. -/
theorem acyclic_of_edge (R' : α → α → Prop) (w : α) (hnew : ∀ y, ¬ R w y)
    (hlinks : ∀ x y, R' x y ↔ R x y ∨ (x = w ∧ R' w y)) (hacyclic : Acyclic R) :
    Acyclic R' ↔ ∀ p, R' w p → ¬ ReflTransGen R p w := by
  have hsub : ∀ x y, R x y → R' x y := fun x y h => (hlinks x y).mpr (Or.inl h)
  constructor
  · intro h p hp hback
    exact h w (TransGen.head' hp (ReflTransGen.mono hsub _ _ hback))
  · intro h
    -- a walk either avoids the links of `w`, or passes through it once
    have hwalk : ∀ x y, TransGen R' x y → TransGen R x y ∨
        (ReflTransGen R x w ∧ ∃ p, R' w p ∧ ReflTransGen R p y) := by
      intro x y hxy
      induction hxy with
      | single hxb =>
        rcases (hlinks _ _).mp hxb with hold | ⟨rfl, hlink⟩
        · exact Or.inl (TransGen.single hold)
        · exact Or.inr ⟨ReflTransGen.refl, _, hlink, ReflTransGen.refl⟩
      | tail _ hbc ih =>
        rcases (hlinks _ _).mp hbc with hold | ⟨rfl, hlink⟩
        · rcases ih with hxb | ⟨hxw, p, hp, hpb⟩
          · exact Or.inl (TransGen.tail hxb hold)
          · exact Or.inr ⟨hxw, p, hp, ReflTransGen.tail hpb hold⟩
        · rcases ih with hxb | ⟨hxw, p, hp, hpb⟩
          · exact Or.inr ⟨hxb.to_reflTransGen, _, hlink, ReflTransGen.refl⟩
          · exact absurd hpb (h p hp)
    intro x hx
    rcases hwalk x x hx with hold | ⟨hxw, p, hp, hpx⟩
    · exact hacyclic x hold
    · exact h p hp (hpx.trans hxw)

end TracingConsole.Library
