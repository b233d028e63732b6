import Mathlib

/-!
# Numbers handed out from disjoint reservations

Clients reserve intervals of numbers above everything reserved before and hand them out
one by one, each client in increasing order and independently of the others.  `Ledger` is
the state of such a scheme and `LedgerStep` the two things a client can do.

`Ledger.Sound` is what every step keeps (`Sound.step`): the reservations are disjoint and
ahead of what their client has handed out, so no number is handed out twice and each
client's numbers increase.
-/

set_option autoImplicit false

namespace TracingConsole.Library

variable {T : Type} [DecidableEq T]

/-- INTERNAL: `held t` is what client `t` has reserved and not handed out, `issued` what
was handed out, oldest first, and `top` is above every number reserved. -/
structure Ledger (T : Type) where
  held : T → Set ℕ
  issued : List (T × ℕ)
  top : ℕ

/-- INTERNAL: a client replaces its reservation by the next `n` numbers, or hands out a
number of its reservation and keeps those above it. -/
inductive LedgerStep : Ledger T → Ledger T → Prop
  | reserve (L : Ledger T) (t : T) (n : ℕ) :
      LedgerStep L
        { L with held := Function.update L.held t (Set.Ico L.top (L.top + n)), top := L.top + n }
  | issue (L : Ledger T) (t : T) (i : ℕ) (hi : i ∈ L.held t) :
      LedgerStep L
        { L with
          held := Function.update L.held t {j | j ∈ L.held t ∧ i < j}
          issued := L.issued ++ [(t, i)] }

namespace Ledger

/-- INTERNAL: no number is reserved twice, or reserved after it was handed out; `base` is
below every number. -/
structure Sound (base : ℕ) (L : Ledger T) : Prop where
  base_le : base ≤ L.top
  held_mem : ∀ t, ∀ i ∈ L.held t, base ≤ i ∧ i < L.top
  exclusive : ∀ t u, ∀ i ∈ L.held t, i ∈ L.held u → t = u
  issued_mem : ∀ p ∈ L.issued, base ≤ p.2 ∧ p.2 < L.top
  fresh : ∀ t, ∀ i ∈ L.held t, ∀ p ∈ L.issued, p.2 ≠ i
  ahead : ∀ t, ∀ i ∈ L.held t, ∀ p ∈ L.issued, p.1 = t → p.2 < i
  distinct : (L.issued.map Prod.snd).Nodup
  increasing : L.issued.Pairwise fun p q => p.1 = q.1 → p.2 < q.2

omit [DecidableEq T] in
/-- INTERNAL: a scheme in which nothing is reserved yet. -/
theorem sound_start (base : ℕ) :
    Sound base { held := fun _ : T => ∅, issued := [], top := base } where
  base_le := le_rfl
  held_mem := fun _ _ hi => hi.elim
  exclusive := fun _ _ _ hi => hi.elim
  issued_mem := fun _ hp => by cases hp
  fresh := fun _ _ hi => hi.elim
  ahead := fun _ _ hi => hi.elim
  distinct := List.nodup_nil
  increasing := List.Pairwise.nil

/-- INTERNAL: what a client holds after a reservation. -/
theorem mem_reserve (L : Ledger T) (t u : T) (n i : ℕ)
    (hi : i ∈ Function.update L.held t (Set.Ico L.top (L.top + n)) u) :
    (u = t ∧ L.top ≤ i ∧ i < L.top + n) ∨ (u ≠ t ∧ i ∈ L.held u) := by
  by_cases hu : u = t
  · subst hu
    rw [Function.update_self] at hi
    exact Or.inl ⟨rfl, hi.1, hi.2⟩
  · rw [Function.update_of_ne hu] at hi
    exact Or.inr ⟨hu, hi⟩

/-- INTERNAL: what a client holds after handing out `i`. -/
theorem mem_issue (L : Ledger T) (t u : T) (i j : ℕ)
    (hj : j ∈ Function.update L.held t {k | k ∈ L.held t ∧ i < k} u) :
    j ∈ L.held u ∧ (u = t → i < j) := by
  by_cases hu : u = t
  · subst hu
    rw [Function.update_self] at hj
    exact ⟨hj.1, fun _ => hj.2⟩
  · rw [Function.update_of_ne hu] at hj
    exact ⟨hj, fun h => absurd h hu⟩

/-- INTERNAL: a reservation lies above everything, so it meets nothing. -/
theorem Sound.reserve (base : ℕ) (L : Ledger T) (h : Sound base L) (t : T) (n : ℕ) :
    Sound base
      { L with
        held := Function.update L.held t (Set.Ico L.top (L.top + n)), top := L.top + n } where
  base_le := le_trans h.base_le (Nat.le_add_right _ _)
  held_mem := by
    intro u i hi
    have hbase := h.base_le
    rcases mem_reserve L t u n i hi with ⟨-, hlow, hhigh⟩ | ⟨-, hheld⟩
    · exact ⟨by omega, hhigh⟩
    · have hmem := h.held_mem u i hheld
      exact ⟨hmem.1, by show i < L.top + n; omega⟩
  exclusive := by
    intro u v i hi hj
    rcases mem_reserve L t u n i hi with ⟨hu, hlow, -⟩ | ⟨-, hheld⟩
    · rcases mem_reserve L t v n i hj with ⟨hv, -, -⟩ | ⟨-, hheld'⟩
      · rw [hu, hv]
      · have hmem := h.held_mem v i hheld'
        omega
    · rcases mem_reserve L t v n i hj with ⟨-, hlow, -⟩ | ⟨-, hheld'⟩
      · have hmem := h.held_mem u i hheld
        omega
      · exact h.exclusive u v i hheld hheld'
  issued_mem := by
    intro p hp
    have hmem := h.issued_mem p hp
    exact ⟨hmem.1, by show p.2 < L.top + n; omega⟩
  fresh := by
    intro u i hi p hp
    rcases mem_reserve L t u n i hi with ⟨-, hlow, -⟩ | ⟨-, hheld⟩
    · have hmem := h.issued_mem p hp
      omega
    · exact h.fresh u i hheld p hp
  ahead := by
    intro u i hi p hp hpu
    rcases mem_reserve L t u n i hi with ⟨-, hlow, -⟩ | ⟨-, hheld⟩
    · have hmem := h.issued_mem p hp
      omega
    · exact h.ahead u i hheld p hp hpu
  distinct := h.distinct
  increasing := h.increasing

/-- INTERNAL: a number handed out was reserved by its client alone and is ahead of those
the client handed out before. -/
theorem Sound.issue (base : ℕ) (L : Ledger T) (h : Sound base L) (t : T) (i : ℕ)
    (hi : i ∈ L.held t) :
    Sound base
      { L with
        held := Function.update L.held t {j | j ∈ L.held t ∧ i < j}
        issued := L.issued ++ [(t, i)] } where
  base_le := h.base_le
  held_mem := fun u j hj => h.held_mem u j (mem_issue L t u i j hj).1
  exclusive := fun u v j hj hj' =>
    h.exclusive u v j (mem_issue L t u i j hj).1 (mem_issue L t v i j hj').1
  issued_mem := by
    intro p hp
    rcases List.mem_append.mp hp with hp | hp
    · exact h.issued_mem p hp
    · rw [List.mem_singleton.mp hp]
      exact h.held_mem t i hi
  fresh := by
    intro u j hj p hp
    have hmem := mem_issue L t u i j hj
    rcases List.mem_append.mp hp with hp | hp
    · exact h.fresh u j hmem.1 p hp
    · rw [List.mem_singleton.mp hp]
      intro hij
      change i = j at hij
      have hut : t = u := h.exclusive t u i hi (hij ▸ hmem.1)
      have hlt := hmem.2 hut.symm
      omega
  ahead := by
    intro u j hj p hp hpu
    have hmem := mem_issue L t u i j hj
    rcases List.mem_append.mp hp with hp | hp
    · exact h.ahead u j hmem.1 p hp hpu
    · rw [List.mem_singleton.mp hp] at hpu ⊢
      exact hmem.2 hpu.symm
  distinct := by
    rw [List.map_append, List.nodup_append]
    refine ⟨h.distinct, by simp, ?_⟩
    intro a ha b hb
    obtain ⟨p, hp, rfl⟩ := List.mem_map.mp ha
    rw [show b = i by simpa using hb]
    exact h.fresh t i hi p hp
  increasing := by
    rw [List.pairwise_append]
    refine ⟨h.increasing, by simp, ?_⟩
    intro p hp q hq hpq
    rw [List.mem_singleton.mp hq] at hpq ⊢
    exact h.ahead t i hi p hp hpq

/-- INTERNAL: **every step keeps the ledger sound**. -/
theorem Sound.step (base : ℕ) (L L' : Ledger T) (h : Sound base L) (hstep : LedgerStep L L') :
    Sound base L' := by
  cases hstep with
  | reserve t n => exact h.reserve base L t n
  | issue t i hi => exact h.issue base L t i hi

/-! ## Nothing is skipped -/

/-- INTERNAL: every number reserved so far was handed out or is still held. -/
def Complete (base : ℕ) (L : Ledger T) : Prop :=
  ∀ i, base ≤ i → i < L.top → (∃ p ∈ L.issued, p.2 = i) ∨ ∃ t, i ∈ L.held t

omit [DecidableEq T] in
/-- INTERNAL: every reservation is accounted for at the start. -/
theorem complete_start (base : ℕ) :
    Complete base { held := fun _ : T => ∅, issued := [], top := base } := by
  intro i hlow hhigh
  exact absurd hhigh (by dsimp only; omega)

/-- INTERNAL: a client reserves when it has used up what it held. -/
theorem Complete.reserve (base : ℕ) (L : Ledger T) (h : Complete base L) (t : T) (n : ℕ)
    (hempty : L.held t = ∅) :
    Complete base
      { L with
        held := Function.update L.held t (Set.Ico L.top (L.top + n)), top := L.top + n } := by
  intro i hlow hhigh
  dsimp only at hhigh ⊢
  by_cases hold : i < L.top
  · rcases h i hlow hold with hissued | ⟨u, hu⟩
    · exact Or.inl hissued
    · refine Or.inr ⟨u, ?_⟩
      have hut : u ≠ t := by
        rintro rfl
        rw [hempty] at hu
        exact hu
      rw [Function.update_of_ne hut]
      exact hu
  · refine Or.inr ⟨t, ?_⟩
    rw [Function.update_self, Set.mem_Ico]
    omega

/-- INTERNAL: a client hands out the least number it holds. -/
theorem Complete.issue (base : ℕ) (L : Ledger T) (h : Complete base L) (t : T) (i : ℕ)
    (hleast : ∀ j ∈ L.held t, i ≤ j) :
    Complete base
      { L with
        held := Function.update L.held t {j | j ∈ L.held t ∧ i < j}
        issued := L.issued ++ [(t, i)] } := by
  intro j hlow hhigh
  dsimp only at hhigh ⊢
  by_cases hij : j = i
  · exact Or.inl ⟨(t, i), by simp, hij.symm⟩
  · rcases h j hlow hhigh with ⟨p, hp, hpj⟩ | ⟨u, hu⟩
    · exact Or.inl ⟨p, List.mem_append_left _ hp, hpj⟩
    · refine Or.inr ⟨u, ?_⟩
      by_cases hut : u = t
      · subst hut
        have hle := hleast j hu
        rw [Function.update_self]
        exact ⟨hu, by omega⟩
      · rw [Function.update_of_ne hut]
        exact hu

end Ledger

end TracingConsole.Library
