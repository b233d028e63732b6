import Mathlib

/-!
# Slabs

A slab stores values under indices it picks itself: an insertion takes a vacant index, or
the next one past the end when none is vacant, and a removal vacates its index.  Which
vacant index an insertion takes is left open: `Takes` is the condition on it.

`lt_of_takes` bounds the index by a bound on the number of stored values, the fact an
array indexed alongside a slab relies on.
-/

set_option autoImplicit false

namespace TracingConsole.Library

/-- INTERNAL: the slots of a slab; `none` is a vacant one. -/
structure Slab (α : Type) where
  entries : List (Option α)
deriving DecidableEq

namespace Slab

variable {α : Type}

/-- INTERNAL: a slab with no slots. -/
def empty : Slab α := { entries := [] }

/-- INTERNAL: how many values are stored. -/
def len (s : Slab α) : ℕ := s.entries.countP Option.isSome

/-- INTERNAL: the value stored under `i`. -/
def get (s : Slab α) (i : ℕ) : Option α := (s.entries[i]?).join

/-- INTERNAL: `i` is an index an insertion may take. -/
def Takes (s : Slab α) (i : ℕ) : Prop :=
  s.entries[i]? = some none ∨ (i = s.entries.length ∧ none ∉ s.entries)

/-- INTERNAL: decidable. -/
instance [DecidableEq α] (s : Slab α) (i : ℕ) : Decidable (s.Takes i) :=
  inferInstanceAs (Decidable (_ ∨ _))

/-- INTERNAL: store `a` under `i`. -/
def insert (s : Slab α) (i : ℕ) (a : α) : Slab α :=
  { entries := if i < s.entries.length then s.entries.set i (some a) else s.entries ++ [some a] }

/-- INTERNAL: vacate `i`. -/
def remove (s : Slab α) (i : ℕ) : Slab α := { entries := s.entries.set i none }

/-- INTERNAL: the value under `i`, if there is one, and the slab without it. -/
def tryRemove (s : Slab α) (i : ℕ) : Option α × Slab α :=
  match s.get i with
  | some a => (some a, s.remove i)
  | none => (none, s)

/-- INTERNAL: change the value under `i`, if there is one. -/
def modify (s : Slab α) (i : ℕ) (f : α → α) : Slab α :=
  { entries := s.entries.modify i (Option.map f) }

/-- INTERNAL: an empty slab holds nothing. -/
theorem get_empty (i : ℕ) : (empty : Slab α).get i = none := rfl

/-- INTERNAL: an index taken holds nothing. -/
theorem get_of_takes (s : Slab α) (i : ℕ) (h : s.Takes i) : s.get i = none := by
  rcases h with h | ⟨h, -⟩
  · rw [get, h]
    rfl
  · rw [get, List.getElem?_eq_none (le_of_eq h.symm)]
    rfl

/-- INTERNAL: reading after an insertion. -/
theorem get_insert (s : Slab α) (i j : ℕ) (a : α) (h : s.Takes i) :
    (s.insert i a).get j = if j = i then some a else s.get j := by
  rcases h with h | ⟨h, -⟩
  · have hlt : i < s.entries.length := (List.getElem?_eq_some_iff.mp h).1
    rw [get, insert, if_pos hlt, List.getElem?_set]
    by_cases hij : i = j
    · subst hij
      simp [hlt]
    · rw [if_neg hij, if_neg fun hji => hij hji.symm, get]
  · have hge : ¬ i < s.entries.length := by omega
    rw [get, insert, if_neg hge, List.getElem?_append]
    by_cases hji : j = i
    · have : ¬ j < s.entries.length := by omega
      simp [hji, h]
    · rw [if_neg hji, get]
      by_cases hlt : j < s.entries.length
      · rw [if_pos hlt]
      · rw [if_neg hlt, List.getElem?_eq_none (by simp; omega), List.getElem?_eq_none (by omega)]

/-- INTERNAL: reading after a removal. -/
theorem get_remove (s : Slab α) (i j : ℕ) :
    (s.remove i).get j = if j = i then none else s.get j := by
  rw [get, remove, List.getElem?_set]
  by_cases hij : i = j
  · subst hij
    by_cases hlt : i < s.entries.length
    · simp [hlt]
    · simp [hlt]
  · rw [if_neg hij, if_neg fun hji => hij hji.symm, get]

/-- INTERNAL: reading after a change. -/
theorem get_modify (s : Slab α) (i j : ℕ) (f : α → α) :
    (s.modify i f).get j = if j = i then (s.get j).map f else s.get j := by
  rw [get, get, modify, List.getElem?_modify]
  by_cases hij : i = j
  · subst hij
    rw [if_pos rfl]
    cases s.entries[i]? <;> simp
  · rw [if_neg fun hji => hij hji.symm]
    cases s.entries[j]? <;> simp [hij]

/-- INTERNAL: changing an entry leaves the length. -/
@[simp] theorem length_modify (s : Slab α) (i : ℕ) (f : α → α) :
    (s.modify i f).entries.length = s.entries.length := by
  simp [modify]

/-- INTERNAL: a stored value is under an index of the slab. -/
theorem lt_of_get (s : Slab α) (i : ℕ) (a : α) (h : s.get i = some a) : i < s.entries.length := by
  rw [get, Option.join_eq_some_iff] at h
  exact (List.getElem?_eq_some_iff.mp h).1

/-- INTERNAL: a slab grows by an entry that is new. -/
theorem length_insert (s : Slab α) (i : ℕ) (a : α) :
    (s.insert i a).entries.length =
      if i < s.entries.length then s.entries.length else s.entries.length + 1 := by
  unfold insert
  split <;> simp

/-- INTERNAL: a removal leaves the length. -/
@[simp] theorem length_remove (s : Slab α) (i : ℕ) :
    (s.remove i).entries.length = s.entries.length := by
  simp [remove]

/-- INTERNAL: no slab stores more values than it has slots. -/
theorem len_le (s : Slab α) : s.len ≤ s.entries.length := List.countP_le_length

/-- INTERNAL: with no vacant slot, the slots are the values. -/
theorem len_of_full (s : Slab α) (h : none ∉ s.entries) : s.len = s.entries.length := by
  rw [len, List.countP_eq_length]
  intro x hx
  cases x with
  | none => exact absurd hx h
  | some a => rfl

/-- INTERNAL: **the index taken is below any bound on the slots, as long as fewer values
than that are stored**. -/
theorem lt_of_takes (s : Slab α) (i cap : ℕ) (h : s.Takes i) (hslots : s.entries.length ≤ cap)
    (hlen : s.len < cap) : i < cap := by
  rcases h with h | ⟨h, hfull⟩
  · have hlt : i < s.entries.length := (List.getElem?_eq_some_iff.mp h).1
    omega
  · rw [len_of_full s hfull] at hlen
    omega

/-- INTERNAL: and the slots stay within the bound. -/
theorem length_insert_le (s : Slab α) (i cap : ℕ) (a : α) (h : s.Takes i)
    (hslots : s.entries.length ≤ cap) (hlen : s.len < cap) :
    (s.insert i a).entries.length ≤ cap := by
  have hlt := lt_of_takes s i cap h hslots hlen
  rw [length_insert]
  split
  · exact hslots
  · omega

end Slab

end TracingConsole.Library
