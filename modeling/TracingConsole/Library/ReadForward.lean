import Mathlib

/-!
# Reading a log forward

A log only grows at its end.  What somebody read of it, in the order it was read, is *read
forward* if no value is older than the one before it; a value may be read more than once, and
values may be missed.
-/

set_option autoImplicit false

namespace TracingConsole.Library

variable {α : Type}

/-- INTERNAL: the values `xs` were read from `log` at positions that never go back. -/
def ReadsForward (log xs : List α) : Prop :=
  ∃ positions : List ℕ, positions.Pairwise (· ≤ ·) ∧
    xs.map some = positions.map fun i => log[i]?

/-- INTERNAL: nothing has been read. -/
theorem readsForward_nil (log : List α) : ReadsForward log [] :=
  ⟨[], List.Pairwise.nil, rfl⟩

/-- INTERNAL: the positions of what was read lie in the log. -/
theorem positions_lt (log xs : List α) (positions : List ℕ)
    (h : xs.map some = positions.map fun i => log[i]?) : ∀ i ∈ positions, i < log.length := by
  intro i hi
  have hread : log[i]? ∈ xs.map some := by
    rw [h]
    exact List.mem_map.mpr ⟨i, hi, rfl⟩
  obtain ⟨x, -, hx⟩ := List.mem_map.mp hread
  exact (List.getElem?_eq_some_iff.mp hx.symm).1

/-- INTERNAL: what was read stays read when the log grows. -/
theorem ReadsForward.grow (log log' xs : List α) (h : ReadsForward log xs)
    (hgrows : log <+: log') : ReadsForward log' xs := by
  obtain ⟨positions, hsorted, hread⟩ := h
  obtain ⟨more, hmore⟩ := hgrows
  refine ⟨positions, hsorted, ?_⟩
  rw [hread, ← hmore]
  refine List.map_congr_left fun i hi => ?_
  have hlt := positions_lt log xs positions hread i hi
  show log[i]? = (log ++ more)[i]?
  rw [List.getElem?_append_left hlt]

/-- INTERNAL: some of it was read forward as well. -/
theorem ReadsForward.sublist (log xs ys : List α) (h : ReadsForward log ys)
    (hsub : xs.Sublist ys) : ReadsForward log xs := by
  obtain ⟨positions, hsorted, hread⟩ := h
  have hmapped : (xs.map some).Sublist (positions.map fun i => log[i]?) := by
    rw [← hread]
    exact hsub.map _
  obtain ⟨kept, hkept, heq⟩ := List.sublist_map_iff.mp hmapped
  exact ⟨kept, hsorted.sublist hkept, heq⟩

/-- INTERNAL: **the newest value may be read at any time**. -/
theorem ReadsForward.readLast (log xs : List α) (x : α) (h : ReadsForward log xs)
    (hlast : log.getLast? = some x) : ReadsForward log (xs ++ [x]) := by
  obtain ⟨positions, hsorted, hread⟩ := h
  have hbelow := positions_lt log xs positions hread
  refine ⟨positions ++ [log.length - 1], ?_, ?_⟩
  · refine List.pairwise_append.mpr ⟨hsorted, List.pairwise_singleton _ _, ?_⟩
    intro i hi j hj
    have hlt := hbelow i hi
    rw [List.mem_singleton.mp hj]
    omega
  · rw [List.map_append, List.map_append, hread, List.map_singleton, List.map_singleton,
      ← List.getLast?_eq_getElem?, hlast]

/-- INTERNAL: what was read is in the log. -/
theorem ReadsForward.mem (log xs : List α) (h : ReadsForward log xs) : ∀ x ∈ xs, x ∈ log := by
  obtain ⟨positions, -, hread⟩ := h
  intro x hx
  have hmem : some x ∈ positions.map fun i => log[i]? := by
    rw [← hread]
    exact List.mem_map.mpr ⟨x, hx, rfl⟩
  obtain ⟨i, -, hi⟩ := List.mem_map.mp hmem
  exact List.mem_of_getElem? hi

end TracingConsole.Library
