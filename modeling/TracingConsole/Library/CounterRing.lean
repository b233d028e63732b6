import Mathlib

/-!
# A ring of counters

A fixed number of cells, one of them current, stands for the last stretches of time.  Read from
the oldest cell to the current one (`inOrder`) a turn of the ring drops the oldest and starts
the newest at zero (`inOrder_turned`), whatever the place of the current cell; the sum over the
others is that of all but the last.
-/

set_option autoImplicit false

namespace TracingConsole.Library

variable {M : Type}

/-- INTERNAL: the cells from the oldest to the current one. -/
def inOrder (ring : List M) (head : ℕ) : List M := ring.rotate (head + 1)

/-- INTERNAL: the order loses no slot. -/
theorem length_inOrder (ring : List M) (head : ℕ) : (inOrder ring head).length = ring.length :=
  List.length_rotate _ _

/-- INTERNAL: the oldest slot is the one after the head. -/
theorem inOrder_eq (ring : List M) (head : ℕ) (h : head < ring.length) :
    inOrder ring head = ring.drop (head + 1) ++ ring.take (head + 1) :=
  List.rotate_eq_drop_append_take h

/-- INTERNAL: the current cell is the last one. -/
theorem inOrder_current (ring : List M) (head : ℕ) (v : M) (h : ring[head]? = some v) :
    inOrder ring head = ring.drop (head + 1) ++ ring.take head ++ [v] := by
  have hlt : head < ring.length := (List.getElem?_eq_some_iff.mp h).1
  rw [inOrder_eq ring head hlt, List.take_add_one, h, List.append_assoc]
  rfl

/-- INTERNAL: **a new value of the current cell** is one at the end. -/
theorem inOrder_set (ring : List M) (head : ℕ) (v : M) (h : head < ring.length) :
    inOrder (ring.set head v) head = (inOrder ring head).dropLast ++ [v] := by
  have hget : (ring.set head v)[head]? = some v := List.getElem?_set_self h
  rw [inOrder_current _ head v hget, inOrder_current ring head _ (List.getElem?_eq_getElem h),
    List.dropLast_concat, List.drop_set_of_lt (Nat.lt_succ_self head),
    List.take_set_of_le (Nat.le_refl head)]

/-- INTERNAL: **a turn drops the oldest cell** and starts a new one. -/
theorem inOrder_turned (ring : List M) (head : ℕ) (v : M) (h : head < ring.length) :
    inOrder (ring.set ((head + 1) % ring.length) v) ((head + 1) % ring.length) =
      (inOrder ring head).tail ++ [v] := by
  rw [inOrder_eq ring head h]
  by_cases hwrap : head + 1 = ring.length
  · -- the oldest cell is the first one
    cases ring with
    | nil => cases h
    | cons first rest =>
      rw [hwrap, Nat.mod_self, List.drop_length, List.take_length, List.nil_append,
        List.set_cons_zero, inOrder_eq _ _ (Nat.succ_pos _)]
      rfl
  · have hnext : head + 1 < ring.length := by omega
    rw [Nat.mod_eq_of_lt hnext, inOrder_current _ _ v (List.getElem?_set_self hnext),
      List.drop_set_of_lt (Nat.lt_succ_self _), List.take_set_of_le (Nat.le_refl _),
      List.tail_append_of_ne_nil, List.tail_drop]
    exact List.ne_nil_of_length_pos (by rw [List.length_drop]; omega)

/-- INTERNAL: without the cell of one index. -/
theorem map_fst_filter_zipIdx (l : List M) (k i : ℕ) :
    ((l.zipIdx k).filter fun x => x.2 ≠ k + i).map Prod.fst = l.eraseIdx i := by
  induction l generalizing k i with
  | nil => rfl
  | cons x l ih =>
    rw [List.zipIdx_cons]
    cases i with
    | zero =>
      have hrest : ((l.zipIdx (k + 1)).filter fun x => x.2 ≠ k) = l.zipIdx (k + 1) := by
        rw [List.filter_eq_self]
        rintro ⟨y, j⟩ hy
        have hle := (List.mem_zipIdx hy).1
        exact decide_eq_true (by dsimp only; omega)
      rw [List.filter_cons_of_neg (by simp), Nat.add_zero, hrest, List.eraseIdx_cons_zero,
        List.zipIdx_map_fst]
    | succ i =>
      have hnext := ih (k + 1) i
      rw [List.filter_cons_of_pos (by simp), List.map_cons, List.eraseIdx_cons_succ, ← hnext,
        Nat.add_right_comm k 1 i]
      rfl

/-- INTERNAL: **the sum of the others** is that of all cells but the last. -/
theorem sum_others [AddCommMonoid M] (ring : List M) (head : ℕ) (h : head < ring.length) :
    ((ring.zipIdx.filter fun x => x.2 ≠ head).map Prod.fst).sum =
      (inOrder ring head).dropLast.sum := by
  have herase := map_fst_filter_zipIdx ring 0 head
  rw [Nat.zero_add] at herase
  rw [herase, List.eraseIdx_eq_take_drop_succ,
    inOrder_current ring head _ (List.getElem?_eq_getElem h), List.dropLast_concat,
    List.sum_append, List.sum_append, add_comm]

end TracingConsole.Library
