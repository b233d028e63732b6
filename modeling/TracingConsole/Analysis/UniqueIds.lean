import TracingConsole.Library.Reservations
import TracingConsole.Model.IdAllocator

/-!
# Span ids are unique

A thread's reservation is one cursor with no stored end: that the batch is used up is read
off the low bits (thread_state.rs:91-100).  `heldIds` is the set of ids the cursor stands
for, and under it every atomic step of the allocator is a step of the ledger of disjoint
reservations (`view_step`), as long as the high-water mark has not wrapped.  `ids_unique`
follows.
-/

set_option autoImplicit false

namespace TracingConsole.Analysis

open TracingConsole.Library TracingConsole.Model

variable {T : Type} [DecidableEq T]

/-! ## The reservation a cursor stands for -/

/-- INTERNAL: the in-batch position of a cursor. -/
theorem and_idBatch (cursor : ℕ) : cursor &&& (idBatch - 1) = cursor % 1024 :=
  Nat.and_two_pow_sub_one_eq_mod cursor 10

/-- INTERNAL: the ids from the cursor to the end of its batch; none at a batch boundary.
SRCLINE: thread_state.rs:91-100 -/
def restOfBatch (cursor : ℕ) : Set ℕ :=
  {i | cursor % 1024 ≠ 0 ∧ cursor ≤ i ∧ i / 1024 = cursor / 1024}

/-- INTERNAL: what thread `t` has reserved and not returned. -/
def heldIds (a : Allocator T) (t : T) : Set ℕ :=
  match a.fetched t with
  | some start => Set.Ico start (start + idBatch)
  | none => restOfBatch (a.idCursor t)

/-- INTERNAL: writing the cursor behind the id returned leaves the ids above it. -/
theorem restOfBatch_succ (cursor : ℕ) (hpos : cursor % 1024 ≠ 0) (hlt : cursor < u64Size) :
    restOfBatch ((cursor + 1) % u64Size) = {j | j ∈ restOfBatch cursor ∧ cursor < j} := by
  unfold u64Size at hlt ⊢
  ext j
  simp only [restOfBatch, Set.mem_ofPred_eq]
  by_cases hwrap : cursor + 1 = 2 ^ 64
  · -- the last id of all: the cursor wraps to a batch boundary, which holds nothing
    rw [hwrap, Nat.mod_self]
    omega
  · have hmod : (cursor + 1) % 2 ^ 64 = cursor + 1 := Nat.mod_eq_of_lt (by omega)
    rw [hmod]
    omega

/-- INTERNAL: the same after a refill, whose start is batch-aligned. -/
theorem restOfBatch_start (start : ℕ) (haligned : start % 1024 = 0)
    (hlt : start + idBatch ≤ u64Size) :
    restOfBatch ((start + 1) % u64Size) =
      {j | j ∈ Set.Ico start (start + idBatch) ∧ start < j} := by
  unfold u64Size idBatch at hlt ⊢
  have hmod : (start + 1) % 2 ^ 64 = start + 1 := Nat.mod_eq_of_lt (by omega)
  ext j
  simp only [restOfBatch, Set.mem_Ico, Set.mem_ofPred_eq]
  rw [hmod]
  omega

/-! ## The allocator is a ledger -/

/-- INTERNAL: an allocation as a ledger; `top` is the high-water mark before any wrap. -/
def view (a : Allocation T) : Ledger T where
  held := heldIds a.ids
  issued := a.returned
  top := idBatch + a.reserved

/-- INTERNAL: what the representation keeps: the mark counts the reservations modulo
`2 ^ 64`, batches are aligned and inside the `u64`s. -/
structure Aligned (a : Allocation T) : Prop where
  mark : a.ids.idHighWater = (idBatch + a.reserved) % u64Size
  reserved : a.reserved % 1024 = 0
  cursor : ∀ t, a.ids.idCursor t < u64Size
  fetched : ∀ t start, a.ids.fetched t = some start →
    start % 1024 = 0 ∧ start + idBatch ≤ u64Size

omit [DecidableEq T] in
/-- INTERNAL: nothing is reserved at the start. -/
theorem aligned_new : Aligned (Allocation.new : Allocation T) where
  mark := show idBatch = (idBatch + 0) % u64Size by decide
  reserved := show 0 % 1024 = 0 by decide
  cursor := fun _ => by show 0 < u64Size; decide
  fetched := fun _ _ h => by cases h

/-- INTERNAL: the cursor of one thread is written. -/
theorem heldIds_update (a a' : Allocator T) (t : T) (held : Set ℕ)
    (hheld : heldIds a' t = held)
    (hcursor : ∀ u, u ≠ t → a'.idCursor u = a.idCursor u)
    (hfetched : ∀ u, u ≠ t → a'.fetched u = a.fetched u) :
    heldIds a' = Function.update (heldIds a) t held := by
  funext u
  by_cases hu : u = t
  · subst hu
    rw [Function.update_self, hheld]
  · rw [Function.update_of_ne hu, heldIds, heldIds, hcursor u hu, hfetched u hu]

/-- INTERNAL: the three things an atomic step can do. -/
theorem advance_cases (a : Allocation T) (t : T) :
    (∃ start, a.ids.fetched t = some start ∧
      a.advance t =
        { ids :=
            { a.ids with
              idCursor := Function.update a.ids.idCursor t ((start + 1) % u64Size)
              fetched := Function.update a.ids.fetched t none }
          returned := a.returned ++ [(t, start)]
          reserved := a.reserved }) ∨
    (a.ids.fetched t = none ∧ a.ids.idCursor t % 1024 ≠ 0 ∧
      a.advance t =
        { ids :=
            { a.ids with
              idCursor :=
                Function.update a.ids.idCursor t ((a.ids.idCursor t + 1) % u64Size) }
          returned := a.returned ++ [(t, a.ids.idCursor t)]
          reserved := a.reserved }) ∨
    (a.ids.fetched t = none ∧ a.ids.idCursor t % 1024 = 0 ∧
      a.advance t =
        { ids :=
            { a.ids with
              idHighWater := (a.ids.idHighWater + idBatch) % u64Size
              fetched := Function.update a.ids.fetched t (some a.ids.idHighWater) }
          returned := a.returned
          reserved := a.reserved + idBatch }) := by
  cases hf : a.ids.fetched t with
  | some start =>
    refine Or.inl ⟨start, rfl, ?_⟩
    simp only [Allocation.advance, Allocator.advance, hf]
  | none =>
    by_cases hpos : a.ids.idCursor t % 1024 = 0
    · refine Or.inr (Or.inr ⟨rfl, hpos, ?_⟩)
      simp [Allocation.advance, Allocator.advance, hf, and_idBatch, hpos]
    · refine Or.inr (Or.inl ⟨rfl, hpos, ?_⟩)
      simp [Allocation.advance, Allocator.advance, hf, and_idBatch, hpos]

/-- INTERNAL: ids are only ever reserved. -/
theorem reserved_advance (a : Allocation T) (t : T) : a.reserved ≤ (a.advance t).reserved := by
  rcases advance_cases a t with ⟨start, -, h⟩ | ⟨-, -, h⟩ | ⟨-, -, h⟩
  · rw [h]
  · rw [h]
  · rw [h]
    exact Nat.le_add_right _ _

/-- INTERNAL: a step keeps the representation while the ids last. -/
theorem Aligned.advance (a : Allocation T) (t : T) (h : Aligned a)
    (hlast : (a.advance t).reserved < u64Size) : Aligned (a.advance t) := by
  have hsize : u64Size % 1024 = 0 := by decide
  rcases advance_cases a t with ⟨start, hf, hstep⟩ | ⟨hf, hpos, hstep⟩ | ⟨hf, hpos, hstep⟩
  · rw [hstep]
    refine ⟨h.mark, h.reserved, ?_, ?_⟩
    · intro u
      show Function.update a.ids.idCursor t ((start + 1) % u64Size) u < u64Size
      by_cases hu : u = t
      · subst hu
        rw [Function.update_self]
        exact Nat.mod_lt _ (by decide)
      · rw [Function.update_of_ne hu]
        exact h.cursor u
    · intro u start' hu
      change Function.update a.ids.fetched t none u = some start' at hu
      by_cases hut : u = t
      · subst hut
        rw [Function.update_self] at hu
        cases hu
      · rw [Function.update_of_ne hut] at hu
        exact h.fetched u start' hu
  · rw [hstep]
    refine ⟨h.mark, h.reserved, ?_, h.fetched⟩
    intro u
    show Function.update a.ids.idCursor t ((a.ids.idCursor t + 1) % u64Size) u < u64Size
    by_cases hu : u = t
    · subst hu
      rw [Function.update_self]
      exact Nat.mod_lt _ (by decide)
    · rw [Function.update_of_ne hu]
      exact h.cursor u
  · rw [hstep] at hlast ⊢
    have hres := h.reserved
    have hmark := h.mark
    simp only [idBatch, u64Size] at hlast hsize hmark ⊢
    -- the batch before the mark is inside the `u64`s, so this one is as well
    have hfit : 1024 + a.reserved < 2 ^ 64 := by omega
    refine ⟨?_, ?_, h.cursor, ?_⟩
    · show (a.ids.idHighWater + 1024) % 2 ^ 64 = (1024 + (a.reserved + 1024)) % 2 ^ 64
      omega
    · show (a.reserved + 1024) % 1024 = 0
      omega
    · intro u start hu
      change Function.update a.ids.fetched t (some a.ids.idHighWater) u = some start at hu
      by_cases hut : u = t
      · subst hut
        rw [Function.update_self] at hu
        obtain rfl := Option.some.inj hu
        simp only [idBatch, u64Size]
        omega
      · rw [Function.update_of_ne hut] at hu
        exact h.fetched u start hu

/-- INTERNAL: **what an atomic step of the allocator does to the ledger** while the ids last: a
thread hands out the least id it holds, or reserves a batch when it holds none.
SRCLINE: cache.rs:208-226 -/
theorem view_advance (a : Allocation T) (t : T) (h : Aligned a)
    (hlast : (a.advance t).reserved < u64Size) :
    (∃ id ∈ (view a).held t, (∀ j ∈ (view a).held t, id ≤ j) ∧
      (a.ids.advance t).2 = some id ∧
      view (a.advance t) =
        { view a with
          held := Function.update (view a).held t {j | j ∈ (view a).held t ∧ id < j}
          issued := (view a).issued ++ [(t, id)] }) ∨
    ((view a).held t = ∅ ∧ (a.ids.advance t).2 = none ∧
      view (a.advance t) =
        { view a with
          held := Function.update (view a).held t
            (Set.Ico (view a).top ((view a).top + idBatch))
          top := (view a).top + idBatch }) := by
  rcases advance_cases a t with ⟨start, hf, hstep⟩ | ⟨hf, hpos, hstep⟩ | ⟨hf, hpos, hstep⟩
  · have hheld : heldIds a.ids t = Set.Ico start (start + idBatch) := by rw [heldIds, hf]
    have hmem : start ∈ heldIds a.ids t := by
      rw [hheld, Set.mem_Ico, idBatch]
      omega
    have hafter : heldIds (a.advance t).ids =
        Function.update (heldIds a.ids) t {j | j ∈ heldIds a.ids t ∧ start < j} := by
      rw [hstep]
      apply heldIds_update
      · obtain ⟨haligned, hfit⟩ := h.fetched t start hf
        rw [hheld, ← restOfBatch_start start haligned hfit]
        simp [heldIds]
      · intro u hu
        exact Function.update_of_ne hu _ _
      · intro u hu
        exact Function.update_of_ne hu _ _
    refine Or.inl ⟨start, hmem, fun j hj => ?_, by rw [Allocator.advance, hf], ?_⟩
    · change j ∈ heldIds a.ids t at hj
      rw [hheld, Set.mem_Ico] at hj
      exact hj.1
    · unfold view
      rw [hafter, hstep]
  · have hheld : heldIds a.ids t = restOfBatch (a.ids.idCursor t) := by rw [heldIds, hf]
    have hmem : a.ids.idCursor t ∈ heldIds a.ids t := by
      rw [hheld]
      exact ⟨hpos, le_rfl, rfl⟩
    have hafter : heldIds (a.advance t).ids =
        Function.update (heldIds a.ids) t
          {j | j ∈ heldIds a.ids t ∧ a.ids.idCursor t < j} := by
      rw [hstep]
      apply heldIds_update
      · rw [hheld, ← restOfBatch_succ (a.ids.idCursor t) hpos (h.cursor t)]
        simp [heldIds, hf]
      · intro u hu
        exact Function.update_of_ne hu _ _
      · intro u _
        rfl
    refine Or.inl ⟨a.ids.idCursor t, hmem, fun j hj => ?_, ?_, ?_⟩
    · change j ∈ heldIds a.ids t at hj
      rw [hheld] at hj
      exact hj.2.1
    · simp [Allocator.advance, hf, and_idBatch, hpos]
    · unfold view
      rw [hafter, hstep]
  · have hmark : a.ids.idHighWater = idBatch + a.reserved := by
      rw [hstep] at hlast
      rw [h.mark]
      apply Nat.mod_eq_of_lt
      simpa [Nat.add_comm] using hlast
    have hafter : heldIds (a.advance t).ids =
        Function.update (heldIds a.ids) t
          (Set.Ico (idBatch + a.reserved) (idBatch + a.reserved + idBatch)) := by
      rw [hstep]
      apply heldIds_update
      · simp [heldIds, hmark]
      · intro u _
        rfl
      · intro u hu
        exact Function.update_of_ne hu _ _
    refine Or.inr ⟨?_, ?_, ?_⟩
    · -- a cursor at a batch boundary stands for nothing
      change heldIds a.ids t = ∅
      rw [heldIds, hf, restOfBatch, hpos]
      simp
    · simp [Allocator.advance, hf, and_idBatch, hpos]
    · unfold view
      rw [hafter, hstep]
      simp only [Nat.add_assoc]

/-- INTERNAL: **an atomic step of the allocator is a step of the ledger** while the ids
last. -/
theorem view_step (a : Allocation T) (t : T) (h : Aligned a)
    (hlast : (a.advance t).reserved < u64Size) : LedgerStep (view a) (view (a.advance t)) := by
  rcases view_advance a t h hlast with ⟨id, hmem, -, -, hview⟩ | ⟨-, -, hview⟩
  · rw [hview]
    exact LedgerStep.issue (view a) t id hmem
  · rw [hview]
    exact LedgerStep.reserve (view a) t idBatch

/-! ## Every interleaving -/

omit [DecidableEq T] in
/-- INTERNAL: the allocator starts with no ids held. -/
theorem view_new : view (Allocation.new : Allocation T) =
    { held := fun _ => ∅, issued := [], top := idBatch } := by
  have hheld : heldIds (Allocation.new : Allocation T).ids = fun _ => ∅ := by
    funext t
    simp [heldIds, Allocation.new, Allocator.new, restOfBatch]
  rw [view, hheld]
  rfl

/-- INTERNAL: one more id is asked for. -/
theorem interleave_snoc (schedule : List T) (t : T) :
    Allocation.interleave (schedule ++ [t]) = (Allocation.interleave schedule).advance t := by
  simp [Allocation.interleave]

/-- INTERNAL: in every interleaving in which the ids last, the representation is kept and
the ledger is sound. -/
theorem interleave_sound (schedule : List T)
    (hlast : (Allocation.interleave schedule).reserved < u64Size) :
    Aligned (Allocation.interleave schedule) ∧
      (view (Allocation.interleave schedule)).Sound idBatch := by
  induction schedule using List.reverseRecOn with
  | nil =>
    refine ⟨aligned_new, ?_⟩
    show (view Allocation.new).Sound idBatch
    rw [view_new]
    exact Ledger.sound_start idBatch
  | append_singleton schedule t ih =>
    rw [interleave_snoc] at hlast ⊢
    obtain ⟨haligned, hsound⟩ := ih (lt_of_le_of_lt (reserved_advance _ t) hlast)
    exact ⟨haligned.advance _ t hlast, hsound.step _ _ _ (view_step _ t haligned hlast)⟩

/-- INTERNAL: and no id is skipped. -/
theorem interleave_complete (schedule : List T)
    (hlast : (Allocation.interleave schedule).reserved < u64Size) :
    (view (Allocation.interleave schedule)).Complete idBatch := by
  induction schedule using List.reverseRecOn with
  | nil =>
    show (view Allocation.new).Complete idBatch
    rw [view_new]
    exact Ledger.complete_start idBatch
  | append_singleton schedule t ih =>
    rw [interleave_snoc] at hlast ⊢
    have hbefore := lt_of_le_of_lt (reserved_advance _ t) hlast
    have haligned := (interleave_sound schedule hbefore).1
    rcases view_advance _ t haligned hlast with ⟨id, -, hleast, -, hview⟩ | ⟨hempty, -, hview⟩
    · rw [hview]
      exact (ih hbefore).issue idBatch _ t id hleast
    · rw [hview]
      exact (ih hbefore).reserve idBatch _ t idBatch hempty

/-- CODE: cache.rs:208-226 — **span ids are unique**: in every interleaving of the
allocating threads in which fewer than `2 ^ 64` ids are reserved, no id is returned twice,
none is 0, and the ids of one thread increase. -/
theorem ids_unique (schedule : List T)
    (hlast : (Allocation.interleave schedule).reserved < u64Size) :
    ((Allocation.interleave schedule).returned.map Prod.snd).Nodup ∧
    (∀ p ∈ (Allocation.interleave schedule).returned, p.2 ≠ 0) ∧
    ∀ t, (((Allocation.interleave schedule).returned.filter fun p => p.1 = t).map
      Prod.snd).Pairwise (· < ·) := by
  have hsound := (interleave_sound schedule hlast).2
  refine ⟨hsound.distinct, ?_, ?_⟩
  · intro p hp hzero
    have hmem := hsound.issued_mem p hp
    rw [hzero] at hmem
    exact absurd hmem.1 (by decide)
  · intro t
    rw [List.pairwise_map, List.pairwise_filter]
    refine hsound.increasing.imp ?_
    intro p q hlt hp hq
    apply hlt
    rw [of_decide_eq_true hp, of_decide_eq_true hq]

/-- CODE: cache.rs:208-226 — two threads, interleaved between a `fetch_add` and the write
of its cursor. -/
theorem ids_unique_two_threads :
    (Allocation.interleave [false, true, true, false, false, true]).returned =
      [(true, 2048), (false, 1024), (false, 1025), (true, 2049)] ∧
    ((Allocation.interleave [false, true, true, false, false, true]).returned.map
      Prod.snd).Nodup :=
  ⟨by decide, (ids_unique [false, true, true, false, false, true] (by decide)).1⟩

end TracingConsole.Analysis
