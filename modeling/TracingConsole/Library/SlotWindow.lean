import Mathlib

/-!
# Windows of slots

A window is a list of optional slots whose first one has the absolute index `base`; it stands
for a sparse sequence of which only a stretch is kept.  `slotAt` reads it at an absolute
index.  Padding at the back reads as before, dropping at the front moves the base along, and
`filedAt` is what a list of indexed items puts under one index: over the slots of a window it
adds up to the items of the window (`filedAt_perm`).  When every slot accounts for its items
(`SlotHolds`), a sum or a fold over the slots is one over the items of the window.
-/

set_option autoImplicit false

namespace TracingConsole.Library

variable {α β : Type}

/-! ## Reading a window -/

/-- INTERNAL: the slot of an absolute index, `none` outside the window. -/
def slotAt (base : ℕ) (slots : List (Option β)) (i : ℕ) : Option β :=
  slots[i - base]?.join

/-- INTERNAL: an empty window has no slot. -/
@[simp] theorem slotAt_nil (base i : ℕ) : slotAt base ([] : List (Option β)) i = none := rfl

/-- INTERNAL: empty slots at the back read like no slots. -/
theorem slotAt_pad (base : ℕ) (slots : List (Option β)) (n i : ℕ) :
    slotAt base (slots ++ List.replicate n none) i = slotAt base slots i := by
  unfold slotAt
  by_cases hin : i - base < slots.length
  · rw [List.getElem?_append_left hin]
  · have hout : slots[i - base]? = none := List.getElem?_eq_none (Nat.le_of_not_lt hin)
    rw [List.getElem?_append_right (Nat.le_of_not_lt hin), hout, List.getElem?_replicate]
    split <;> rfl

/-- INTERNAL: dropping at the front moves the base along. -/
theorem slotAt_drop (base : ℕ) (slots : List (Option β)) (n i : ℕ) (h : base + n ≤ i) :
    slotAt (base + n) (slots.drop n) i = slotAt base slots i := by
  have hindex : n + (i - (base + n)) = i - base := by omega
  unfold slotAt
  rw [List.getElem?_drop, hindex]

/-- INTERNAL: a write is read under its own index only. -/
theorem slotAt_set (base : ℕ) (slots : List (Option β)) (j i : ℕ) (b : β) (hj : base ≤ j)
    (hin : j - base < slots.length) (hi : base ≤ i) :
    slotAt base (slots.set (j - base) (some b)) i =
      if i = j then some b else slotAt base slots i := by
  unfold slotAt
  by_cases hij : i = j
  · rw [if_pos hij, hij, List.getElem?_set_self hin]
    rfl
  · have hne : j - base ≠ i - base := by omega
    rw [if_neg hij, List.getElem?_set_ne hne]

/-! ## What belongs in a window -/

/-- INTERNAL: the items under one index, in order. -/
def filedAt (i : ℕ) (items : List (ℕ × α)) : List α :=
  (items.filter fun item => item.1 = i).map Prod.snd

/-- INTERNAL: the items under the `n` indices from `base` on, in order. -/
def filedWithin (base n : ℕ) (items : List (ℕ × α)) : List α :=
  (items.filter fun item => base ≤ item.1 ∧ item.1 < base + n).map Prod.snd

/-- INTERNAL: nothing is filed among no items. -/
@[simp] theorem filedAt_nil (i : ℕ) : filedAt i ([] : List (ℕ × α)) = [] := rfl

/-- INTERNAL: one more item is filed where it belongs. -/
theorem filedAt_snoc (i : ℕ) (items : List (ℕ × α)) (item : ℕ × α) :
    filedAt i (items ++ [item]) = filedAt i items ++ if item.1 = i then [item.2] else [] := by
  unfold filedAt
  rw [List.filter_append, List.map_append]
  by_cases h : item.1 = i <;> simp [h]

/-- INTERNAL: **index by index the window has all its items**. -/
theorem filedAt_perm (base n : ℕ) (items : List (ℕ × α)) :
    ((List.range n).map fun k => filedAt (base + k) items).flatten.Perm
      (filedWithin base n items) := by
  induction n with
  | zero => simp [filedWithin]
  | succ n ih =>
    -- the items of the longer window are those of the shorter one and those of its last index
    have hsplit := (List.filter_append_perm (fun item : ℕ × α => decide (item.1 < base + n))
      (items.filter fun item => base ≤ item.1 ∧ item.1 < base + (n + 1))).map Prod.snd
    have hshort : ((items.filter fun item => base ≤ item.1 ∧ item.1 < base + (n + 1)).filter
        fun item => decide (item.1 < base + n)).map Prod.snd = filedWithin base n items := by
      rw [List.filter_filter]
      refine congrArg (List.map Prod.snd) (List.filter_congr fun item _ => ?_)
      simp only [← Bool.decide_and, decide_eq_decide]
      omega
    have hlast : ((items.filter fun item => base ≤ item.1 ∧ item.1 < base + (n + 1)).filter
        fun item => !decide (item.1 < base + n)).map Prod.snd = filedAt (base + n) items := by
      rw [List.filter_filter]
      refine congrArg (List.map Prod.snd) (List.filter_congr fun item _ => ?_)
      simp only [← decide_not, ← Bool.decide_and, decide_eq_decide]
      omega
    rw [List.map_append, hshort, hlast] at hsplit
    rw [List.range_succ, List.map_append, List.flatten_append]
    simp only [List.map_cons, List.map_nil, List.flatten_cons, List.flatten_nil, List.append_nil]
    exact (ih.append_right _).trans hsplit

/-! ## Slots that account for their items -/

/-- INTERNAL: an empty slot has no items, a filled one accounts for them. -/
def SlotHolds (holds : List α → β → Prop) (values : List α) : Option β → Prop
  | none => values = []
  | some b => holds values b

variable (holds : List α → β → Prop)

/-- INTERNAL: a measure of the filled slots is that of the items. -/
theorem sum_slots (weigh : β → ℕ) (measure : List α → ℕ) (hnil : measure [] = 0)
    (happend : ∀ values rest, measure (values ++ rest) = measure values + measure rest)
    (hslot : ∀ values b, holds values b → weigh b = measure values) (groups : List (List α))
    (slots : List (Option β)) (h : List.Forall₂ (SlotHolds holds) groups slots) :
    ((slots.filterMap id).map weigh).sum = measure groups.flatten := by
  induction h with
  | nil => exact hnil.symm
  | @cons values slot groups slots hfirst _ ih =>
    rw [List.flatten_cons, happend, ← ih]
    cases slot with
    | none =>
      have hempty : values = [] := hfirst
      simp [hempty, hnil]
    | some b => simp [hslot values b hfirst]

/-- INTERNAL: a fold over the filled slots is one over the items. -/
theorem foldl_slots {γ : Type} (fold : γ → β → γ) (step : γ → α → γ)
    (hslot : ∀ values b acc, holds values b → fold acc b = values.foldl step acc)
    (groups : List (List α)) (slots : List (Option β))
    (h : List.Forall₂ (SlotHolds holds) groups slots) (acc : γ) :
    (slots.filterMap id).foldl fold acc = groups.flatten.foldl step acc := by
  induction h generalizing acc with
  | nil => rfl
  | @cons values slot groups slots hfirst _ ih =>
    rw [List.flatten_cons, List.foldl_append, ← ih]
    cases slot with
    | none =>
      have hempty : values = [] := hfirst
      simp [hempty]
    | some b => simp [hslot values b acc hfirst]

/-- INTERNAL: slot by slot a window accounts for the items under its indices. -/
theorem slots_forall₂ (base : ℕ) (slots : List (Option β)) (items : List (ℕ × α))
    (h : ∀ i, base ≤ i → SlotHolds holds (filedAt i items) (slotAt base slots i)) :
    List.Forall₂ (SlotHolds holds)
      ((List.range slots.length).map fun k => filedAt (base + k) items) slots := by
  rw [List.forall₂_iff_get]
  refine ⟨by simp, fun k hk hin => ?_⟩
  have hread : slotAt base slots (base + k) = slots.get ⟨k, hin⟩ := by
    simp [slotAt, List.getElem?_eq_getElem hin]
  have hslot := h (base + k) (Nat.le_add_right base k)
  rw [hread] at hslot
  simpa using hslot

/-- INTERNAL: **a measure over the slots of a window is that of its items**. -/
theorem sum_window (weigh : β → ℕ) (measure : List α → ℕ) (hnil : measure [] = 0)
    (happend : ∀ values rest, measure (values ++ rest) = measure values + measure rest)
    (hperm : ∀ values values', List.Perm values values' → measure values = measure values')
    (hslot : ∀ values b, holds values b → weigh b = measure values) (base : ℕ)
    (slots : List (Option β)) (items : List (ℕ × α))
    (h : ∀ i, base ≤ i → SlotHolds holds (filedAt i items) (slotAt base slots i)) :
    ((slots.filterMap id).map weigh).sum = measure (filedWithin base slots.length items) := by
  have hslots := slots_forall₂ holds base slots items h
  rw [sum_slots holds weigh measure hnil happend hslot _ _ hslots]
  exact hperm _ _ (filedAt_perm base slots.length items)

/-- INTERNAL: **a fold over the slots of a window is one over its items**, in any order. -/
theorem foldl_window {γ : Type} (fold : γ → β → γ) (step : γ → α → γ)
    (hcomm : ∀ acc x y, step (step acc x) y = step (step acc y) x)
    (hslot : ∀ values b acc, holds values b → fold acc b = values.foldl step acc) (base : ℕ)
    (slots : List (Option β)) (items : List (ℕ × α))
    (h : ∀ i, base ≤ i → SlotHolds holds (filedAt i items) (slotAt base slots i)) (acc : γ) :
    (slots.filterMap id).foldl fold acc =
      (filedWithin base slots.length items).foldl step acc := by
  have : RightCommutative step := ⟨hcomm⟩
  rw [foldl_slots holds fold step hslot _ _ (slots_forall₂ holds base slots items h)]
  exact (filedAt_perm base slots.length items).foldl_eq acc

end TracingConsole.Library
