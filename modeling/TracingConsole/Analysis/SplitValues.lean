import TracingConsole.Model.Reference

/-!
# Collecting splits one span at a time

`collectSplits` (state.rs:465-489) builds the splits of a span from its own fields and the
splits its parent resolved.  Along a chain of spans this gives for every split key the
value closest to the leaf, in key order: `collectSplits_root` and `collectSplits_child` are
the two steps of that induction.

Both sides are lists with strictly increasing keys, and such lists are equal as soon as
they have the same elements.
-/

set_option autoImplicit false

namespace TracingConsole.Analysis

open TracingConsole.Library TracingConsole.Model

/-- INTERNAL: the order of splits, by key alone. -/
def keyLt (x y : String × String) : Prop := x.1 < y.1

/-- INTERNAL: no key is before itself. -/
instance : Std.Irrefl keyLt := ⟨fun x => lt_irrefl x.1⟩

/-- INTERNAL: of two keys at most one is before the other. -/
instance : Std.Antisymm keyLt := ⟨fun _ _ hxy hyx => absurd hyx (lt_asymm hxy)⟩

/-! ## What is pushed -/

/-- INTERNAL: pushing keeps the keys distinct, keeps what was there, and adds the first of
the wanted fields of each key that was not.
SRCLINE: state.rs:476-487 -/
theorem pushSplits_spec (keep : String → Bool) (fields splits : List (String × String))
    (hnodup : (splits.map Prod.fst).Nodup) :
    ((pushSplits keep fields splits).map Prod.fst).Nodup ∧
    ∀ k v, (k, v) ∈ pushSplits keep fields splits ↔
      (k, v) ∈ splits ∨
        (k ∉ splits.map Prod.fst ∧ keep k = true ∧
          (fields.find? fun kv => kv.1 = k) = some (k, v)) := by
  induction fields generalizing splits with
  | nil => exact ⟨hnodup, fun k v => by simp [pushSplits]⟩
  | cons kv fields ih =>
    obtain ⟨k₀, v₀⟩ := kv
    have hany : (splits.any fun s => s.1 == k₀) = decide (k₀ ∈ splits.map Prod.fst) := by
      rw [Bool.eq_iff_iff]
      simp
    have hstep : pushSplits keep ((k₀, v₀) :: fields) splits =
        pushSplits keep fields
          (if keep k₀ && !splits.any (fun s => s.1 == k₀) then splits ++ [(k₀, v₀)]
          else splits) := rfl
    rw [hstep, hany]
    by_cases hpush : keep k₀ = true ∧ k₀ ∉ splits.map Prod.fst
    · obtain ⟨hkeep, hfresh⟩ := hpush
      have hcond : (keep k₀ && !decide (k₀ ∈ splits.map Prod.fst)) = true := by
        simp [hkeep, hfresh]
      rw [if_pos hcond]
      have hnodup' : ((splits ++ [(k₀, v₀)]).map Prod.fst).Nodup := by
        rw [List.map_append, List.nodup_append]
        refine ⟨hnodup, List.nodup_singleton _, ?_⟩
        intro a ha b hb heq
        rw [List.map_singleton, List.mem_singleton] at hb
        have hkey : a = k₀ := heq.trans hb
        exact hfresh (hkey ▸ ha)
      obtain ⟨hdistinct, hmem⟩ := ih (splits ++ [(k₀, v₀)]) hnodup'
      refine ⟨hdistinct, fun k v => ?_⟩
      rw [hmem k v, List.mem_append, List.mem_singleton, List.map_append, List.mem_append,
        List.map_singleton, List.mem_singleton, List.find?_cons]
      by_cases hk : k₀ = k
      · subst hk
        simp only [decide_true, Prod.mk.injEq, true_and, Option.some.injEq]
        constructor
        · rintro ((hin | rfl) | ⟨hnot, -⟩)
          · exact Or.inl hin
          · exact Or.inr ⟨hfresh, hkeep, rfl⟩
          · exact absurd (Or.inr trivial) hnot
        · rintro (hin | ⟨-, -, heq⟩)
          · exact Or.inl (Or.inl hin)
          · exact Or.inl (Or.inr heq.symm)
      · simp [hk, Ne.symm hk]
    · have hcond : ¬ (keep k₀ && !decide (k₀ ∈ splits.map Prod.fst)) = true := by
        simpa using hpush
      rw [if_neg hcond]
      obtain ⟨hdistinct, hmem⟩ := ih splits hnodup
      refine ⟨hdistinct, fun k v => ?_⟩
      rw [hmem k v, List.find?_cons]
      by_cases hk : k₀ = k
      · subst hk
        simp only [decide_true]
        constructor
        · rintro (hin | ⟨hnot, hkeep, -⟩)
          · exact Or.inl hin
          · exact absurd ⟨hkeep, hnot⟩ hpush
        · rintro (hin | ⟨hnot, hkeep, -⟩)
          · exact Or.inl hin
          · exact absurd ⟨hkeep, hnot⟩ hpush
      · simp [hk]

/-- INTERNAL: sorting a list with distinct keys makes them strictly increasing.
SRCLINE: state.rs:488 -/
theorem insertionSort_keyLt (splits : List (String × String))
    (hnodup : (splits.map Prod.fst).Nodup) :
    (splits.insertionSort fun a b => a.1 ≤ b.1).Pairwise keyLt := by
  have htotal : Std.Total fun a b : String × String => a.1 ≤ b.1 :=
    ⟨fun a b => le_total a.1 b.1⟩
  have htrans : IsTrans (String × String) fun a b => a.1 ≤ b.1 :=
    ⟨fun _ _ _ hab hbc => le_trans hab hbc⟩
  have hsorted := List.pairwise_insertionSort (fun a b : String × String => a.1 ≤ b.1) splits
  have hperm := List.perm_insertionSort (fun a b : String × String => a.1 ≤ b.1) splits
  have hdistinct := (hperm.map Prod.fst).nodup_iff.mpr hnodup
  unfold List.Nodup at hdistinct
  rw [List.pairwise_map] at hdistinct
  refine (hsorted.and hdistinct).imp ?_
  intro a b hab
  exact lt_of_le_of_ne hab.1 hab.2

/-- INTERNAL: the keys of the reference splits are strictly increasing. -/
theorem splitValues_keyLt (keys : Finset String) (chain : List WireSpan) :
    (splitValues keys chain).Pairwise keyLt := by
  unfold splitValues
  rw [List.pairwise_filterMap]
  have hsorted : keys.sort.Pairwise (· < ·) := keys.sortedLT_sort.pairwise
  refine hsorted.imp ?_
  intro k k' hlt x hx y hy
  obtain ⟨v, -, rfl⟩ := Option.map_eq_some_iff.mp hx
  obtain ⟨v', -, rfl⟩ := Option.map_eq_some_iff.mp hy
  exact hlt

/-- INTERNAL: a value is split by if it is the nearest of its key. -/
theorem mem_splitValues (keys : Finset String) (chain : List WireSpan) (k v : String) :
    (k, v) ∈ splitValues keys chain ↔
      k ∈ keys ∧ chain.findSome? (fieldValue k) = some v := by
  unfold splitValues
  rw [List.mem_filterMap]
  constructor
  · rintro ⟨k', hk', heq⟩
    obtain ⟨v', hv', heq⟩ := Option.map_eq_some_iff.mp heq
    cases heq
    exact ⟨by simpa using hk', hv'⟩
  · rintro ⟨hk, hv⟩
    exact ⟨k, by simpa using hk, by rw [hv]; rfl⟩

/-- INTERNAL: looking a key up in a list with distinct keys. -/
theorem find?_of_keyLt (splits : List (String × String)) (h : splits.Pairwise keyLt)
    (k v : String) :
    (splits.find? fun kv => kv.1 = k) = some (k, v) ↔ (k, v) ∈ splits := by
  induction splits with
  | nil => simp
  | cons kv splits ih =>
    obtain ⟨k₀, v₀⟩ := kv
    obtain ⟨hhead, htail⟩ := List.pairwise_cons.mp h
    rw [List.find?_cons, List.mem_cons]
    by_cases hk : k₀ = k
    · subst hk
      simp only [decide_true, Option.some.injEq, Prod.mk.injEq, true_and]
      constructor
      · rintro rfl
        exact Or.inl rfl
      · rintro (rfl | hin)
        · rfl
        · exact absurd (hhead _ hin) (lt_irrefl _)
    · simp [hk, Ne.symm hk, ih htail]

/-! ## The two steps -/

/-- INTERNAL: looking a key up among the fields of a span.
SRCLINE: state.rs:476-478 -/
theorem find?_fields (w : WireSpan) (k v : String) :
    ((w.fields.map fun kv => (kv.1, kv.2.toStringValue)).find? fun kv => kv.1 = k) =
      some (k, v) ↔ fieldValue k w = some v := by
  unfold fieldValue
  rw [List.find?_map]
  constructor
  · intro h
    obtain ⟨kv, hkv, heq⟩ := Option.map_eq_some_iff.mp h
    have hfun : (fun kv : String × WireFieldValue => decide (kv.1 = k)) =
        ((fun kv : String × String => decide (kv.1 = k)) ∘
          fun kv => (kv.1, kv.2.toStringValue)) := rfl
    rw [hfun, hkv, Option.map_some]
    exact congrArg some (Prod.mk.inj heq).2
  · intro h
    obtain ⟨kv, hkv, heq⟩ := Option.map_eq_some_iff.mp h
    have hkey : kv.1 = k := by simpa using List.find?_some hkv
    change (w.fields.find? fun kv => decide (kv.1 = k)).map _ = _
    rw [hkv, Option.map_some, hkey, heq]

/-- INTERNAL: the values a span contributes itself.
SRCLINE: state.rs:473-480 -/
theorem ownSplits_spec (w : WireSpan) (keys : Finset String) :
    let own := pushSplits (fun k => decide (k ∈ keys))
      (w.fields.map fun kv => (kv.1, kv.2.toStringValue)) []
    (own.map Prod.fst).Nodup ∧
    ∀ k v, (k, v) ∈ own ↔ k ∈ keys ∧ fieldValue k w = some v := by
  intro own
  obtain ⟨hdistinct, hmem⟩ := pushSplits_spec (fun k => decide (k ∈ keys))
    (w.fields.map fun kv => (kv.1, kv.2.toStringValue)) [] List.nodup_nil
  refine ⟨hdistinct, fun k v => ?_⟩
  rw [hmem k v, find?_fields]
  simp

/-- INTERNAL: **the splits of a root are those of its chain**.
SRCLINE: state.rs:468-489 -/
theorem collectSplits_root (w : WireSpan) (keys : Finset String) :
    collectSplits w none keys = splitValues keys [w] := by
  obtain ⟨hdistinct, hmem⟩ := ownSplits_spec w keys
  apply (insertionSort_keyLt _ hdistinct).eq_of_mem_iff (splitValues_keyLt keys [w])
  rintro ⟨k, v⟩
  rw [List.mem_insertionSort, mem_splitValues, hmem k v, List.findSome?_singleton]

/-- INTERNAL: **the splits of a child are those of its chain**, when its parent's are.
SRCLINE: state.rs:468-489 -/
theorem collectSplits_child (w : WireSpan) (keys : Finset String) (chain : List WireSpan) :
    collectSplits w (some (splitValues keys chain)) keys = splitValues keys (w :: chain) := by
  obtain ⟨hdistinct, hmem⟩ := ownSplits_spec w keys
  obtain ⟨hdistinct', hmem'⟩ :=
    pushSplits_spec (fun _ => true) (splitValues keys chain) _ hdistinct
  apply (insertionSort_keyLt _ hdistinct').eq_of_mem_iff (splitValues_keyLt keys (w :: chain))
  rintro ⟨k, v⟩
  have hkey : ∀ k : String, k ∈ (pushSplits (fun k => decide (k ∈ keys))
      (w.fields.map fun kv => (kv.1, kv.2.toStringValue)) []).map Prod.fst ↔
        k ∈ keys ∧ (fieldValue k w).isSome := by
    intro k
    rw [List.mem_map]
    constructor
    · rintro ⟨⟨k', v'⟩, hin, rfl⟩
      obtain ⟨hk, hv⟩ := (hmem k' v').mp hin
      exact ⟨hk, by rw [hv]; rfl⟩
    · rintro ⟨hk, hv⟩
      obtain ⟨v', hv'⟩ := Option.isSome_iff_exists.mp hv
      exact ⟨(k, v'), (hmem k v').mpr ⟨hk, hv'⟩, rfl⟩
  rw [List.mem_insertionSort, mem_splitValues, hmem' k v, hmem k v, hkey k,
    find?_of_keyLt _ (splitValues_keyLt keys chain), mem_splitValues, List.findSome?_cons]
  cases hown : fieldValue k w with
  | none => simp
  | some v' =>
    simp only [Option.isSome_some, and_true, Option.some.injEq]
    constructor
    · rintro (hin | ⟨hnot, -, hk, -⟩)
      · exact hin
      · exact absurd hk hnot
    · intro hin
      exact Or.inl hin

end TracingConsole.Analysis
