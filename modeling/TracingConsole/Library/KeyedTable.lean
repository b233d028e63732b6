import Mathlib

/-!
# Ordered tables and the multiset of their values

`Std.ExtTreeMap` is the finite map every keyed container of the development is an
instance of.  What its own library does not carry is the view of a table as a bag:
`values t` is the multiset of the stored values, and storing, overwriting and
erasing a key change it by exactly one element (`values_insert_of_none`,
`values_insert_of_some`, `values_eq_cons_erase`).  Every sum over a table follows from
these three equations.

`popFirst` removes the entry with the least key; `popFirst_eq_some` says which one.
-/

set_option autoImplicit false

namespace TracingConsole.Library

open Std (ExtTreeMap TransOrd LawfulEqOrd)

variable {κ ν : Type} [Ord κ] [TransOrd κ] [LawfulEqOrd κ]

/-! ## Listing a table -/

omit [LawfulEqOrd κ] in
/-- INTERNAL: a table lists no entry twice. -/
theorem toList_nodup (t : ExtTreeMap κ ν) : t.toList.Nodup := by
  refine (Std.ExtTreeMap.distinct_keys_toList (t := t)).imp ?_
  rintro a b hab rfl
  exact hab Std.ReflCmp.compare_self

omit [LawfulEqOrd κ] in
/-- INTERNAL: no key stands twice. -/
theorem keys_nodup (t : ExtTreeMap κ ν) : t.keys.Nodup := by
  refine (ExtTreeMap.distinct_keys (t := t)).imp ?_
  rintro a b hab rfl
  exact hab Std.ReflCmp.compare_self

/-- INTERNAL: reading a key after storing one. -/
theorem getElem?_insert_eq [DecidableEq κ] (t : ExtTreeMap κ ν) (k a : κ) (v : ν) :
    (t.insert k v)[a]? = if a = k then some v else t[a]? := by
  rw [ExtTreeMap.getElem?_insert]
  by_cases h : a = k
  · simp [h]
  · have : ¬ compare k a = .eq := fun hc => h (Std.LawfulEqCmp.eq_of_compare hc).symm
    simp [h, this]

/-- INTERNAL: reading a key after erasing one. -/
theorem getElem?_erase_eq [DecidableEq κ] (t : ExtTreeMap κ ν) (k a : κ) :
    (t.erase k)[a]? = if a = k then none else t[a]? := by
  rw [ExtTreeMap.getElem?_erase]
  by_cases h : a = k
  · simp [h]
  · have : ¬ compare k a = .eq := fun hc => h (Std.LawfulEqCmp.eq_of_compare hc).symm
    simp [h, this]

/-- INTERNAL: erasing a key that is not there changes nothing. -/
theorem erase_of_none (t : ExtTreeMap κ ν) (k : κ) (h : t[k]? = none) : t.erase k = t := by
  classical
  refine ExtTreeMap.ext_getElem? fun a => ?_
  rw [getElem?_erase_eq]
  split
  · next ha => rw [ha, h]
  · rfl

/-- INTERNAL: a table with a key is that entry and the table without it. -/
theorem toList_perm_of_some (t : ExtTreeMap κ ν) (k : κ) (v : ν) (h : t[k]? = some v) :
    t.toList.Perm ((k, v) :: (t.erase k).toList) := by
  classical
  have hnew : (k, v) ∉ (t.erase k).toList := by
    simp [ExtTreeMap.mem_toList_iff_getElem?_eq_some]
  rw [List.perm_ext_iff_of_nodup (toList_nodup t)
    (List.nodup_cons.mpr ⟨hnew, toList_nodup _⟩)]
  rintro ⟨a, w⟩
  rw [List.mem_cons, ExtTreeMap.mem_toList_iff_getElem?_eq_some,
    ExtTreeMap.mem_toList_iff_getElem?_eq_some, getElem?_erase_eq]
  by_cases ha : a = k
  · subst ha
    simp [h, eq_comm]
  · simp [ha]

/-! ## The bag of values -/

/-- INTERNAL: the values stored in a table, with multiplicity. -/
def values (t : ExtTreeMap κ ν) : Multiset ν := (t.toList.map Prod.snd : List ν)

omit [LawfulEqOrd κ] in
/-- INTERNAL: an empty table has no values. -/
@[simp] theorem values_empty : values (∅ : ExtTreeMap κ ν) = 0 := by
  simp [values]

/-- INTERNAL: a value is in the bag iff some key holds it. -/
theorem mem_values (t : ExtTreeMap κ ν) (v : ν) : v ∈ values t ↔ ∃ k : κ, t[k]? = some v := by
  simp [values, ExtTreeMap.mem_toList_iff_getElem?_eq_some]

/-- INTERNAL: a stored value is one element of the bag, the rest is the table without
its key. -/
theorem values_eq_cons_erase (t : ExtTreeMap κ ν) (k : κ) (v : ν) (h : t[k]? = some v) :
    values t = v ::ₘ values (t.erase k) := by
  simpa [values] using (toList_perm_of_some t k v h).map Prod.snd

/-- INTERNAL: storing under a key leaves the other entries and adds the value. -/
theorem values_insert (t : ExtTreeMap κ ν) (k : κ) (v : ν) :
    values (t.insert k v) = v ::ₘ values (t.erase k) := by
  classical
  have herase : (t.insert k v).erase k = t.erase k := by
    refine ExtTreeMap.ext_getElem? fun a => ?_
    simp only [getElem?_erase_eq, getElem?_insert_eq]
    split <;> rfl
  rw [values_eq_cons_erase (t.insert k v) k v (by simp), herase]

/-- INTERNAL: storing under a new key adds one element to the bag. -/
theorem values_insert_of_none (t : ExtTreeMap κ ν) (k : κ) (v : ν) (h : t[k]? = none) :
    values (t.insert k v) = v ::ₘ values t := by
  rw [values_insert, erase_of_none t k h]

/-- INTERNAL: the bag of what is read off the values depends on the lookups alone. -/
theorem values_map_congr {ν' μ : Type} (t : ExtTreeMap κ ν) (t' : ExtTreeMap κ ν')
    (f : ν → μ) (f' : ν' → μ) (h : ∀ k : κ, t[k]?.map f = t'[k]?.map f') :
    (values t).map f = (values t').map f' := by
  have hmap : t.map (fun _ v => f v) = t'.map (fun _ v => f' v) := by
    refine ExtTreeMap.ext_getElem? fun k => ?_
    rw [ExtTreeMap.getElem?_map, ExtTreeMap.getElem?_map]
    exact h k
  have hlist := congrArg ExtTreeMap.toList hmap
  rw [ExtTreeMap.toList_map, ExtTreeMap.toList_map] at hlist
  have hsnd := congrArg (List.map Prod.snd) hlist
  rw [List.map_map, List.map_map] at hsnd
  simp only [values, Multiset.map_coe, List.map_map]
  exact congrArg Multiset.ofList hsnd

/-- INTERNAL: reading a table along a list of its keys gives its bag. -/
theorem filterMap_keys (t : ExtTreeMap κ ν) (l : List κ) (hnodup : l.Nodup)
    (hmem : ∀ k, k ∈ l ↔ k ∈ t) :
    ((l.filterMap fun k => t[k]? : List ν) : Multiset ν) = values t := by
  have hkeys : l.Perm t.keys := by
    rw [List.perm_ext_iff_of_nodup hnodup (keys_nodup t)]
    intro k
    rw [hmem k, ExtTreeMap.mem_keys]
  have hread : t.keys.filterMap (fun k => t[k]?) = t.toList.map Prod.snd := by
    rw [← ExtTreeMap.map_fst_toList_eq_keys, List.filterMap_map, ← List.filterMap_eq_map]
    apply List.filterMap_congr
    intro kv hkv
    exact ExtTreeMap.mem_toList_iff_getElem?_eq_some.mp hkv
  unfold values
  rw [← hread]
  exact Multiset.coe_eq_coe.mpr (hkeys.filterMap _)

/-- INTERNAL: **a table of new entries** has these beside the old ones. -/
theorem getElem?_insertMany_iff [DecidableEq κ] (t : ExtTreeMap κ ν) (l : List (κ × ν))
    (hnodup : (l.map Prod.fst).Nodup) (hnew : ∀ kv ∈ l, t[kv.1]? = none) (k : κ) (v : ν) :
    (t.insertMany l)[k]? = some v ↔ t[k]? = some v ∨ (k, v) ∈ l := by
  induction l generalizing t with
  | nil =>
    rw [ExtTreeMap.insertMany_nil]
    exact (or_iff_left List.not_mem_nil).symm
  | cons kv l ih =>
    obtain ⟨a, b⟩ := kv
    rw [List.map_cons, List.nodup_cons] at hnodup
    obtain ⟨hout, hrest⟩ := hnodup
    have habsent : t[a]? = none := hnew (a, b) List.mem_cons_self
    rw [ExtTreeMap.insertMany_cons, ih (t.insert a b) hrest, getElem?_insert_eq, List.mem_cons]
    · by_cases hk : k = a
      · subst hk
        rw [if_pos rfl, habsent]
        simp [eq_comm]
      · rw [if_neg hk, Prod.mk.injEq]
        simp [hk]
    · intro kv hkv
      have hne : kv.1 ≠ a := fun heq => hout (List.mem_map.mpr ⟨kv, hkv, heq⟩)
      rw [getElem?_insert_eq, if_neg hne]
      exact hnew kv (List.mem_cons_of_mem _ hkv)

/-! ## Removing the least key -/

/-- INTERNAL: take the entry with the least key out of a table. -/
def popFirst (t : ExtTreeMap κ ν) : Option (κ × ν × ExtTreeMap κ ν) :=
  match t.toList with
  | [] => none
  | (k, v) :: _ => some (k, v, t.erase k)

omit [LawfulEqOrd κ] in
/-- INTERNAL: only an empty table has no first entry. -/
theorem popFirst_eq_none (t : ExtTreeMap κ ν) : popFirst t = none ↔ t = ∅ := by
  rw [← ExtTreeMap.toList_eq_nil_iff]
  unfold popFirst
  cases t.toList <;> simp

/-- INTERNAL: the entry taken out is stored in the table, no key is below its key, and
the rest is the table without it. -/
theorem popFirst_eq_some (t t' : ExtTreeMap κ ν) (k : κ) (v : ν)
    (h : popFirst t = some (k, v, t')) :
    t[k]? = some v ∧ t' = t.erase k ∧ ∀ a, a ∈ t → (compare k a).isLE := by
  classical
  unfold popFirst at h
  cases hl : t.toList with
  | nil => simp [hl] at h
  | cons e rest =>
    rw [hl] at h
    obtain ⟨k', v'⟩ := e
    simp only [Option.some.injEq, Prod.mk.injEq] at h
    obtain ⟨rfl, rfl, rfl⟩ := h
    have hmem : ∀ p : κ × ν, p ∈ t.toList ↔ t[p.1]? = some p.2 := fun p =>
      ExtTreeMap.mem_toList_iff_getElem?_eq_some
    refine ⟨(hmem (k', v')).mp (by simp [hl]), rfl, ?_⟩
    intro a ha
    obtain ⟨w, hw⟩ := Option.isSome_iff_exists.mp (ExtTreeMap.isSome_getElem?_iff_mem.mpr ha)
    have hin : (a, w) ∈ (k', v') :: rest := hl ▸ (hmem (a, w)).mpr hw
    have hsorted := hl ▸ ExtTreeMap.ordered_keys_toList (t := t)
    rcases List.mem_cons.mp hin with heq | htail
    · obtain ⟨rfl, rfl⟩ := Prod.mk.inj heq
      simp
    · have := (List.pairwise_cons.mp hsorted).1 (a, w) htail
      simp only at this
      simp [this]

end TracingConsole.Library
