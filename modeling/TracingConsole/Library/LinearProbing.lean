import Mathlib

/-!
# Linear probing

Keys that prefer a slot of a table of a fixed size take the first free slot from there on, round
the table.  A probe of as many slots as there are visits every slot (`probe_taken`), so it ends
at a free one if there is one (`probe_free`).  The keys that probe one after the other
have distinct slots as long as there are slots left (`probeAll_nodup`), and every slot is taken
once there are enough of them (`probeAll_covers`).
-/

set_option autoImplicit false

namespace TracingConsole.Library

/-! ## One probe -/

/-- INTERNAL: the first slot from `slot` on that is not taken, or the one where the probes end. -/
def probe (size : ℕ) (taken : Finset ℕ) : ℕ → ℕ → ℕ
  | 0, slot => slot
  | probes + 1, slot =>
    if slot ∈ taken then probe size taken probes ((slot + 1) % size) else slot

/-- INTERNAL: a probed slot is one of the table. -/
theorem probe_lt (size : ℕ) (taken : Finset ℕ) (probes slot : ℕ) (hslot : slot < size) :
    probe size taken probes slot < size := by
  induction probes generalizing slot with
  | zero => exact hslot
  | succ probes ih =>
    unfold probe
    split
    · exact ih _ (Nat.mod_lt _ (by omega))
    · exact hslot

/-- INTERNAL: **a probe that ends at a taken slot** has seen taken slots only. -/
theorem probe_taken (size : ℕ) (taken : Finset ℕ) (probes slot : ℕ) (hslot : slot < size)
    (h : probe size taken probes slot ∈ taken) :
    ∀ i < probes, (slot + i) % size ∈ taken := by
  induction probes generalizing slot with
  | zero =>
    intro i hi
    omega
  | succ probes ih =>
    unfold probe at h
    split at h
    · next hin =>
      intro i hi
      cases i with
      | zero =>
        rw [Nat.add_zero, Nat.mod_eq_of_lt hslot]
        exact hin
      | succ i =>
        have hnext := ih ((slot + 1) % size) (Nat.mod_lt _ (by omega)) h i (by omega)
        rw [Nat.mod_add_mod, Nat.add_assoc, Nat.add_comm 1 i] at hnext
        exact hnext
    · next hout => exact absurd h hout

/-- INTERNAL: every slot is some steps after any other. -/
theorem exists_steps (size slot s : ℕ) (hslot : slot < size) (hs : s < size) :
    ∃ i < size, (slot + i) % size = s := by
  by_cases hle : slot ≤ s
  · exact ⟨s - slot, by omega, by rw [Nat.add_sub_of_le hle, Nat.mod_eq_of_lt hs]⟩
  · refine ⟨s + size - slot, by omega, ?_⟩
    have hround : slot + (s + size - slot) = s + size := by omega
    rw [hround, Nat.add_mod_right, Nat.mod_eq_of_lt hs]

/-- INTERNAL: **a probe round the table finds a free slot** if there is one. -/
theorem probe_free (size : ℕ) (taken : Finset ℕ) (slot : ℕ) (hslot : slot < size)
    (hfree : ∃ s < size, s ∉ taken) : probe size taken size slot ∉ taken := by
  intro hin
  obtain ⟨s, hs, hout⟩ := hfree
  obtain ⟨i, hi, hsame⟩ := exists_steps size slot s hslot hs
  have hseen := probe_taken size taken size slot hslot hin i hi
  rw [hsame] at hseen
  exact hout hseen

/-- INTERNAL: fewer taken slots than there are leave one free. -/
theorem exists_free (size : ℕ) (taken : Finset ℕ) (h : taken.card < size) :
    ∃ s < size, s ∉ taken := by
  have hcard : taken.card < (Finset.range size).card := by rw [Finset.card_range]; exact h
  obtain ⟨s, hs, hout⟩ := Finset.exists_mem_notMem_of_card_lt_card hcard
  exact ⟨s, Finset.mem_range.mp hs, hout⟩

/-! ## One key after the other -/

variable {K : Type*} (size : ℕ) (prefer : K → ℕ)

/-- INTERNAL: the slots that the keys take, in their order. -/
def probeAll : Finset ℕ → List K → List ℕ
  | _, [] => []
  | taken, key :: keys =>
    let slot := probe size taken size (prefer key % size)
    slot :: probeAll (insert slot taken) keys

/-- INTERNAL: every key gets a slot. -/
theorem length_probeAll (taken : Finset ℕ) (keys : List K) :
    (probeAll size prefer taken keys).length = keys.length := by
  induction keys generalizing taken with
  | nil => rfl
  | cons key keys ih =>
    unfold probeAll
    rw [List.length_cons, List.length_cons, ih]

/-- INTERNAL: every key gets a slot of the table. -/
theorem probeAll_lt (hsize : 0 < size) (taken : Finset ℕ) (keys : List K) :
    ∀ slot ∈ probeAll size prefer taken keys, slot < size := by
  induction keys generalizing taken with
  | nil =>
    intro slot hslot
    cases hslot
  | cons key keys ih =>
    intro slot hslot
    unfold probeAll at hslot
    rcases List.mem_cons.mp hslot with rfl | hrest
    · exact probe_lt _ _ _ _ (Nat.mod_lt _ hsize)
    · exact ih _ slot hrest

/-- INTERNAL: **slots are distinct while there are enough**, and none was taken before. -/
theorem probeAll_nodup (taken : Finset ℕ) (keys : List K) (h : taken.card + keys.length ≤ size) :
    (probeAll size prefer taken keys).Nodup ∧
      ∀ slot ∈ probeAll size prefer taken keys, slot ∉ taken := by
  induction keys generalizing taken with
  | nil =>
    refine ⟨List.nodup_nil, fun slot hslot => ?_⟩
    cases hslot
  | cons key keys ih =>
    rw [List.length_cons] at h
    have hslot : prefer key % size < size := Nat.mod_lt _ (by omega)
    have hfree := probe_free size taken _ hslot (exists_free size taken (by omega))
    have hcard := Finset.card_insert_of_notMem hfree
    obtain ⟨hnodup, hnew⟩ := ih (insert (probe size taken size (prefer key % size)) taken)
      (by omega)
    unfold probeAll
    refine ⟨List.nodup_cons.mpr ⟨fun hin => hnew _ hin (Finset.mem_insert_self _ _), hnodup⟩, ?_⟩
    intro slot hin
    rcases List.mem_cons.mp hin with rfl | hrest
    · exact hfree
    · exact fun htaken => hnew slot hrest (Finset.mem_insert_of_mem htaken)

/-- INTERNAL: **every slot is taken once there are as many keys**. -/
theorem probeAll_covers (taken : Finset ℕ) (keys : List K) (hwithin : ∀ s ∈ taken, s < size)
    (h : size ≤ taken.card + keys.length) :
    ∀ s < size, s ∈ taken ∨ s ∈ probeAll size prefer taken keys := by
  induction keys generalizing taken with
  | nil =>
    intro s hs
    have hsub : taken ⊆ Finset.range size := fun t ht => Finset.mem_range.mpr (hwithin t ht)
    have hall : taken = Finset.range size := by
      apply Finset.eq_of_subset_of_card_le hsub
      rwa [Finset.card_range]
    rw [hall]
    exact Or.inl (Finset.mem_range.mpr hs)
  | cons key keys ih =>
    intro s hs
    have hslot : prefer key % size < size := Nat.mod_lt _ (by omega)
    by_cases hout : s ∈ taken
    · exact Or.inl hout
    · have hfree := probe_free size taken _ hslot ⟨s, hs, hout⟩
      have hlt := probe_lt size taken size _ hslot
      rw [List.length_cons] at h
      have hnext := ih (insert (probe size taken size (prefer key % size)) taken) ?_ ?_ s hs
      · unfold probeAll
        rcases hnext with hin | hlater
        · rcases Finset.mem_insert.mp hin with rfl | hold
          · exact Or.inr List.mem_cons_self
          · exact Or.inl hold
        · exact Or.inr (List.mem_cons_of_mem _ hlater)
      · intro t ht
        rcases Finset.mem_insert.mp ht with rfl | hold
        · exact hlt
        · exact hwithin t hold
      · rw [Finset.card_insert_of_notMem hfree]
        omega

/-! ## Keys and their slots -/

/-- INTERNAL: the keys of an empty table with the slots they take. -/
def probedSlots (keys : List K) : List (K × ℕ) := keys.zip (probeAll size prefer ∅ keys)

/-- INTERNAL: the keys with their slots are the keys. -/
theorem map_fst_probedSlots (keys : List K) : (probedSlots size prefer keys).map Prod.fst = keys :=
  List.map_fst_zip (length_probeAll size prefer ∅ keys).ge

/-- INTERNAL: the slots with their keys are the slots. -/
theorem map_snd_probedSlots (keys : List K) :
    (probedSlots size prefer keys).map Prod.snd = probeAll size prefer ∅ keys :=
  List.map_snd_zip (length_probeAll size prefer ∅ keys).le

/-- INTERNAL: a key has a slot. -/
theorem exists_probedSlots (keys : List K) (key : K) (hkey : key ∈ keys) :
    ∃ slot, (key, slot) ∈ probedSlots size prefer keys := by
  rw [← map_fst_probedSlots size prefer keys] at hkey
  obtain ⟨kv, hkv, rfl⟩ := List.mem_map.mp hkey
  exact ⟨kv.2, hkv⟩

/-- INTERNAL: and it is one of the table. -/
theorem probedSlots_lt (hsize : 0 < size) (keys : List K) (key : K) (slot : ℕ)
    (h : (key, slot) ∈ probedSlots size prefer keys) : slot < size :=
  probeAll_lt size prefer hsize ∅ keys slot (List.of_mem_zip h).2

/-- INTERNAL: **no two keys share a slot** of a table that is large enough. -/
theorem probedSlots_injective (keys : List K) (henough : keys.length ≤ size) (a b : K) (slot : ℕ)
    (ha : (a, slot) ∈ probedSlots size prefer keys)
    (hb : (b, slot) ∈ probedSlots size prefer keys) : a = b := by
  have hnodup : ((probedSlots size prefer keys).map Prod.snd).Nodup := by
    rw [map_snd_probedSlots]
    exact (probeAll_nodup size prefer ∅ keys (by rw [Finset.card_empty]; omega)).1
  exact congrArg Prod.fst (List.inj_on_of_nodup_map hnodup ha hb rfl)

/-- INTERNAL: **enough keys leave no slot free**. -/
theorem probedSlots_covers (keys : List K) (hmany : size ≤ keys.length) (slot : ℕ)
    (hslot : slot < size) : ∃ key, (key, slot) ∈ probedSlots size prefer keys := by
  have hcovers := probeAll_covers size prefer ∅ keys (fun s hs => absurd hs (Finset.notMem_empty s))
    (by rw [Finset.card_empty]; omega) slot hslot
  have hin := hcovers.resolve_left (Finset.notMem_empty slot)
  rw [← map_snd_probedSlots size prefer keys] at hin
  obtain ⟨kv, hkv, rfl⟩ := List.mem_map.mp hin
  exact ⟨kv.1, hkv⟩

end TracingConsole.Library
