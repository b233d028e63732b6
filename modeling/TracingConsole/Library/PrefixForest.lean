import Mathlib

/-!
# Trees listed in dictionary order

A list of paths that holds the parent of each of its members is a forest, and sorted by the
dictionary order it is the forest walked depth first: what lies between a path and one of its
extensions extends it (`prefix_of_between`), so the extensions of one path are listed together
(`takeWhile_prefix_eq_filter`).  `ancestorScan` reads the depths of such a list
once, with a stack of the entries in scope, and gives each entry the nearest earlier one that is
shallower (`ancestorScan_nearest`).  In a forest that is the parent (`ancestorScan_parent`).

A path is disclosed when all above it are open; opening or closing below one path discloses or
hides what is below it alone (`disclosed_open_iff`, `disclosed_close_iff`).
-/

set_option autoImplicit false

namespace TracingConsole.Library

/-! ## The scan -/

/-- INTERNAL: for each depth the index of the entry on top of the stack, once the entries that
are not shallower have been popped; `i` is the index of the first depth. -/
def ancestorScan : ℕ → List (ℕ × ℕ) → List ℕ → List (Option ℕ)
  | _, _, [] => []
  | i, anc, d :: depths =>
    let anc := anc.dropWhile fun x => d ≤ x.1
    (anc.head?.map Prod.snd) :: ancestorScan (i + 1) ((d, i) :: anc) depths

/-- INTERNAL: every depth gets its ancestor. -/
theorem length_ancestorScan (i : ℕ) (anc : List (ℕ × ℕ)) (depths : List ℕ) :
    (ancestorScan i anc depths).length = depths.length := by
  induction depths generalizing i anc with
  | nil => rfl
  | cons d depths ih => simp [ancestorScan, ih]

/-- INTERNAL: an entry hangs from an earlier one. -/
theorem ancestorScan_lt (start : ℕ) (anc : List (ℕ × ℕ)) (depths : List ℕ)
    (hanc : ∀ x ∈ anc, x.2 < start) (i j : ℕ)
    (h : (ancestorScan start anc depths)[i]? = some (some j)) : j < start + i := by
  induction depths generalizing start anc i with
  | nil => simp [ancestorScan] at h
  | cons d depths ih =>
    have hkept : ∀ x ∈ anc.dropWhile fun x => decide (d ≤ x.1), x.2 < start := fun x hx =>
      hanc x ((List.dropWhile_sublist _).subset hx)
    cases i with
    | zero =>
      simp only [ancestorScan, List.getElem?_cons_zero, Option.some.injEq,
        Option.map_eq_some_iff] at h
      obtain ⟨x, hx, rfl⟩ := h
      exact hkept x (List.mem_of_mem_head? hx)
    | succ i =>
      simp only [ancestorScan, List.getElem?_cons_succ] at h
      have hlater := ih (start + 1) _ (fun x hx => ?_) i h
      · omega
      · rw [List.mem_cons] at hx
        cases hx with
        | inl hnew =>
          rw [hnew]
          exact Nat.lt_succ_self start
        | inr hold => exact Nat.lt_succ_of_lt (hkept x hold)

/-- INTERNAL: the stack after the depths `seen`: the entries no later one is as shallow as,
the latest first. -/
structure InScope (seen : List ℕ) (anc : List (ℕ × ℕ)) : Prop where
  mem_iff : ∀ d j, (d, j) ∈ anc ↔ seen[j]? = some d ∧ ∀ k e, j < k → seen[k]? = some e → d < e
  latest_first : anc.Pairwise fun x y => y.2 < x.2

/-- INTERNAL: nothing is in scope at first. -/
theorem inScope_nil : InScope [] [] :=
  ⟨fun d j => by simp, List.Pairwise.nil⟩

/-- INTERNAL: further down the stack is shallower. -/
theorem InScope.deepest_first {seen : List ℕ} {anc : List (ℕ × ℕ)} (h : InScope seen anc) :
    anc.Pairwise fun x y => y.1 < x.1 := by
  apply h.latest_first.imp_of_mem
  rintro ⟨d, j⟩ ⟨e, k⟩ hx hy hkj
  exact ((h.mem_iff e k).mp hy).2 j d hkj ((h.mem_iff d j).mp hx).1

/-- INTERNAL: popping leaves the shallower entries. -/
theorem mem_dropWhile_iff (d : ℕ) (anc : List (ℕ × ℕ)) (h : anc.Pairwise fun x y => y.1 < x.1)
    (x : ℕ × ℕ) : x ∈ (anc.dropWhile fun x => d ≤ x.1) ↔ x ∈ anc ∧ x.1 < d := by
  induction anc with
  | nil => simp
  | cons y anc ih =>
    obtain ⟨hy, hrest⟩ := List.pairwise_cons.mp h
    by_cases hpop : d ≤ y.1
    · rw [List.dropWhile_cons_of_pos (by simpa using hpop), ih hrest, List.mem_cons]
      constructor
      · exact fun hx => ⟨Or.inr hx.1, hx.2⟩
      · rintro ⟨rfl | hx, hlt⟩
        · omega
        · exact ⟨hx, hlt⟩
    · rw [List.dropWhile_cons_of_neg (by simpa using hpop)]
      constructor
      · intro hx
        refine ⟨hx, ?_⟩
        rcases List.mem_cons.mp hx with rfl | hin
        · omega
        · have := hy x hin
          omega
      · exact fun hx => hx.1

/-- INTERNAL: the stack after one more depth. -/
theorem InScope.push {seen : List ℕ} {anc : List (ℕ × ℕ)} (h : InScope seen anc) (d : ℕ) :
    InScope (seen ++ [d]) ((d, seen.length) :: anc.dropWhile fun x => d ≤ x.1) := by
  have hleft := mem_dropWhile_iff d anc h.deepest_first
  have hread : ∀ k e, (seen ++ [d])[k]? = some e ↔
      seen[k]? = some e ∨ k = seen.length ∧ e = d := by
    intro k e
    rcases lt_trichotomy k seen.length with hlt | rfl | hgt
    · rw [List.getElem?_append_left hlt]
      constructor
      · exact Or.inl
      · rintro (he | ⟨hk, -⟩)
        · exact he
        · omega
    · simp [eq_comm]
    · rw [List.getElem?_eq_none (by simp; omega), List.getElem?_eq_none (by omega)]
      simp
      omega
  have hbound : ∀ k e, seen[k]? = some e → k < seen.length := by
    intro k e he
    exact (List.getElem?_eq_some_iff.mp he).1
  refine ⟨fun e j => ?_, ?_⟩
  · rw [List.mem_cons, hleft, h.mem_iff, hread]
    constructor
    · rintro (heq | ⟨⟨hj, hlater⟩, hlt⟩)
      · obtain ⟨rfl, rfl⟩ := Prod.mk.inj heq
        refine ⟨Or.inr ⟨rfl, rfl⟩, fun k e' hk he' => ?_⟩
        rcases (hread k e').mp he' with hold | ⟨rfl, -⟩
        · have := hbound k e' hold
          omega
        · omega
      · refine ⟨Or.inl hj, fun k e' hk he' => ?_⟩
        rcases (hread k e').mp he' with hold | ⟨-, rfl⟩
        · exact hlater k e' hk hold
        · exact hlt
    · rintro ⟨hj | ⟨rfl, rfl⟩, hlater⟩
      · refine Or.inr ⟨⟨hj, fun k e' hk he' => hlater k e' hk ((hread k e').mpr (Or.inl he'))⟩, ?_⟩
        exact hlater seen.length d (hbound j e hj) ((hread _ _).mpr (Or.inr ⟨rfl, rfl⟩))
      · exact Or.inl rfl
  · rw [List.pairwise_cons]
    refine ⟨?_, h.latest_first.sublist (List.dropWhile_sublist _)⟩
    rintro ⟨e, j⟩ hx
    exact hbound j e ((h.mem_iff e j).mp ((hleft (e, j)).mp hx).1).1

/-- INTERNAL: the top of the popped stack is the nearest shallower entry. -/
theorem InScope.top {seen : List ℕ} {anc : List (ℕ × ℕ)} (h : InScope seen anc) (d e j : ℕ)
    (hj : seen[j]? = some e) (hlt : e < d)
    (hbetween : ∀ k e', j < k → seen[k]? = some e' → d ≤ e') :
    (anc.dropWhile fun x => d ≤ x.1).head? = some (e, j) := by
  have hmem : (e, j) ∈ anc :=
    (h.mem_iff e j).mpr ⟨hj, fun k e' hk he' => hlt.trans_le (hbetween k e' hk he')⟩
  obtain ⟨above, below, hsplit⟩ := List.append_of_mem hmem
  have habove : ∀ x ∈ above, d ≤ x.1 := by
    rintro ⟨e', k⟩ hx
    have hlater := h.latest_first
    rw [hsplit] at hlater
    have hk := (List.pairwise_append.mp hlater).2.2 (e', k) hx (e, j) (by simp)
    have hin : (e', k) ∈ anc := by
      rw [hsplit]
      exact List.mem_append_left _ hx
    exact hbetween k e' hk ((h.mem_iff e' k).mp hin).1
  rw [hsplit, List.dropWhile_append_of_pos (by simpa using habove),
    List.dropWhile_cons_of_neg (by simpa using hlt)]
  rfl

/-- INTERNAL: **the scan gives each entry the nearest earlier one that is shallower**. -/
theorem ancestorScan_nearest (depths : List ℕ) (i j d e : ℕ) (hi : depths[i]? = some d)
    (hj : depths[j]? = some e) (hji : j < i) (hlt : e < d)
    (hbetween : ∀ k e', j < k → k < i → depths[k]? = some e' → d ≤ e') :
    (ancestorScan 0 [] depths)[i]? = some (some j) := by
  have hscan : ∀ (seen rest : List ℕ) (anc : List (ℕ × ℕ)) (n : ℕ), InScope seen anc →
      seen ++ rest = depths → seen.length + n = i →
        (ancestorScan seen.length anc rest)[n]? = some (some j) := by
    intro seen rest
    induction rest generalizing seen with
    | nil =>
      intro anc n _ hsplit hn
      rw [List.append_nil] at hsplit
      subst hsplit
      have := (List.getElem?_eq_some_iff.mp hi).1
      omega
    | cons d' rest ih =>
      intro anc n hscope hsplit hn
      unfold ancestorScan
      cases n with
      | zero =>
        -- the entry itself
        have hlen : seen.length = i := by omega
        have hd : d' = d := by
          rw [← hsplit, ← hlen, List.getElem?_append_right (Nat.le_refl _), Nat.sub_self] at hi
          exact Option.some.inj hi
        have hseen : ∀ k, k < i → seen[k]? = depths[k]? := by
          intro k hk
          rw [← hsplit, List.getElem?_append_left (by omega)]
        rw [hd]
        have htop := hscope.top d e j (by rw [hseen j hji]; exact hj) hlt fun k e' hk he' => by
          have hki : k < i := by
            have := (List.getElem?_eq_some_iff.mp he').1
            omega
          exact hbetween k e' hk hki (by rw [← hseen k hki]; exact he')
        simp only [htop, List.getElem?_cons_zero, Option.map_some]
      | succ n =>
        have hnext := ih (seen ++ [d']) _ n (hscope.push d')
          (by rw [List.append_assoc]; exact hsplit)
          (by rw [List.length_append, List.length_singleton]; omega)
        rw [List.length_append, List.length_singleton] at hnext
        simpa using hnext
  exact hscan [] depths [] i inScope_nil rfl (Nat.zero_add i)

/-! ## Dictionary order -/

section Order

variable {α : Type} [Ord α] [Std.TransOrd α] [Std.LawfulEqOrd α]

/-- INTERNAL: **what lies between a path and an extension of it extends it**. -/
theorem prefix_of_between (p t s : List α) (hps : p <+: s) (hpt : (compare p t).isLE = true)
    (hts : (compare t s).isLE = true) : p <+: t := by
  induction p generalizing t s with
  | nil => exact List.nil_prefix
  | cons a p ih =>
    obtain ⟨rest, rfl⟩ := hps
    cases t with
    | nil => cases hpt
    | cons b t =>
      rw [List.compare_cons_cons, Ordering.isLE_then_iff_and] at hpt
      rw [List.cons_append, List.compare_cons_cons, Ordering.isLE_then_iff_and] at hts
      have hab : a = b :=
        Std.LawfulEqCmp.eq_of_compare (Std.OrientedCmp.isLE_antisymm hpt.1 hts.1)
      subst hab
      have heq : compare a a = .eq := Std.ReflCmp.compare_self
      rw [heq] at hpt hts
      have hrest := ih t (p ++ rest) (List.prefix_append p rest) (by simpa using hpt.2)
        (by simpa using hts.2)
      exact List.cons_prefix_cons.mpr ⟨rfl, hrest⟩

omit [Std.TransOrd α] in
/-- INTERNAL: a path comes before its extensions. -/
theorem compare_prefix (p s : List α) (h : p <+: s) : (compare p s).isLE = true := by
  obtain ⟨rest, rfl⟩ := h
  induction p with
  | nil => cases rest <;> rfl
  | cons a p ih =>
    rw [List.cons_append, List.compare_cons_cons, Ordering.isLE_then_iff_and]
    exact ⟨Std.ReflCmp.isLE_rfl, Or.inr ih⟩

/-- INTERNAL: **the extensions of a prefix are listed together**: after an entry that extends it
they end with the first one that does not. -/
theorem takeWhile_prefix_eq_filter {β : Type} [BEq α] [LawfulBEq α] (path : β → List α)
    (p : List α) (x : β) (later : List β) (hp : p <+: path x)
    (hsorted : (x :: later).Pairwise fun x y => (compare (path x) (path y)).isLE = true) :
    (later.takeWhile fun y => p.isPrefixOf (path y)) =
      later.filter fun y => p.isPrefixOf (path y) := by
  induction later generalizing x with
  | nil => rfl
  | cons y later ih =>
    obtain ⟨hx, hrest⟩ := List.pairwise_cons.mp hsorted
    by_cases hy : p.isPrefixOf (path y) = true
    · rw [List.takeWhile_cons, List.filter_cons, if_pos hy, if_pos hy,
        ih y (List.isPrefixOf_iff_prefix.mp hy) hrest]
    · have hpx := compare_prefix p (path x) hp
      have hpy : (compare p (path y)).isLE = true :=
        Std.TransCmp.isLE_trans hpx (hx y List.mem_cons_self)
      have hnone : ∀ z ∈ later, ¬ p.isPrefixOf (path z) = true := by
        intro z hz hpz
        have hyz := (List.pairwise_cons.mp hrest).1 z hz
        apply hy
        rw [List.isPrefixOf_iff_prefix] at hpz ⊢
        exact prefix_of_between p (path y) (path z) hpz hpy hyz
      rw [List.takeWhile_cons, List.filter_cons, if_neg hy, if_neg hy]
      exact (List.filter_eq_nil_iff.mpr hnone).symm

/-- INTERNAL: **in a listing of a forest the scan finds the parents**: the depth of a path is
its length less one, and the nearest shallower entry is the path without its last name. -/
theorem ancestorScan_parent (paths : List (List α))
    (hsorted : paths.Pairwise fun p q => (compare p q).isLE = true)
    (hparent : ∀ s ∈ paths, 1 < s.length → s.dropLast ∈ paths) (i : ℕ) (s : List α)
    (hi : paths[i]? = some s) (hdeep : 1 < s.length) :
    ∃ j, (ancestorScan 0 [] (paths.map fun p => p.length - 1))[i]? = some (some j) ∧
      paths[j]? = some s.dropLast := by
  classical
  have hdrop : s.dropLast.length = s.length - 1 := List.length_dropLast
  have hbefore : ∀ (k l : ℕ) p q, k < l → paths[k]? = some p → paths[l]? = some q →
      (compare p q).isLE = true := by
    intro k l p q hkl hp hq
    obtain ⟨hk, rfl⟩ := List.getElem?_eq_some_iff.mp hp
    obtain ⟨hl, rfl⟩ := List.getElem?_eq_some_iff.mp hq
    exact List.pairwise_iff_getElem.mp hsorted k l hk hl hkl
  -- the parent is listed, and ahead of its child
  obtain ⟨k, hk⟩ := List.getElem?_of_mem (hparent s (List.mem_of_getElem? hi) hdeep)
  have hki : k ≤ i := by
    by_contra hgt
    have hle := hbefore i k s s.dropLast (by omega) hi hk
    have hge := compare_prefix s.dropLast s (List.dropLast_prefix s)
    have heq : s = s.dropLast :=
      Std.LawfulEqCmp.eq_of_compare (Std.OrientedCmp.isLE_antisymm hle hge)
    rw [← heq] at hdrop
    omega
  -- of its listings the last one is the nearest
  obtain ⟨j, hparentAt, hjle, hlast⟩ : ∃ j, paths[j]? = some s.dropLast ∧ j ≤ i ∧
      ∀ k, j < k → k ≤ i → paths[k]? ≠ some s.dropLast :=
    ⟨Nat.findGreatest (fun k => paths[k]? = some s.dropLast) i,
      Nat.findGreatest_spec (P := fun k => paths[k]? = some s.dropLast) hki hk,
      Nat.findGreatest_le i, fun k hjk hkle => Nat.findGreatest_is_greatest hjk hkle⟩
  have hji : j < i := by
    apply lt_of_le_of_ne hjle
    rintro rfl
    rw [hi] at hparentAt
    have := congrArg List.length (Option.some.inj hparentAt)
    omega
  refine ⟨j, ?_, hparentAt⟩
  have hread : ∀ (k : ℕ) p, paths[k]? = some p →
      (paths.map fun p => p.length - 1)[k]? = some (p.length - 1) := by
    intro k p hp
    rw [List.getElem?_map, hp]
    rfl
  apply ancestorScan_nearest _ i j (s.length - 1) (s.dropLast.length - 1) (hread i s hi)
    (hread j _ hparentAt) hji
  · omega
  · intro k e hjk hki he
    rw [List.getElem?_map] at he
    obtain ⟨t, ht, rfl⟩ := Option.map_eq_some_iff.mp he
    have hbetween := prefix_of_between s.dropLast t s (List.dropLast_prefix s)
      (hbefore j k _ t hjk hparentAt ht) (hbefore k i t s hki ht hi)
    have hne : t ≠ s.dropLast := by
      rintro rfl
      exact hlast k hjk (by omega) ht
    have hlen : s.dropLast.length < t.length := by
      apply lt_of_le_of_ne hbetween.length_le
      exact fun hlen => hne (hbetween.eq_of_length hlen).symm
    omega

end Order

/-! ## Open paths -/

section Open

variable {α : Type}

/-- INTERNAL: every proper prefix of the path is open. -/
def Disclosed (opened : List α → Prop) (s : List α) : Prop :=
  ∀ k, 0 < k → k < s.length → opened (s.take k)

/-- INTERNAL: a longer path that extends `p`. -/
def StrictlyBelow (p s : List α) : Prop := p <+: s ∧ p.length < s.length

/-- INTERNAL: decidable. -/
instance [DecidableEq α] (p s : List α) : Decidable (StrictlyBelow p s) :=
  inferInstanceAs (Decidable (_ ∧ _))

/-- INTERNAL: **opening below a path** discloses what is below it and nothing else. -/
theorem disclosed_open_iff (opened opened' : List α → Prop) (p s : List α)
    (hp : Disclosed opened p) (hkeeps : ∀ q, opened q → opened' q)
    (hfresh : ∀ q, opened' q → opened q ∨ p <+: q)
    (hbelow : StrictlyBelow p s → ∀ k, p.length ≤ k → k < s.length → opened' (s.take k)) :
    Disclosed opened' s ↔ Disclosed opened s ∨ StrictlyBelow p s := by
  constructor
  · intro hafter
    by_cases hunder : StrictlyBelow p s
    · exact Or.inr hunder
    · refine Or.inl fun k hpos hk => ?_
      rcases hfresh (s.take k) (hafter k hpos hk) with hold | hextends
      · exact hold
      · have hlen := hextends.length_le
        rw [List.length_take] at hlen
        exact absurd ⟨hextends.trans (List.take_prefix k s), by omega⟩ hunder
  · intro hcases k hpos hk
    rcases hcases with hold | hunder
    · exact hkeeps _ (hold k hpos hk)
    · by_cases hshort : k < p.length
      · have hsame : s.take k = p.take k := by
          obtain ⟨rest, hrest⟩ := hunder.1
          rw [← hrest, List.take_append_of_le_length (by omega)]
        rw [hsame]
        exact hkeeps _ (hp k hpos hshort)
      · exact hbelow hunder k (by omega) hk

/-- INTERNAL: **closing a path** and all below it hides what is below it and nothing else. -/
theorem disclosed_close_iff (opened opened' : List α → Prop) (p s : List α) (hne : p ≠ [])
    (hclose : ∀ q, opened' q ↔ opened q ∧ ¬ p <+: q) :
    Disclosed opened' s ↔ Disclosed opened s ∧ ¬ StrictlyBelow p s := by
  constructor
  · intro hafter
    refine ⟨fun k hpos hk => ((hclose _).mp (hafter k hpos hk)).1, fun hunder => ?_⟩
    have hclosed := hafter p.length (List.length_pos_of_ne_nil hne) hunder.2
    have hsame : s.take p.length = p := (List.prefix_iff_eq_take.mp hunder.1).symm
    rw [hsame, hclose] at hclosed
    exact hclosed.2 (List.prefix_refl p)
  · intro hboth k hpos hk
    refine (hclose _).mpr ⟨hboth.1 k hpos hk, fun hextends => hboth.2 ?_⟩
    have hlen := hextends.length_le
    rw [List.length_take] at hlen
    exact ⟨hextends.trans (List.take_prefix k s), by omega⟩

end Open

end TracingConsole.Library
