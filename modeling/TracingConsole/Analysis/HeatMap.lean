import TracingConsole.Analysis.StackTable
import TracingConsole.Model.Heat

/-!
# No row reads as hotter than its ancestors

The colours of the stacks table in every state of a run.  A cell is coloured by the least of the
intensities of its row and of the rows it hangs from, so a path of the tree never gets hotter on
the way down.

The quotient of two doubles is a parameter; all that is asked of it is that it is a number unless
the divisor is zero.
-/

set_option autoImplicit false

namespace TracingConsole.Analysis.Console

open TracingConsole.Library
open TracingConsole.Model TracingConsole.Model.ConsoleModel

/-! ## Intensities and colours -/

/-- INTERNAL: below what is below. -/
theorem lt_of_order_le (x y l : F64) (hx : x.isNan = false) (h : x.order ≤ y.order)
    (hy : y.lt l = true) : x.lt l = true := by
  simp only [F64.lt, Bool.and_eq_true, Bool.not_eq_true', decide_eq_true_eq] at hy ⊢
  exact ⟨⟨hx, hy.1.2⟩, by omega⟩

/-- INTERNAL: how hot a colour is. -/
def heatRank : Option HeatColor → ℕ
  | none => 0
  | some .cyan => 1
  | some .green => 2
  | some .yellow => 3
  | some .orange => 4
  | some .red => 5

/-- INTERNAL: the less intense is not the hotter. -/
theorem heatRank_mono (x y : F64) (hx : x.isNan = false) (h : x.order ≤ y.order) :
    heatRank (heat x) ≤ heatRank (heat y) := by
  have hbelow (l : F64) : y.lt l = true → x.lt l = true := lt_of_order_le x y l hx h
  have h₁ := hbelow ⟨0x3FD999999999999A#64⟩
  have h₂ := hbelow ⟨0x3FE3333333333333#64⟩
  have h₃ := hbelow ⟨0x3FE8F5C28F5C28F6#64⟩
  have h₄ := hbelow ⟨0x3FECCCCCCCCCCCCD#64⟩
  have h₅ := hbelow ⟨0x3FEFAE147AE147AE#64⟩
  unfold heat
  grind [heatRank]

/-- INTERNAL: the least of two numbers is one of them. -/
theorem min_cases (x y : F64) (hx : x.isNan = false) (hy : y.isNan = false) :
    (x.min y = x ∧ x.order ≤ y.order) ∨ (x.min y = y ∧ y.order ≤ x.order) := by
  have hmin : x.min y = if y.order < x.order then y else x := by
    simp [F64.min, F64.lt, hx, hy]
  rw [hmin]
  split
  · exact Or.inr ⟨rfl, by omega⟩
  · exact Or.inl ⟨rfl, by omega⟩

/-! ## The rows above a row -/

section Division

variable (divide : ℕ → ℕ → F64)

/-- INTERNAL: a row hangs from another. -/
def HangsFrom (rows : List VisibleRow) (i p : ℕ) : Prop :=
  (parentIndices rows)[i]? = some (some p)

/-- INTERNAL: a row hangs from one above it. -/
theorem HangsFrom.lt (rows : List VisibleRow) (i p : ℕ) (h : HangsFrom rows i p) : p < i := by
  have hlt := ancestorScan_lt 0 [] _ (fun x hx => by cases hx) i p h
  omega

/-- INTERNAL: what the rows read so far come to. -/
theorem effective_prefix (rows : List VisibleRow) (done : List (Fin 7 → F64))
    (todo : List (VisibleRow × Option ℕ)) :
    done <+: todo.foldl (fun effective x => effective ++ [cappedRow divide rows effective x])
      done := by
  induction todo generalizing done with
  | nil => exact List.prefix_rfl
  | cons x todo ih => exact (List.prefix_append done _).trans (ih _)

/-- INTERNAL: each row is capped by what is known when it is read. -/
theorem effective_getElem (rows : List VisibleRow) (done : List (Fin 7 → F64))
    (todo : List (VisibleRow × Option ℕ)) (i : ℕ) (x : VisibleRow × Option ℕ)
    (hx : todo[i]? = some x) :
    ∃ known, known.length = done.length + i ∧
      known <+: todo.foldl (fun effective x => effective ++ [cappedRow divide rows effective x])
        done ∧
      (todo.foldl (fun effective x => effective ++ [cappedRow divide rows effective x])
        done)[done.length + i]? = some (cappedRow divide rows known x) := by
  induction todo generalizing done i with
  | nil => cases hx
  | cons y todo ih =>
    cases i with
    | zero =>
      rw [List.getElem?_cons_zero, Option.some.injEq] at hx
      subst hx
      refine ⟨done, by simp, effective_prefix divide rows done (y :: todo), ?_⟩
      have hmore := effective_prefix divide rows (done ++ [cappedRow divide rows done y]) todo
      rw [List.foldl_cons, Nat.add_zero]
      rw [List.prefix_iff_getElem?.mp hmore done.length (by simp)]
      simp
    | succ i =>
      rw [List.getElem?_cons_succ] at hx
      obtain ⟨known, hlen, hpre, hget⟩ := ih (done ++ [cappedRow divide rows done y]) i hx
      rw [List.length_append, List.length_singleton] at hlen hget
      refine ⟨known, by omega, hpre, ?_⟩
      rw [List.foldl_cons, show done.length + (i + 1) = done.length + 1 + i by omega]
      exact hget

/-- INTERNAL: the intensities of a row: its own, capped by those of the row it hangs from. -/
theorem effectiveRows_getElem (rows : List VisibleRow) (i : ℕ) (r : VisibleRow)
    (hi : rows[i]? = some r) :
    ∃ e, (effectiveRows divide rows)[i]? = some e ∧
      ((∀ p, ¬ HangsFrom rows i p) → e = selfIntensity divide rows r) ∧
      ∀ p, HangsFrom rows i p → ∃ e', (effectiveRows divide rows)[p]? = some e' ∧
        ∀ c, e c = (selfIntensity divide rows r c).min (e' c) := by
  have hlt : i < (parentIndices rows).length := by
    rw [parentIndices, length_ancestorScan, List.length_map]
    exact (List.getElem?_eq_some_iff.mp hi).1
  have hparent := List.getElem?_eq_getElem hlt
  generalize (parentIndices rows)[i] = parent at hparent
  have hzip : (rows.zip (parentIndices rows))[i]? = some (r, parent) :=
    List.getElem?_zip_eq_some.mpr ⟨hi, hparent⟩
  obtain ⟨known, hlen, hpre, hget⟩ := effective_getElem divide rows [] _ i _ hzip
  rw [List.length_nil, Nat.zero_add] at hlen hget
  refine ⟨_, hget, fun hnone => ?_, fun p hp => ?_⟩
  · cases parent with
    | none => rfl
    | some p => exact absurd hparent (hnone p)
  · rw [HangsFrom, hparent, Option.some.injEq] at hp
    subst hp
    have hp : p < known.length := hlen ▸ HangsFrom.lt rows i p hparent
    refine ⟨known[p], List.prefix_iff_getElem?.mp hpre p hp, fun c => ?_⟩
    simp only [cappedRow, List.getElem?_eq_getElem hp, Option.getD_some]

variable (hdivide : ∀ a b, b ≠ 0 → (divide a b).isNan = false)

include hdivide in

/-- INTERNAL: an intensity is a number. -/
theorem selfIntensity_number (rows : List VisibleRow) (r : VisibleRow) (c : Fin 7) :
    (selfIntensity divide rows r c).isNan = false := by
  unfold selfIntensity
  split
  · decide
  · next hmax => exact hdivide _ _ hmax

/-- INTERNAL: the least of the intensities on the way up from a row. -/
structure LeastUp (rows : List VisibleRow) (c : Fin 7) (i : ℕ) (e : F64) : Prop where
  number : e.isNan = false
  reached : ∃ j r, Relation.ReflTransGen (HangsFrom rows) i j ∧ rows[j]? = some r ∧
    e = selfIntensity divide rows r c
  least : ∀ j r, Relation.ReflTransGen (HangsFrom rows) i j → rows[j]? = some r →
    e.order ≤ (selfIntensity divide rows r c).order

/-- INTERNAL: what is above a row that hangs from `p`, beside the row, is above `p`. -/
theorem above_cases (rows : List VisibleRow) (i p j : ℕ) (hp : HangsFrom rows i p)
    (hup : Relation.ReflTransGen (HangsFrom rows) i j) :
    j = i ∨ Relation.ReflTransGen (HangsFrom rows) p j := by
  cases Relation.ReflTransGen.cases_head hup with
  | inl hsame => exact Or.inl hsame.symm
  | inr habove =>
    obtain ⟨q, hq, hrest⟩ := habove
    have hpq : p = q := Option.some.inj (Option.some.inj (hp.symm.trans hq))
    rw [hpq]
    exact Or.inr hrest

include hdivide in

/-- INTERNAL: a root is its own least. -/
theorem leastUp_root (rows : List VisibleRow) (c : Fin 7) (i : ℕ) (r : VisibleRow)
    (hi : rows[i]? = some r) (hroot : ∀ p, ¬ HangsFrom rows i p) :
    LeastUp divide rows c i (selfIntensity divide rows r c) where
  number := selfIntensity_number divide hdivide rows r c
  reached := ⟨i, r, .refl, hi, rfl⟩
  least j r' hup hj := by
    cases Relation.ReflTransGen.cases_head hup with
    | inl hsame =>
      subst hsame
      rw [hi] at hj
      cases hj
      exact le_refl _
    | inr habove =>
      obtain ⟨q, hq, -⟩ := habove
      exact absurd hq (hroot q)

include hdivide in
/-- INTERNAL: capping a row by the row it hangs from. -/
theorem LeastUp.below (rows : List VisibleRow) (c : Fin 7) (i p : ℕ) (r : VisibleRow) (e : F64)
    (hi : rows[i]? = some r) (hp : HangsFrom rows i p) (h : LeastUp divide rows c p e) :
    LeastUp divide rows c i ((selfIntensity divide rows r c).min e) := by
  have hown := selfIntensity_number divide hdivide rows r c
  obtain ⟨j, r', hup, hj, heq⟩ := h.reached
  have habove (k : ℕ) (s : VisibleRow) (hup : Relation.ReflTransGen (HangsFrom rows) i k)
      (hk : rows[k]? = some s) : s = r ∨ e.order ≤ (selfIntensity divide rows s c).order := by
    cases above_cases rows i p k hp hup with
    | inl hsame =>
      rw [hsame, hi] at hk
      exact Or.inl (Option.some.inj hk).symm
    | inr hup => exact Or.inr (h.least k s hup hk)
  cases min_cases (selfIntensity divide rows r c) e hown h.number with
  | inl hself =>
    rw [hself.1]
    refine ⟨hown, ⟨i, r, .refl, hi, rfl⟩, fun k s hup hk => ?_⟩
    cases habove k s hup hk with
    | inl hsame => rw [hsame]
    | inr hle => exact hself.2.trans hle
  | inr hparent =>
    rw [hparent.1]
    refine ⟨h.number, ⟨j, r', .head hp hup, hj, heq⟩, fun k s hup hk => ?_⟩
    cases habove k s hup hk with
    | inl hsame =>
      rw [hsame]
      exact hparent.2
    | inr hle => exact hle

include hdivide in
/-- INTERNAL: **a row has the least of the intensities on the way up to its root**. -/
theorem effective_leastUp (rows : List VisibleRow) (i : ℕ) (r : VisibleRow)
    (hi : rows[i]? = some r) :
    ∃ e, (effectiveRows divide rows)[i]? = some e ∧ ∀ c, LeastUp divide rows c i (e c) := by
  -- a row hangs from an earlier one
  induction i using Nat.strong_induction_on generalizing r with
  | _ i ih =>
    obtain ⟨e, he, hroot, hbelow⟩ := effectiveRows_getElem divide rows i r hi
    by_cases hhangs : ∃ p, HangsFrom rows i p
    · obtain ⟨p, hp⟩ := hhangs
      obtain ⟨e', he', hcapped⟩ := hbelow p hp
      have hlt := HangsFrom.lt rows i p hp
      have hplt : p < rows.length := hlt.trans (List.getElem?_eq_some_iff.mp hi).1
      obtain ⟨e₁, he₁, hleast⟩ := ih p hlt rows[p] (List.getElem?_eq_getElem hplt)
      rw [he', Option.some.injEq] at he₁
      subst he₁
      refine ⟨e, he, fun c => ?_⟩
      rw [hcapped c]
      exact (hleast c).below divide hdivide rows c i p r (e' c) hi hp
    · have hnone : ∀ p, ¬ HangsFrom rows i p := fun p hp => hhangs ⟨p, hp⟩
      refine ⟨e, he, fun c => ?_⟩
      rw [hroot hnone]
      exact leastUp_root divide hdivide rows c i r hi hnone

/-- INTERNAL: the way up from a row goes on from every row on it. -/
theorem LeastUp.mono (rows : List VisibleRow) (c : Fin 7) (i j : ℕ) (e e' : F64)
    (hi : LeastUp divide rows c i e) (hj : LeastUp divide rows c j e')
    (hup : Relation.ReflTransGen (HangsFrom rows) i j) : e.order ≤ e'.order := by
  obtain ⟨k, r, hfurther, hk, heq⟩ := hj.reached
  rw [heq]
  exact hi.least k r (hup.trans hfurther) hk

end Division

/-! ## The table of a run -/

/-- INTERNAL: the table of a run whose evictions are harmless can be walked. -/
theorem treeReachable_of_run (budget : ℕ) (updates : List (ℕ × Update)) (m : ConsoleModel)
    (hids : ((receivedSpans updates).map WireSpan.id).Nodup)
    (hharmless : RunsUnder turn HarmlessUpdate (ConsoleModel.new budget) updates)
    (hrun : run turn (ConsoleModel.new budget) updates = some m) : TreeReachable m := by
  obtain ⟨ops, hops, hspans, hunder⟩ := aggregator_run HarmlessOp (fun _ _ => trivial) updates
    (ConsoleModel.new budget) m hrun hharmless
  have hdistinct := distinctIds_start (absorbedSpans ops) (hspans ▸ hids)
  have hstart : (Kept budget 0 (Aggregator.new budget) [] ∧
      Tallied False (Aggregator.new budget)) ∧ Linked (Aggregator.new budget) :=
    ⟨⟨kept_new budget, tallied_new False budget⟩, linked_new budget⟩
  have hkept := run_kept DistinctIds _ (linked_runInvariant budget) DistinctIds.mono
    (fun _ _ h => (Multiset.le_add_right _ _).trans h.1.1.bag) ops 0 (Aggregator.new budget)
    m.agg hdistinct hstart hops
  exact treeReachable_of_forest m hkept.1.2
    (stackForest_run budget ops 0 (Aggregator.new budget) m.agg hdistinct hstart
      (stackForest_new budget) hunder hops)

/-- INTERNAL: every prefix of the stack of a visible row is the stack of a row above it. -/
theorem prefix_above (m : ConsoleModel) (htree : TreeReachable m) (n : ℕ) (i : ℕ)
    (r : VisibleRow) (hi : m.visibleRows[i]? = some r) (hn : n < r.key.stack.length) :
    ∃ j r', Relation.ReflTransGen (HangsFrom m.visibleRows) i j ∧
      m.visibleRows[j]? = some r' ∧
        r'.key.stack = r.key.stack.take (r.key.stack.length - n) := by
  induction n generalizing i r with
  | zero => exact ⟨i, r, .refl, hi, by simp⟩
  | succ n ih =>
    have hdepth := (visibleFrom_eq m.expanded m.agg.rows).2 r (List.mem_of_getElem? hi)
    obtain ⟨p, r₁, hp, hr₁, hstack⟩ := htree.parents i r hi (by omega)
    have hlen : r₁.key.stack.length = r.key.stack.length - 1 := by
      rw [hstack, List.length_dropLast]
    obtain ⟨j, r', hup, hj, htake⟩ := ih p r₁ hr₁ (by omega)
    refine ⟨j, r', .head hp hup, hj, ?_⟩
    rw [htake, hlen, hstack, List.dropLast_eq_take, List.take_take]
    congr 1
    omega

/-- CODE: table.rs:36-117, core.rs:1205-1256 — **no row reads as hotter than its ancestors**: a
cell has the colour of the least intensity on the way up from its row; and in every state of a
run whose evictions are harmless, each prefix of the stack of a visible row is that of a visible
row which is at least as hot in every column. -/
theorem heat_capped_by_ancestors (divide : ℕ → ℕ → F64)
    (hdivide : ∀ a b, b ≠ 0 → (divide a b).isNan = false) (budget : ℕ)
    (updates : List (ℕ × Update)) (m : ConsoleModel)
    (hids : ((receivedSpans updates).map WireSpan.id).Nodup)
    (hharmless : RunsUnder turn HarmlessUpdate (ConsoleModel.new budget) updates)
    (hrun : run turn (ConsoleModel.new budget) updates = some m) :
    (∀ (rows : List VisibleRow) (i : ℕ) (r : VisibleRow), rows[i]? = some r →
      ∃ colors : Fin 7 → Option HeatColor, (buildColorMap divide rows)[i]? = some colors ∧
        ∀ c, ∃ x, LeastUp divide rows c i x ∧ colors c = heat x) ∧
    ∀ (i : ℕ) (r : VisibleRow) (n : ℕ), m.visibleRows[i]? = some r → 0 < n →
      n ≤ r.key.stack.length →
      ∃ (j : ℕ) (r' : VisibleRow) (colors colors' : Fin 7 → Option HeatColor),
        m.visibleRows[j]? = some r' ∧ r'.key.stack = r.key.stack.take n ∧
        (buildColorMap divide m.visibleRows)[i]? = some colors ∧
        (buildColorMap divide m.visibleRows)[j]? = some colors' ∧
        ∀ c, heatRank (colors c) ≤ heatRank (colors' c) := by
  have hcolors (rows : List VisibleRow) (i : ℕ) (r : VisibleRow) (hi : rows[i]? = some r) :
      ∃ e : Fin 7 → F64, (∀ c, LeastUp divide rows c i (e c)) ∧
        (buildColorMap divide rows)[i]? = some fun c => heat (e c) := by
    obtain ⟨e, he, hleast⟩ := effective_leastUp divide hdivide rows i r hi
    exact ⟨e, hleast, by rw [buildColorMap, List.getElem?_map, he]; rfl⟩
  refine ⟨fun rows i r hi => ?_, fun i r n hi hpos hn => ?_⟩
  · obtain ⟨e, hleast, hget⟩ := hcolors rows i r hi
    exact ⟨_, hget, fun c => ⟨e c, hleast c, rfl⟩⟩
  · have htree := treeReachable_of_run budget updates m hids hharmless hrun
    obtain ⟨j, r', hup, hj, hstack⟩ :=
      prefix_above m htree (r.key.stack.length - n) i r hi (by omega)
    obtain ⟨e, hleast, hget⟩ := hcolors m.visibleRows i r hi
    obtain ⟨e', hleast', hget'⟩ := hcolors m.visibleRows j r' hj
    refine ⟨j, r', _, _, hj, ?_, hget, hget', fun c => ?_⟩
    · rw [hstack]
      congr 1
      omega
    · exact heatRank_mono (e c) (e' c) (hleast c).number
        ((hleast c).mono divide m.visibleRows c i j (e c) (e' c) (hleast' c) hup)

/-! A span and its child of half its length. -/

/-- INTERNAL: quotients of numbers that are equal or half of each other. -/
def halfOrWhole (a b : ℕ) : F64 :=
  if a = b then ⟨0x3FF0000000000000#64⟩ else ⟨0x3FE0000000000000#64⟩

/-- INTERNAL: a root and its child, of half its time, and both rows unfolded. -/
def halfUpdates : List (ℕ × Update) :=
  [(0, .spanReceived (plainSpan 1 none 8)), (0, .spanReceived (plainSpan 2 (some 1) 4)),
    (0, .expandAllSelected)]

/-- CODE: table.rs:74-117 — the totals of the child are cyan under red ones, its own time is as
red as its parent's. -/
theorem heat_capped_by_ancestors_half :
    ∃ m, run turn (ConsoleModel.new 2) halfUpdates = some m ∧
      (buildColorMap halfOrWhole m.visibleRows).map List.ofFn =
        [List.replicate 7 (some .red), [some .red, some .cyan, some .cyan, some .cyan, some .red,
          some .red, some .red]] ∧
      ∀ (i : ℕ) (r : VisibleRow) (n : ℕ), m.visibleRows[i]? = some r → 0 < n →
        n ≤ r.key.stack.length →
        ∃ (j : ℕ) (r' : VisibleRow) (colors colors' : Fin 7 → Option HeatColor),
          m.visibleRows[j]? = some r' ∧ r'.key.stack = r.key.stack.take n ∧
          (buildColorMap halfOrWhole m.visibleRows)[i]? = some colors ∧
          (buildColorMap halfOrWhole m.visibleRows)[j]? = some colors' ∧
          ∀ c, heatRank (colors c) ≤ heatRank (colors' c) := by
  have hafter : (run turn (ConsoleModel.new 2) halfUpdates).map
      (fun m => (buildColorMap halfOrWhole m.visibleRows).map List.ofFn) =
      some [List.replicate 7 (some .red), [some .red, some .cyan, some .cyan, some .cyan,
        some .red, some .red, some .red]] := by
    decide +kernel
  obtain ⟨m, hrun, hcolors⟩ := Option.map_eq_some_iff.mp hafter
  refine ⟨m, hrun, hcolors, (heat_capped_by_ancestors halfOrWhole ?_ 2 halfUpdates m (by decide)
    ?_ hrun).2⟩
  · intro a b _
    unfold halfOrWhole
    split <;> decide
  · refine harmless_of_places _ halfUpdates ?_
    decide +kernel

end TracingConsole.Analysis.Console
