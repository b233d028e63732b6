import TracingConsole.Analysis.ChartRebuild
import TracingConsole.Analysis.StackForest

/-!
# The stacks table as a tree

The table lists the buckets in dictionary order and hides those below a stack that is not
expanded.  If the stacks of the ring are a forest, the scan of the depths finds the row each
visible row hangs from, and expanding the roots makes every bucket visible
(`treeReachable_of_forest`); a bucket whose parent stack has gone can never be shown.
-/

set_option autoImplicit false

namespace TracingConsole.Analysis.Console

open Std (ExtTreeMap)
open TracingConsole.Library TracingConsole.Model TracingConsole.Model.ConsoleModel

/-! ## Updates as operations of the aggregator -/

/-- INTERNAL: SRCLINE: core.rs:335-363 -/
theorem turn_spanReceived (now : ℕ) (m m' : ConsoleModel) (span : WireSpan)
    (h : turn m (now, .spanReceived span) = some m') :
    ∃ r, m.agg.absorb span = some r ∧ m'.agg = r.1 := by
  obtain ⟨⟨m₁, e⟩, happly, rfl⟩ := Option.map_eq_some_iff.mp h
  obtain ⟨m₂, hreceived, hquiet⟩ := Option.bind_eq_some_iff.mp happly
  obtain ⟨rfl, -⟩ := quiet_eq hquiet
  unfold spanReceived at hreceived
  obtain ⟨r, habsorb, hview⟩ := Option.bind_eq_some_iff.mp hreceived
  refine ⟨r, habsorb, ?_⟩
  dsimp only at hview
  split at hview
  · obtain ⟨gs, -, rfl⟩ := Option.map_eq_some_iff.mp hview
    rfl
  · cases hview
    rfl

/-- INTERNAL: no other update brings a span. -/
theorem receivedSpans_other (now : ℕ) (u : Update) (h : ∀ span, u ≠ .spanReceived span) :
    receivedSpans [(now, u)] = [] := by
  unfold receivedSpans
  cases u with
  | spanReceived span => exact absurd rfl (h span)
  | _ => rfl

/-- INTERNAL: **a run of updates is a run of its aggregator**, under the same conditions on the
spans that arrive.
SRCLINE: core.rs:333-1203 -/
theorem aggregator_run (ok : Aggregator → AggregatorOp → Prop)
    (hsplit : ∀ a keys, ok a (.setSplitKeys keys)) (updates : List (ℕ × Update))
    (m m' : ConsoleModel) (hrun : run turn m updates = some m')
    (hok : RunsUnder turn (fun m x => ∀ span, x.2 = .spanReceived span → ok m.agg (.absorb span))
      m updates) :
    ∃ ops, run AggregatorOp.perform m.agg ops = some m'.agg ∧
      absorbedSpans ops = receivedSpans updates ∧ RunsUnder AggregatorOp.perform ok m.agg ops := by
  induction updates generalizing m with
  | nil =>
    cases hrun
    exact ⟨[], rfl, rfl, trivial⟩
  | cons x updates ih =>
    obtain ⟨now, u⟩ := x
    rw [run_cons, Option.bind_eq_some_iff] at hrun
    obtain ⟨m₁, h₁, hrun⟩ := hrun
    obtain ⟨ops, hops, hspans, hunder⟩ := ih m₁ hrun (hok.2 m₁ h₁)
    have hstep : ∀ op : AggregatorOp, op.perform m.agg = some m₁.agg → ok m.agg op →
        absorbedSpans [op] = receivedSpans [(now, u)] →
        ∃ ops, run AggregatorOp.perform m.agg ops = some m'.agg ∧
          absorbedSpans ops = receivedSpans ((now, u) :: updates) ∧
            RunsUnder AggregatorOp.perform ok m.agg ops := by
      intro op hop hgood hseen
      refine ⟨op :: ops, ?_, ?_, hgood, fun a ha => ?_⟩
      · rw [run_cons, hop]
        exact hops
      · rw [absorbedSpans_cons, receivedSpans_cons, hseen, hspans]
      · rw [hop] at ha
        cases ha
        exact hunder
    by_cases hspan : ∃ span, u = .spanReceived span
    · obtain ⟨span, rfl⟩ := hspan
      obtain ⟨r, habsorb, hagg⟩ := turn_spanReceived now m m₁ span h₁
      apply hstep (.absorb span) _ (hok.1 span rfl) rfl
      rw [AggregatorOp.perform, habsorb, hagg]
      rfl
    · push Not at hspan
      have hnone := receivedSpans_other now u hspan
      obtain ⟨⟨m₁, e⟩, happly, rfl⟩ := Option.map_eq_some_iff.mp h₁
      cases apply_moves now m m₁ u e happly with
      | absorbs span r hu _ _ _ _ _ => exact absurd hu (hspan span)
      | splits keys _ hsplits _ _ _ =>
        exact hstep (.setSplitKeys keys) hsplits (hsplit _ _) hnone.symm
      | shows hagg _ _ =>
        rw [receivedSpans_cons, hnone, List.nil_append, ← hagg]
        exact ⟨ops, hops, hspans, hunder⟩

/-! ## The rows -/

/-- INTERNAL: the rows are the buckets of the ring.
SRCLINE: state.rs:406-425 -/
theorem mem_rows_iff (a : Aggregator) (htallied : Tallied False a) (key : BucketKey) :
    key ∈ a.rows.map Prod.fst ↔ ∃ id x, located a id = some x ∧ x.2.1 = key := by
  have hkey : key ∈ a.rows.map Prod.fst ↔ key ∈ a.buckets := by
    rw [List.mem_map, ← ExtTreeMap.isSome_getElem?_iff_mem, Option.isSome_iff_exists]
    constructor
    · rintro ⟨row, hrow, rfl⟩
      obtain ⟨st, hst, -⟩ := (mem_rows a row).mp hrow
      exact ⟨st, hst⟩
    · rintro ⟨st, hst⟩
      exact ⟨(key, st.toStackStats), (mem_rows a _).mpr ⟨st, hst, rfl⟩, rfl⟩
  rw [hkey, htallied.buckets.mem_iff]
  constructor
  · rintro ⟨e, he, rfl⟩
    obtain ⟨id, hget⟩ := (mem_values a.byId e).mp he
    exact ⟨id, (e.span, e.bucket, e.totalNs), by rw [located, hget]; rfl, rfl⟩
  · rintro ⟨id, x, hx, rfl⟩
    obtain ⟨e, he, rfl⟩ := Option.map_eq_some_iff.mp hx
    exact ⟨e, (mem_values a.byId e).mpr ⟨id, he⟩, rfl⟩

/-- INTERNAL: rows in the order of their keys.
SRCLINE: state.rs:406-425 -/
def SortedRows {T : Type} (rows : List (BucketKey × T)) : Prop :=
  rows.Pairwise fun x y => (compare x.1 y.1).isLE = true

/-- INTERNAL: decidable. -/
instance {T : Type} (rows : List (BucketKey × T)) : Decidable (SortedRows rows) :=
  inferInstanceAs (Decidable (List.Pairwise _ _))

/-- INTERNAL: the stacks come first in the order of the keys. -/
theorem SortedRows.stacks {T : Type} (rows : List (BucketKey × T)) (h : SortedRows rows) :
    rows.Pairwise fun x y => (compare x.1.stack y.1.stack).isLE = true := by
  apply h.imp
  intro x y hxy
  have hthen : ((compare x.1.stack y.1.stack).then (compare x.1.splits y.1.splits)).isLE = true :=
    hxy
  exact (Ordering.isLE_then_iff_and.mp hthen).1

/-- INTERNAL: the rows of an aggregator are in the order of their keys.
SRCLINE: state.rs:406-425 -/
theorem sortedRows_rows (a : Aggregator) : SortedRows a.rows := by
  have htotal : Std.Total fun x y : BucketKey × StackStats => (compare x.1 y.1).isLE = true := by
    refine ⟨fun x y => ?_⟩
    have hswap : compare x.1 y.1 = (compare y.1 x.1).swap := Std.OrientedCmp.eq_swap
    cases hcmp : compare y.1 x.1 <;> rw [hcmp] at hswap <;> simp [hswap]
  have htrans : IsTrans (BucketKey × StackStats) fun x y => (compare x.1 y.1).isLE = true :=
    ⟨fun _ _ _ hxy hyz => Std.TransCmp.isLE_trans hxy hyz⟩
  exact List.pairwise_insertionSort _ _

/-- INTERNAL: the stacks of the rows are in dictionary order.
SRCLINE: state.rs:406-425 -/
theorem rows_sorted (a : Aggregator) :
    a.rows.Pairwise fun x y => (compare x.1.stack y.1.stack).isLE = true :=
  (sortedRows_rows a).stacks

/-- INTERNAL: every proper prefix of the stack is expanded.
SRCLINE: core.rs:1220-1227 -/
def shownUnder (expanded : Finset (List String)) (stack : List String) : Bool :=
  (List.range' 1 (stack.length - 1)).all fun k => stack.take k ∈ expanded

/-- INTERNAL: a row is shown if every stack above it is unfolded. -/
theorem shownUnder_iff (expanded : Finset (List String)) (stack : List String) :
    shownUnder expanded stack = true ↔
      ∀ k, 0 < k → k < stack.length → stack.take k ∈ expanded := by
  unfold shownUnder
  rw [List.all_eq_true]
  constructor
  · intro h k hpos hlt
    have hk := h k (List.mem_range'_1.mpr (by omega))
    exact of_decide_eq_true hk
  · intro h k hk
    have hk := List.mem_range'_1.mp hk
    exact decide_eq_true (h k (by omega) (by omega))

/-- INTERNAL: the visible rows are the shown ones, in order.
SRCLINE: core.rs:1211-1255 -/
theorem visibleFrom_eq (expanded : Finset (List String)) (rows : List (BucketKey × StackStats)) :
    (visibleFrom expanded rows).map (fun r => (r.key, r.stats)) =
      rows.filter (fun row => shownUnder expanded row.1.stack) ∧
    ∀ r ∈ visibleFrom expanded rows, r.depth = r.key.stack.length - 1 := by
  induction rows with
  | nil => exact ⟨rfl, fun r hr => by cases hr⟩
  | cons row rows ih =>
    obtain ⟨hrows, hdepth⟩ := ih
    unfold visibleFrom
    dsimp only
    rw [List.filter_cons]
    split
    · next hshown =>
      have hshown : shownUnder expanded row.1.stack = true := hshown
      rw [if_pos hshown, List.map_cons, hrows]
      refine ⟨rfl, fun r hr => ?_⟩
      rcases List.mem_cons.mp hr with rfl | hin
      · rfl
      · exact hdepth r hin
    · next hhidden =>
      have hhidden : ¬ shownUnder expanded row.1.stack = true := hhidden
      rw [if_neg hhidden]
      exact ⟨hrows, hdepth⟩

/-- INTERNAL: the visible rows are those shown under the unfolded stacks. -/
theorem visibleRows_stacks (m : ConsoleModel) : m.visibleRows.map (fun r => r.key.stack) =
    (m.agg.rows.filter fun row => shownUnder m.expanded row.1.stack).map fun row =>
      row.1.stack := by
  rw [← (visibleFrom_eq m.expanded m.agg.rows).1, List.map_map]
  rfl

/-! ## Expanding -/

/-- INTERNAL: select the row with a key, if it is visible, and expand all below it. -/
def expandRow (m : ConsoleModel) (x : ℕ × BucketKey) : Option ConsoleModel :=
  match m.visibleRows.findIdx? fun r => r.key = x.2 with
  | some i => turn { m with focus := .stacks, selected := i } (x.1, .expandAllSelected)
  | none => some m

/-- INTERNAL: **the tree can be walked**: every prefix of a bucket's stack is a bucket's stack,
every visible row below the top hangs from a row with its stack less the last name, and once the
rows at the top have been expanded every bucket is listed.
SRCLINE: core.rs:394-418, 1205-1256, table.rs:55-71 -/
structure TreeReachable (m : ConsoleModel) : Prop where
  prefixes : ∀ key ∈ m.agg.rows.map Prod.fst, ∀ n, 0 < n → n < key.stack.length →
    ∃ key' ∈ m.agg.rows.map Prod.fst, key'.stack = key.stack.take n
  parents : ∀ (i : ℕ) (r : VisibleRow), m.visibleRows[i]? = some r → 0 < r.depth →
    ∃ (j : ℕ) (r' : VisibleRow), (parentIndices m.visibleRows)[i]? = some (some j) ∧
      m.visibleRows[j]? = some r' ∧
      r'.key.stack = r.key.stack.dropLast
  reachable : ∀ roots : List (ℕ × BucketKey),
    (∀ r ∈ m.visibleRows, r.depth = 0 → r.key ∈ roots.map Prod.snd) →
      ∃ m', run expandRow m roots = some m' ∧
        m'.visibleRows.map (fun r => (r.key, r.stats)) = m.agg.rows

/-- INTERNAL: in a forest every prefix of a stack is a stack. -/
theorem forest_prefixes (a : Aggregator) (h : StackForest a) (id : ℕ)
    (x : WireSpan × BucketKey × ℕ) (hx : located a id = some x) (d : ℕ)
    (hd : d < x.2.1.stack.length) :
    ∃ k y, located a k = some y ∧ y.2.1.stack = x.2.1.stack.take (x.2.1.stack.length - d) := by
  induction d with
  | zero => exact ⟨id, x, hx, by simp⟩
  | succ d ih =>
    obtain ⟨k, y, hy, hstack⟩ := ih (by omega)
    have hlen : y.2.1.stack.length = x.2.1.stack.length - d := by
      rw [hstack, List.length_take]
      omega
    obtain ⟨k', y', hy', hstack'⟩ := h.parent k y hy (by omega)
    refine ⟨k', y', hy', ?_⟩
    rw [hstack', List.dropLast_eq_take, hlen, hstack, List.take_take]
    congr 1
    omega

/-- INTERNAL: a bucket at the top is always visible, and expanding it shows what is below it.
SRCLINE: core.rs:394-418 -/
theorem expandRow_spec (m : ConsoleModel) (now : ℕ) (key : BucketKey) :
    ∃ m', expandRow m (now, key) = some m' ∧ m'.agg = m.agg ∧ m.expanded ⊆ m'.expanded ∧
      (key ∈ m.agg.rows.map Prod.fst → key.stack.length = 1 →
        ∀ row ∈ m.agg.rows, key.stack <+: row.1.stack →
          ∀ n, 0 < n → n < row.1.stack.length → row.1.stack.take n ∈ m'.expanded) := by
  unfold expandRow
  cases hidx : m.visibleRows.findIdx? fun r => r.key = key with
  | none =>
    refine ⟨m, rfl, rfl, subset_rfl, fun hkey htop => ?_⟩
    -- a row at the top has no proper prefix that could hide it
    have hhidden := List.findIdx?_eq_none_iff.mp hidx
    obtain ⟨row, hrow, rfl⟩ := List.mem_map.mp hkey
    have hshown : shownUnder m.expanded row.1.stack = true := by
      rw [shownUnder_iff]
      intro k hpos hlt
      omega
    have hmem : row ∈ m.visibleRows.map fun r => (r.key, r.stats) := by
      unfold visibleRows
      rw [(visibleFrom_eq m.expanded m.agg.rows).1]
      exact List.mem_filter.mpr ⟨hrow, hshown⟩
    obtain ⟨r, hr, rfl⟩ := List.mem_map.mp hmem
    exact absurd rfl (of_decide_eq_false (hhidden r hr))
  | some i =>
    obtain ⟨hlt, hkey, -⟩ := List.findIdx?_eq_some_iff_getElem.mp hidx
    have hread : m.visibleRows[i]? = some m.visibleRows[i] := List.getElem?_eq_getElem hlt
    set r := m.visibleRows[i] with hr
    have hr' : r.key = key := of_decide_eq_true hkey
    refine ⟨{ m with
        focus := .stacks
        selected := i
        expanded := m.expanded ∪
          (m.agg.rows.flatMap fun row => prefixesBelow r.key.stack row.1.stack).toFinset },
      ?_, rfl, Finset.subset_union_left, fun _ htop row hrow hpre n hpos hn => ?_⟩
    · have hturn : ∀ m : ConsoleModel,
          turn m (now, .expandAllSelected) = some m.expandAllSelected := fun _ => rfl
      dsimp only
      rw [hturn]
      unfold ConsoleModel.expandAllSelected
      have hsame : ({ m with focus := .stacks, selected := i } : ConsoleModel).visibleRows[i]? =
          some r := hread
      rw [if_neg (by simp), hsame]
    · apply Finset.mem_union_right
      rw [List.mem_toFinset, List.mem_flatMap]
      refine ⟨row, hrow, ?_⟩
      unfold prefixesBelow
      rw [hr', if_pos (by simpa [htop] using ⟨hpre, by omega⟩), List.mem_map]
      exact ⟨n, List.mem_range'_1.mpr (by omega), rfl⟩

/-- INTERNAL: expanding row after row. -/
theorem expandRows_spec (roots : List (ℕ × BucketKey)) (m : ConsoleModel) :
    ∃ m', run expandRow m roots = some m' ∧ m'.agg = m.agg ∧ m.expanded ⊆ m'.expanded ∧
      ∀ key ∈ roots.map Prod.snd, key ∈ m.agg.rows.map Prod.fst → key.stack.length = 1 →
        ∀ row ∈ m.agg.rows, key.stack <+: row.1.stack →
          ∀ n, 0 < n → n < row.1.stack.length → row.1.stack.take n ∈ m'.expanded := by
  induction roots generalizing m with
  | nil => exact ⟨m, rfl, rfl, subset_rfl, fun key hkey => by cases hkey⟩
  | cons x roots ih =>
    obtain ⟨m₁, h₁, hagg₁, hsub₁, hshows₁⟩ := expandRow_spec m x.1 x.2
    obtain ⟨m', hrun, hagg, hsub, hshows⟩ := ih m₁
    refine ⟨m', ?_, hagg.trans hagg₁, hsub₁.trans hsub, fun key hkey => ?_⟩
    · rw [run_cons, h₁]
      exact hrun
    · rw [List.map_cons, List.mem_cons] at hkey
      rcases hkey with rfl | hkey
      · intro hin htop row hrow hpre n hpos hn
        exact hsub (hshows₁ hin htop row hrow hpre n hpos hn)
      · rw [← hagg₁]
        exact hshows key hkey

/-- INTERNAL: in the rows of a forest every prefix of a stack is a stack. -/
theorem rows_prefixes (m : ConsoleModel) (htallied : Tallied False m.agg) (h : StackForest m.agg)
    (key : BucketKey) (hkey : key ∈ m.agg.rows.map Prod.fst) (n : ℕ) (hpos : 0 < n)
    (hn : n < key.stack.length) :
    ∃ key' ∈ m.agg.rows.map Prod.fst, key'.stack = key.stack.take n := by
  obtain ⟨id, x, hx, rfl⟩ := (mem_rows_iff m.agg htallied key).mp hkey
  obtain ⟨k, y, hy, hstack⟩ := forest_prefixes m.agg h id x hx (x.2.1.stack.length - n)
    (by omega)
  refine ⟨y.2.1, (mem_rows_iff m.agg htallied _).mpr ⟨k, y, hy, rfl⟩, ?_⟩
  rw [hstack]
  congr 1
  omega

/-- INTERNAL: every row has a stack. -/
theorem rows_nonempty (m : ConsoleModel) (htallied : Tallied False m.agg) (h : StackForest m.agg)
    (row : BucketKey × StackStats) (hrow : row ∈ m.agg.rows) : row.1.stack ≠ [] := by
  obtain ⟨id, x, hx, heq⟩ := (mem_rows_iff m.agg htallied row.1).mp (List.mem_map_of_mem hrow)
  rw [← heq]
  exact h.nonempty id x hx

/-- INTERNAL: **a visible row hangs from the row of its parent stack**.
SRCLINE: core.rs:1205-1256, table.rs:55-71 -/
theorem parentIndices_parent (m : ConsoleModel) (htallied : Tallied False m.agg)
    (h : StackForest m.agg) (i : ℕ) (r : VisibleRow) (hi : m.visibleRows[i]? = some r)
    (hdeep : 0 < r.depth) :
    ∃ (j : ℕ) (r' : VisibleRow), (parentIndices m.visibleRows)[i]? = some (some j) ∧
      m.visibleRows[j]? = some r' ∧ r'.key.stack = r.key.stack.dropLast := by
  -- the stacks of the visible rows are a forest in dictionary order
  set paths := m.visibleRows.map fun r => r.key.stack with hpaths
  have hdepth := (visibleFrom_eq m.expanded m.agg.rows).2
  have hdepths : m.visibleRows.map VisibleRow.depth = paths.map fun p => p.length - 1 := by
    rw [hpaths, List.map_map]
    exact List.map_congr_left hdepth
  have hsorted : paths.Pairwise fun p q => (compare p q).isLE = true := by
    rw [hpaths, visibleRows_stacks, List.pairwise_map]
    exact (rows_sorted m.agg).sublist (List.filter_sublist)
  have hclosed : ∀ s ∈ paths, 1 < s.length → s.dropLast ∈ paths := by
    intro s hs hlong
    rw [hpaths, visibleRows_stacks, List.mem_map] at hs ⊢
    obtain ⟨row, hrow, rfl⟩ := hs
    obtain ⟨hin, hshown⟩ := List.mem_filter.mp hrow
    obtain ⟨key', hkey', hstack⟩ := rows_prefixes m htallied h row.1 (List.mem_map_of_mem hin)
      (row.1.stack.length - 1) (by omega) (by omega)
    obtain ⟨row', hrow', rfl⟩ := List.mem_map.mp hkey'
    rw [← List.dropLast_eq_take] at hstack
    refine ⟨row', List.mem_filter.mpr ⟨hrow', ?_⟩, hstack⟩
    rw [shownUnder_iff] at hshown ⊢
    intro k hpos hk
    rw [hstack, List.length_dropLast] at hk
    rw [hstack, List.dropLast_eq_take, List.take_take, min_eq_left (by omega)]
    exact hshown k hpos (by omega)
  have hri : paths[i]? = some r.key.stack := by
    rw [hpaths, List.getElem?_map, hi]
    rfl
  have hrlen : 1 < r.key.stack.length := by
    have := hdepth r (List.mem_of_getElem? hi)
    omega
  obtain ⟨j, hscan, hj⟩ := ancestorScan_parent paths hsorted hclosed i r.key.stack hri hrlen
  rw [hpaths, List.getElem?_map] at hj
  obtain ⟨r', hr', hstack⟩ := Option.map_eq_some_iff.mp hj
  exact ⟨j, r', by rw [parentIndices, hdepths]; exact hscan, hr', hstack⟩

/-- INTERNAL: **once the rows at the top have been expanded every bucket is listed**.
SRCLINE: core.rs:394-418, 1205-1256 -/
theorem expandRows_all (m : ConsoleModel) (htallied : Tallied False m.agg)
    (h : StackForest m.agg) (roots : List (ℕ × BucketKey))
    (hroots : ∀ r ∈ m.visibleRows, r.depth = 0 → r.key ∈ roots.map Prod.snd) :
    ∃ m', run expandRow m roots = some m' ∧
      m'.visibleRows.map (fun r => (r.key, r.stats)) = m.agg.rows := by
  obtain ⟨m', hrun, hagg, -, hshows⟩ := expandRows_spec roots m
  refine ⟨m', hrun, ?_⟩
  unfold visibleRows
  rw [(visibleFrom_eq m'.expanded m'.agg.rows).1, hagg, List.filter_eq_self]
  intro row hrow
  rw [shownUnder_iff]
  intro n hpos hn
  -- the root of the row is at the top, so it has been expanded
  have hone : 0 < row.1.stack.length :=
    List.length_pos_iff.mpr (rows_nonempty m htallied h row hrow)
  obtain ⟨key, hkey, hstack⟩ := rows_prefixes m htallied h row.1
    (List.mem_map_of_mem hrow) 1 Nat.one_pos (by omega)
  have hlen : key.stack.length = 1 := by
    rw [hstack, List.length_take]
    omega
  obtain ⟨top, htop, rfl⟩ := List.mem_map.mp hkey
  have hvisible : top ∈ m.visibleRows.map fun r => (r.key, r.stats) := by
    unfold visibleRows
    rw [(visibleFrom_eq m.expanded m.agg.rows).1]
    refine List.mem_filter.mpr ⟨htop, ?_⟩
    rw [shownUnder_iff]
    intro k hk hlt
    omega
  obtain ⟨r, hr, hrtop⟩ := List.mem_map.mp hvisible
  have hrkey : r.key = top.1 := congrArg Prod.fst hrtop
  have hdepth := (visibleFrom_eq m.expanded m.agg.rows).2 r hr
  have hroot := hroots r hr (by rw [hdepth, hrkey, hlen])
  rw [hrkey] at hroot
  exact hshows top.1 hroot hkey hlen row hrow (by rw [hstack]; exact List.take_prefix 1 _) n
    hpos hn

/-- INTERNAL: **the table of a forest can be walked**.
SRCLINE: core.rs:394-418, 1205-1256, table.rs:55-71 -/
theorem treeReachable_of_forest (m : ConsoleModel) (htallied : Tallied False m.agg)
    (h : StackForest m.agg) : TreeReachable m where
  prefixes := rows_prefixes m htallied h
  parents := parentIndices_parent m htallied h
  reachable := expandRows_all m htallied h

/-! ## Every run -/

/-- INTERNAL: the evictions an update makes are harmless; only an arrival makes any. -/
def HarmlessUpdate (m : ConsoleModel) (x : ℕ × Update) : Prop :=
  ∀ span, x.2 = .spanReceived span → HarmlessArrival m.agg span

/-- CODE: core.rs:394-418, 1205-1256, table.rs:55-71, state.rs:321-364 — **the stacks table can
be walked in every state of a run whose evictions are harmless**: whenever a span is evicted,
its stack is that of a span that stays or is being placed, or the parent of none of these. -/
theorem tree_reachable (budget : ℕ) (updates : List (ℕ × Update)) (m : ConsoleModel)
    (hids : ((receivedSpans updates).map WireSpan.id).Nodup)
    (hharmless : RunsUnder turn HarmlessUpdate (ConsoleModel.new budget) updates)
    (hrun : run turn (ConsoleModel.new budget) updates = some m) : TreeReachable m := by
  obtain ⟨ops, hops, hspans, hunder⟩ := aggregator_run HarmlessOp (fun _ _ => trivial) updates
    (ConsoleModel.new budget) m hrun hharmless
  have hdistinct := distinctIds_start (absorbedSpans ops) (hspans ▸ hids)
  have hstart : (Kept budget 0 (Aggregator.new budget) [] ∧
      Tallied False (Aggregator.new budget)) ∧ Linked (Aggregator.new budget) :=
    ⟨⟨kept_new budget, tallied_new False budget⟩, linked_new budget⟩
  obtain ⟨⟨-, htallied⟩, -⟩ := run_kept DistinctIds _ (linked_runInvariant budget)
    DistinctIds.mono (fun _ _ h => (Multiset.le_add_right _ _).trans h.1.1.bag) ops 0
    (Aggregator.new budget) m.agg hdistinct hstart hops
  exact treeReachable_of_forest m htallied
    (stackForest_run budget ops 0 (Aggregator.new budget) m.agg hdistinct hstart
      (stackForest_new budget) hunder hops)

/-- INTERNAL: the span of an update is placed at once, releases nobody and evicts harmlessly. -/
def placesHarmlessly (m : ConsoleModel) (x : ℕ × Update) : Bool :=
  match x.2 with
  | .spanReceived span =>
    match cascadeStep ⟨m.agg, [span], []⟩, m.agg.resolve span with
    | some c, some (b, _) => c.work.isEmpty && decide (EvictionsHarmless m.agg b.stack)
    | _, _ => false
  | _ => true

/-- INTERNAL: an arrival that releases nobody makes room at most once. -/
theorem placesHarmlessly_spec (m : ConsoleModel) (x : ℕ × Update)
    (h : placesHarmlessly m x = true) : HarmlessUpdate m x := by
  intro span hspan _ d hd v rest b r hwork hres
  rw [placesHarmlessly, hspan] at h
  cases hstep : cascadeStep ⟨m.agg, [span], []⟩ with
  | none => simp [hstep] at h
  | some c =>
    cases hplace : m.agg.resolve span with
    | none => simp [hstep, hplace] at h
    | some p =>
      simp only [hstep, hplace, Bool.and_eq_true, List.isEmpty_iff, decide_eq_true_eq] at h
      obtain ⟨hdone, hharmless⟩ := h
      rcases Relation.ReflTransGen.cases_head hd with rfl | ⟨c', hc', hd⟩
      · cases hwork
        rw [hplace] at hres
        cases hres
        exact hharmless
      · obtain rfl : c' = c := Option.some.inj (hc'.symm.trans hstep)
        rcases Relation.ReflTransGen.cases_head hd with rfl | ⟨c'', hc'', -⟩
        · rw [hdone] at hwork
          cases hwork
        · unfold CascadeStep cascadeStep at hc''
          rw [hdone] at hc''
          cases hc''

/-- INTERNAL: the evictions of a run can be tested update by update. -/
theorem harmless_of_places (m : ConsoleModel) (updates : List (ℕ × Update))
    (h : RunsUnder turn (fun m x => placesHarmlessly m x = true) m updates) :
    RunsUnder turn HarmlessUpdate m updates :=
  h.imp turn _ _ placesHarmlessly_spec m updates

/-- INTERNAL: a root and its child, another root, which takes the place of the first, and its
child. -/
def renewedUpdates : List (ℕ × Update) :=
  [(0, .spanReceived (plainSpan 1 none 7)), (0, .spanReceived (plainSpan 2 (some 1) 3)),
    (0, .spanReceived (plainSpan 3 none 5)), (0, .spanReceived (plainSpan 4 (some 3) 2)),
    (0, .expandSelected)]

/-- CODE: core.rs:394-418, 1205-1256, table.rs:55-71 — a ring of three spans, whose oldest root is
evicted while the other one has its stack. -/
theorem tree_reachable_small :
    ∃ m, run turn (ConsoleModel.new 3) renewedUpdates = some m ∧ m.agg.order = [2, 3, 4] ∧
      m.visibleRows.map (fun row => row.key.stack) = [["a"], ["a", "a"]] ∧ TreeReachable m := by
  have hends : (run turn (ConsoleModel.new 3) renewedUpdates).map (fun m =>
      (m.agg.order, m.visibleRows.map fun row => row.key.stack)) =
      some ([2, 3, 4], [["a"], ["a", "a"]]) := by
    decide +kernel
  obtain ⟨m, hrun, hread⟩ := Option.map_eq_some_iff.mp hends
  obtain ⟨horder, hrows⟩ := Prod.mk.inj hread
  refine ⟨m, hrun, horder, hrows, tree_reachable 3 renewedUpdates m (by decide)
    (harmless_of_places _ _ ?_) hrun⟩
  decide +kernel

/-- CODE: state.rs:321-364, core.rs:1205-1256 — the parent of the only bucket has been evicted:
the bucket has no row above it, and no row is visible. -/
theorem orphan_unreachable :
    ∃ m, run turn (ConsoleModel.new 1) [(0, .spanReceived (plainSpan 1 none 7)),
        (0, .spanReceived (plainSpan 2 (some 1) 3))] = some m ∧
      m.agg.rows.map (fun row => row.1.stack) = [["a", "a"]] ∧ m.visibleRows = [] ∧
      ¬ TreeReachable m := by
  have hafter : (run turn (ConsoleModel.new 1) [(0, .spanReceived (plainSpan 1 none 7)),
      (0, .spanReceived (plainSpan 2 (some 1) 3))]).map
        (fun m => (m.agg.rows.map (fun row => row.1.stack), m.visibleRows)) =
      some ([["a", "a"]], []) := by
    decide +kernel
  obtain ⟨m, hrun, hread⟩ := Option.map_eq_some_iff.mp hafter
  obtain ⟨hrows, hvisible⟩ := Prod.mk.inj hread
  refine ⟨m, hrun, hrows, hvisible, fun htree => ?_⟩
  obtain ⟨row, hrow, hstack⟩ : ∃ row ∈ m.agg.rows, row.1.stack = ["a", "a"] := by
    rw [← List.mem_map, hrows]
    exact List.mem_singleton_self _
  obtain ⟨key', hkey', hprefix⟩ := htree.prefixes row.1 (List.mem_map_of_mem hrow) 1 Nat.one_pos
    (by rw [hstack]; decide)
  obtain ⟨row', hrow', rfl⟩ := List.mem_map.mp hkey'
  have hlisted := List.mem_map_of_mem (f := fun row => row.1.stack) hrow'
  rw [hrows, hprefix, hstack] at hlisted
  revert hlisted
  decide

end TracingConsole.Analysis.Console
