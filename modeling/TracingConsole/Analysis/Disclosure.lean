import TracingConsole.Analysis.StackTable
import TracingConsole.Analysis.NamedStacks

/-!
# Expanding and collapsing one subtree

A row is visible when every proper prefix of its stack is expanded.  Expanding all below a
visible row opens the prefixes from its stack on, collapsing it closes every stack that extends
its own: what is disclosed or hidden is what lies strictly below the stack, whatever the splits
of the rows (`subtree_touched`).
-/

set_option autoImplicit false

namespace TracingConsole.Analysis.Console

open Std (ExtTreeMap)
open TracingConsole.Library TracingConsole.Model TracingConsole.Model.ConsoleModel

/-- INTERNAL: the visible rows, each by its bucket and its statistics. -/
def listed (m : ConsoleModel) : List (BucketKey × StackStats) :=
  m.visibleRows.map fun r => (r.key, r.stats)

/-- INTERNAL: the listed rows are those shown under the unfolded stacks. -/
theorem listed_eq (m : ConsoleModel) :
    listed m = m.agg.rows.filter fun row => shownUnder m.expanded row.1.stack :=
  (visibleFrom_eq m.expanded m.agg.rows).1

/-- INTERNAL: shown is disclosed. -/
theorem shownUnder_iff_disclosed (expanded : Finset (List String)) (stack : List String) :
    shownUnder expanded stack = true ↔ Disclosed (fun s => s ∈ expanded) stack :=
  shownUnder_iff expanded stack

/-- INTERNAL: a row is listed if its stack is disclosed. -/
theorem mem_listed_iff (m : ConsoleModel) (row : BucketKey × StackStats)
    (hrow : row ∈ m.agg.rows) :
    row ∈ listed m ↔ Disclosed (fun s => s ∈ m.expanded) row.1.stack := by
  rw [listed_eq, List.mem_filter, shownUnder_iff_disclosed, and_iff_right hrow]

/-- INTERNAL: a visible row is a row of the aggregator, and disclosed. -/
theorem visibleRow_spec (m : ConsoleModel) (r : VisibleRow) (h : r ∈ m.visibleRows) :
    (r.key, r.stats) ∈ m.agg.rows ∧ Disclosed (fun s => s ∈ m.expanded) r.key.stack := by
  have hlisted : (r.key, r.stats) ∈ listed m := List.mem_map_of_mem h
  rw [listed_eq, List.mem_filter, shownUnder_iff_disclosed] at hlisted
  exact hlisted

/-- INTERNAL: every row has a name. -/
theorem row_named (a : Aggregator) (h : Built a) (row : BucketKey × StackStats)
    (hrow : row ∈ a.rows) : row.1.stack ≠ [] := by
  unfold Aggregator.rows at hrow
  rw [List.mem_insertionSort] at hrow
  obtain ⟨kv, hkv, heq⟩ := List.mem_map.mp hrow
  rw [← heq]
  exact h.named a kv.1 kv.2 (ExtTreeMap.mem_toList_iff_getElem?_eq_some.mp hkv)

/-! ## Expanding all -/

/-- INTERNAL: what is expanded with all below a stack: the prefixes, from the stack on, of the
rows below it.
SRCLINE: core.rs:394-418 -/
theorem mem_prefixesBelow (rootStack stack s : List String) :
    s ∈ prefixesBelow rootStack stack ↔
      StrictlyBelow rootStack stack ∧
        ∃ k, rootStack.length ≤ k ∧ k < stack.length ∧ stack.take k = s := by
  unfold prefixesBelow StrictlyBelow
  by_cases hunder : (rootStack.isPrefixOf stack && rootStack.length < stack.length) = true
  · rw [if_pos hunder]
    rw [Bool.and_eq_true, List.isPrefixOf_iff_prefix, decide_eq_true_eq] at hunder
    rw [and_iff_right hunder, List.mem_map]
    have hlonger := hunder.2
    refine exists_congr fun k => ?_
    rw [List.mem_range'_1, ← and_assoc]
    exact and_congr_left' (by omega)
  · rw [if_neg hunder]
    rw [Bool.and_eq_true, List.isPrefixOf_iff_prefix, decide_eq_true_eq] at hunder
    exact iff_of_false List.not_mem_nil fun hboth => hunder hboth.1

/-- INTERNAL: unfolding all, at the highlighted row. -/
theorem expandAllSelected_eq (m : ConsoleModel) (r : VisibleRow) (hfocus : m.focus = .stacks)
    (hr : m.visibleRows[m.selected]? = some r) :
    m.expandAllSelected = { m with
      expanded := m.expanded ∪
        (m.agg.rows.flatMap fun row => prefixesBelow r.key.stack row.1.stack).toFinset } := by
  unfold expandAllSelected
  rw [hr, if_neg (by rw [hfocus]; simp)]

/-- INTERNAL: **expanding all below a visible row** discloses the rows below it and no other. -/
theorem listed_expandAllSelected (m : ConsoleModel) (r : VisibleRow)
    (hfocus : m.focus = .stacks) (hr : m.visibleRows[m.selected]? = some r) :
    listed m.expandAllSelected = m.agg.rows.filter fun row =>
      row ∈ listed m ∨ StrictlyBelow r.key.stack row.1.stack := by
  have hvisible := (visibleRow_spec m r (List.mem_of_getElem? hr)).2
  rw [expandAllSelected_eq m r hfocus hr, listed_eq]
  apply List.filter_congr
  intro row hrow
  rw [Bool.eq_iff_iff, shownUnder_iff_disclosed, decide_eq_true_eq, mem_listed_iff m row hrow]
  apply disclosed_open_iff _ _ _ _ hvisible
  · exact fun s hs => Finset.mem_union_left _ hs
  · intro s hs
    refine (Finset.mem_union.mp hs).imp_right fun hfresh => ?_
    obtain ⟨other, -, hmem⟩ := List.mem_flatMap.mp (List.mem_toFinset.mp hfresh)
    obtain ⟨hunder, k, hlow, -, htake⟩ := (mem_prefixesBelow _ _ _).mp hmem
    rw [← htake]
    exact List.prefix_take_iff.mpr ⟨hunder.1, hlow⟩
  · intro hunder k hlow hk
    apply Finset.mem_union_right
    rw [List.mem_toFinset, List.mem_flatMap]
    exact ⟨row, hrow, (mem_prefixesBelow _ _ _).mpr ⟨hunder, k, hlow, hk, rfl⟩⟩

/-! ## Collapsing -/

/-- INTERNAL: folding, at the highlighted row. -/
theorem collapseSelected_eq (m : ConsoleModel) (r : VisibleRow) (hfocus : m.focus = .stacks)
    (hr : m.visibleRows[m.selected]? = some r) (hexpanded : r.isExpanded = true) :
    m.collapseSelected = m.collapseBelow r.key.stack := by
  unfold collapseSelected
  rw [hr, if_neg (by rw [hfocus]; simp)]
  exact if_pos hexpanded

/-- INTERNAL: **collapsing a stack** hides the rows below it and no other. -/
theorem listed_collapseBelow (m : ConsoleModel) (stack : List String) (hne : stack ≠ []) :
    listed (m.collapseBelow stack) =
      (listed m).filter fun row => ¬ StrictlyBelow stack row.1.stack := by
  rw [listed_eq, listed_eq, List.filter_filter]
  apply List.filter_congr
  intro row hrow
  rw [Bool.eq_iff_iff, Bool.and_eq_true, shownUnder_iff_disclosed, shownUnder_iff_disclosed,
    decide_eq_true_eq, and_comm]
  apply disclosed_close_iff _ _ _ _ hne
  intro s
  change s ∈ m.expanded.filter _ ↔ _
  rw [Finset.mem_filter, Bool.not_eq_true', ← Bool.not_eq_true, List.isPrefixOf_iff_prefix]

/-! ## Both -/

/-- CODE: core.rs:384-442, 1205-1256 — **one subtree**: with the stacks in focus and a visible
row selected, expanding all lists the rows that were visible and every bucket strictly below the
row's stack; collapsing the row, when it is expanded, lists the rows that were visible but those
strictly below its stack.  The buckets are left alone. -/
theorem subtree_touched (m : ConsoleModel) (now : ℕ) (r : VisibleRow) (hbuilt : Built m.agg)
    (hfocus : m.focus = .stacks) (hr : m.visibleRows[m.selected]? = some r) :
    (∃ m', turn m (now, .expandAllSelected) = some m' ∧ m'.agg = m.agg ∧
      listed m' = m.agg.rows.filter fun row =>
        row ∈ listed m ∨ StrictlyBelow r.key.stack row.1.stack) ∧
    (r.isExpanded = true →
      ∃ m', turn m (now, .collapseSelected) = some m' ∧ m'.agg = m.agg ∧
        listed m' = (listed m).filter fun row => ¬ StrictlyBelow r.key.stack row.1.stack) := by
  have hrow := (visibleRow_spec m r (List.mem_of_getElem? hr)).1
  constructor
  · refine ⟨m.expandAllSelected, rfl, ?_, listed_expandAllSelected m r hfocus hr⟩
    rw [expandAllSelected_eq m r hfocus hr]
  · intro hexpanded
    refine ⟨m.collapseSelected, rfl, ?_, ?_⟩
    · rw [collapseSelected_eq m r hfocus hr hexpanded]
      rfl
    · rw [collapseSelected_eq m r hfocus hr hexpanded]
      exact listed_collapseBelow m r.key.stack (row_named m.agg hbuilt _ hrow)

/-- INTERNAL: a root, its child, and a root of another name. -/
def familyOps : List AggregatorOp :=
  [.absorb (plainSpan 1 none 7), .absorb (plainSpan 2 (some 1) 3),
    .absorb { plainSpan 3 none 5 with name := "b" }]

/-- INTERNAL: what is built stays so. -/
theorem built_run (ops : List AggregatorOp) (a a' : Aggregator) (h : Built a)
    (hrun : run AggregatorOp.perform a ops = some a') : Built a' :=
  run_invariant AggregatorOp.perform Built
    (fun a op a' h hop => Built.perform a a' op h hop) a ops a' h hrun

/-- INTERNAL: the names of the rows that are visible. -/
def listedStacks (m : ConsoleModel) : List (List String) := (listed m).map fun row => row.1.stack

/-- CODE: core.rs:1033-1112 — `subtree_touched` on the first root of two, which is expanded: the
other root stays as it is. -/
theorem subtree_touched_family :
    ∃ (m : ConsoleModel) (r : VisibleRow), m.visibleRows[m.selected]? = some r ∧
      r.key.stack = ["a"] ∧
      (∃ m', turn m (0, .expandAllSelected) = some m' ∧
        listedStacks m' = [["a"], ["a", "a"], ["b"]]) ∧
      ∃ m', turn m (0, .collapseSelected) = some m' ∧ listedStacks m' = [["a"], ["b"]] := by
  have hends : (run AggregatorOp.perform (Aggregator.new 10) familyOps).bind (fun a =>
      let m : ConsoleModel := { ConsoleModel.new 10 with agg := a, expanded := {["a"]} }
      m.visibleRows[0]?.map fun r => (r.isExpanded, r.key.stack,
        (m.agg.rows.filter fun row =>
          row ∈ listed m ∨ StrictlyBelow r.key.stack row.1.stack).map fun row => row.1.stack,
        ((listed m).filter fun row => ¬ StrictlyBelow r.key.stack row.1.stack).map fun row =>
          row.1.stack)) = some (true, ["a"], [["a"], ["a", "a"], ["b"]], [["a"], ["b"]]) := by
    decide +kernel
  obtain ⟨a, hrun, hrow⟩ := Option.bind_eq_some_iff.mp hends
  obtain ⟨r, hr, hread⟩ := Option.map_eq_some_iff.mp hrow
  simp only [Prod.mk.injEq] at hread
  obtain ⟨hopen, hstack, hexpanded, hcollapsed⟩ := hread
  obtain ⟨⟨m₁, hm₁, -, hlisted₁⟩, hcollapse⟩ := subtree_touched
    { ConsoleModel.new 10 with agg := a, expanded := {["a"]} } 0 r
    (built_run familyOps _ a (Built.new 10) hrun) rfl hr
  obtain ⟨m₂, hm₂, -, hlisted₂⟩ := hcollapse hopen
  refine ⟨_, r, hr, hstack, ⟨m₁, hm₁, ?_⟩, m₂, hm₂, ?_⟩
  · rw [listedStacks, hlisted₁]
    exact hexpanded
  · rw [listedStacks, hlisted₂]
    exact hcollapsed

end TracingConsole.Analysis.Console
