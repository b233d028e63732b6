import TracingConsole.Analysis.StackTable
import TracingConsole.Model.TreeLabel

/-!
# The scans over sorted rows

Both scans of the rows after one stop at the first that leaves a prefix.  In dictionary order
the rows with that prefix stand together, so nothing that the scan looks for comes later: each
scan is a search through all the later rows (`scanChildren_iff`, `scanSibling_iff`), with any
number of rows for one stack.
-/

set_option autoImplicit false

namespace TracingConsole.Analysis.Console

open TracingConsole.Library TracingConsole.Model TracingConsole.Model.ConsoleModel

variable {T : Type}

/-! ## The scan for children -/

/-- INTERNAL: SRCLINE: core.rs:1230-1245 -/
theorem scanChildren_eq (stack : List String) (rows : List (BucketKey × StackStats)) :
    scanChildren stack rows =
      (rows.takeWhile fun row => stack.isPrefixOf row.1.stack).any fun row =>
        stack.length < row.1.stack.length := by
  induction rows with
  | nil => rfl
  | cons row rows ih =>
    unfold scanChildren
    by_cases hpre : stack.isPrefixOf row.1.stack = true
    · rw [List.takeWhile_cons, if_pos hpre, List.any_cons, ← ih, hpre]
      by_cases hlong : stack.length < row.1.stack.length <;> simp [hlong]
    · rw [List.takeWhile_cons, if_neg hpre]
      simp [hpre]

/-- INTERNAL: **the scan finds a longer stack if and only if there is one**: the rows before
have none, since they come first. -/
theorem scanChildren_iff (seen later : List (BucketKey × StackStats))
    (row : BucketKey × StackStats) (h : SortedRows (seen ++ row :: later)) :
    scanChildren row.1.stack later = true ↔
      ∃ other ∈ seen ++ row :: later, row.1.stack <+: other.1.stack ∧
        row.1.stack.length < other.1.stack.length := by
  have hstacks := List.pairwise_append.mp h.stacks
  rw [scanChildren_eq, takeWhile_prefix_eq_filter (fun r : BucketKey × StackStats => r.1.stack)
    row.1.stack row later (List.prefix_refl _) hstacks.2.1]
  simp only [List.any_eq_true, List.mem_filter, decide_eq_true_eq, List.isPrefixOf_iff_prefix]
  constructor
  · intro hfound
    obtain ⟨other, ⟨hin, hpre⟩, hlong⟩ := hfound
    exact ⟨other, List.mem_append_right _ (List.mem_cons_of_mem _ hin), hpre, hlong⟩
  · intro hextends
    obtain ⟨other, hin, hpre, hlong⟩ := hextends
    refine ⟨other, ⟨?_, hpre⟩, hlong⟩
    rcases List.mem_append.mp hin with hseen | hcons
    · -- a row before this one whose stack extends it has the same stack
      have hle := hstacks.2.2 other hseen row List.mem_cons_self
      have hge := compare_prefix row.1.stack other.1.stack hpre
      have heq : row.1.stack = other.1.stack :=
        Std.LawfulEqCmp.eq_of_compare (Std.OrientedCmp.isLE_antisymm hge hle)
      rw [heq] at hlong
      exact absurd hlong (Nat.lt_irrefl _)
    · rcases List.mem_cons.mp hcons with hself | hlater
      · rw [hself] at hlong
        exact absurd hlong (Nat.lt_irrefl _)
      · exact hlater

/-- INTERNAL: **every visible row knows whether it has children**, hidden ones too.
SRCLINE: core.rs:1205-1256 -/
theorem hasChildren_iff (expanded : Finset (List String))
    (seen rows : List (BucketKey × StackStats)) (h : SortedRows (seen ++ rows)) :
    ∀ r ∈ visibleFrom expanded rows,
      (r.hasChildren = true ↔ ∃ other ∈ seen ++ rows, r.key.stack <+: other.1.stack ∧
        r.key.stack.length < other.1.stack.length) := by
  induction rows generalizing seen with
  | nil => exact fun r hr => absurd hr List.not_mem_nil
  | cons row rows ih =>
    have hrest := ih (seen ++ [row]) (by rw [List.append_assoc]; exact h)
    rw [List.append_assoc] at hrest
    intro r hr
    unfold visibleFrom at hr
    dsimp only at hr
    split at hr
    · rcases List.mem_cons.mp hr with hself | hlater
      · rw [hself]
        exact scanChildren_iff seen rows row h
      · exact hrest r hlater
    · exact hrest r hr

/-! ## The scan for siblings -/

/-- INTERNAL: SRCLINE: util.rs:58-75 -/
theorem scanSibling_eq (parent : List String) (needle : String) (d : ℕ)
    (hlen : parent.length = d - 1) (rows : List (BucketKey × T)) :
    scanSibling parent needle d rows =
      (rows.takeWhile fun row => parent.isPrefixOf row.1.stack).any fun row =>
        d ≤ row.1.stack.length ∧ row.1.stack[d - 1]? ≠ some needle := by
  induction rows with
  | nil => rfl
  | cons row rows ih =>
    have hunder : parent.isPrefixOf row.1.stack = true ↔
        ¬ row.1.stack.length < d - 1 ∧ row.1.stack.take (d - 1) = parent := by
      rw [List.isPrefixOf_iff_prefix, List.prefix_iff_eq_take, hlen]
      constructor
      · intro htake
        have hshort := congrArg List.length htake
        rw [List.length_take] at hshort
        exact ⟨by omega, htake.symm⟩
      · exact fun hboth => hboth.2.symm
    unfold scanSibling
    by_cases hpre : parent.isPrefixOf row.1.stack = true
    · obtain ⟨hlong, htake⟩ := hunder.mp hpre
      rw [List.takeWhile_cons, if_pos hpre, List.any_cons, ← ih, if_neg hlong,
        if_neg (not_not.mpr htake)]
      by_cases hd : row.1.stack.length < d
      · have hshort : ¬ d ≤ row.1.stack.length := by omega
        rw [if_pos hd]
        simp [hshort]
      · have hreach : d ≤ row.1.stack.length := by omega
        rw [if_neg hd]
        by_cases hname : row.1.stack[d - 1]? = some needle <;> simp [hname, hreach]
    · rw [List.takeWhile_cons, if_neg hpre, List.any_nil]
      by_cases hlong : row.1.stack.length < d - 1
      · rw [if_pos hlong]
      · rw [if_neg hlong, if_pos fun htake => hpre (hunder.mpr ⟨hlong, htake⟩)]

/-- INTERNAL: a later row agrees with row `i` on the first `d - 1` names, has a `d`-th one and
differs in it. -/
def SiblingLater (rows : List (BucketKey × T)) (i : Fin rows.length) (d : ℕ) : Prop :=
  ∃ other ∈ rows.drop (i + 1), other.1.stack.take (d - 1) = (rows.get i).1.stack.take (d - 1) ∧
    d ≤ other.1.stack.length ∧ other.1.stack[d - 1]? ≠ (rows.get i).1.stack[d - 1]?

/-- INTERNAL: a later sibling can be looked for. -/
instance decidableSiblingLater (rows : List (BucketKey × T)) (i : Fin rows.length) (d : ℕ) :
    Decidable (SiblingLater rows i d) :=
  inferInstanceAs (Decidable (∃ other ∈ rows.drop (i + 1), _))

/-- INTERNAL: **the scan finds a sibling if and only if a later row is one**.
SRCLINE: util.rs:50-77 -/
theorem hasSiblingAfter_iff (rows : List (BucketKey × T)) (h : SortedRows rows)
    (i : Fin rows.length) (d : ℕ) (hpos : 1 ≤ d) (hd : d ≤ rows[i].1.stack.length) :
    hasSiblingAfter rows i d = true ↔ SiblingLater rows i d := by
  have hlen : (rows[i].1.stack.take (d - 1)).length = d - 1 := by
    rw [List.length_take]
    omega
  have hneedle : some (rows[i].1.stack.getD (d - 1) "") = rows[i].1.stack[d - 1]? := by
    rw [List.getD_eq_getElem?_getD, List.getElem?_eq_getElem (by omega)]
    rfl
  have hfrom : rows.drop i = rows[i] :: rows.drop (i + 1) := List.drop_eq_getElem_cons i.isLt
  have hsorted := h.stacks.sublist (List.drop_sublist i rows)
  rw [hfrom] at hsorted
  have hget : rows.get i = rows[i] := rfl
  unfold hasSiblingAfter SiblingLater
  dsimp only
  rw [hget]
  rw [if_neg (by omega), scanSibling_eq _ _ _ hlen, takeWhile_prefix_eq_filter
    (fun r : BucketKey × T => r.1.stack) (rows[i].1.stack.take (d - 1)) rows[i]
    (rows.drop (i + 1)) (List.take_prefix _ _) hsorted, hneedle]
  simp only [List.any_eq_true, List.mem_filter, decide_eq_true_eq, List.isPrefixOf_iff_prefix,
    List.prefix_iff_eq_take, hlen]
  constructor
  · intro hfound
    obtain ⟨other, ⟨hin, htake⟩, hreach, hname⟩ := hfound
    exact ⟨other, hin, htake.symm, hreach, hname⟩
  · intro hsibling
    obtain ⟨other, hin, htake, hreach, hname⟩ := hsibling
    exact ⟨other, ⟨hin, htake.symm⟩, hreach, hname⟩

/-- CODE: core.rs:1230-1245, util.rs:50-77 — **the scans that stop early are exact**: for rows
in the order of their keys, with any stacks and any number of rows for one stack, a visible row
has children if and only if some row's stack is a longer one that extends its stack, and the
scan for a sibling at a depth finds one if and only if a later row agrees above that depth, goes
as deep and has another name there. -/
theorem row_scans_exact (rows : List (BucketKey × StackStats)) (hsorted : SortedRows rows)
    (labelled : List (BucketKey × T)) (hlabelled : SortedRows labelled) :
    (∀ expanded, ∀ r ∈ visibleFrom expanded rows,
      (r.hasChildren = true ↔ ∃ other ∈ rows, r.key.stack <+: other.1.stack ∧
        r.key.stack.length < other.1.stack.length)) ∧
    ∀ (i : Fin labelled.length) (d : ℕ), 1 ≤ d → d ≤ (labelled.get i).1.stack.length →
      (hasSiblingAfter labelled i d = true ↔ SiblingLater labelled i d) :=
  ⟨fun expanded => hasChildren_iff expanded [] rows hsorted,
    fun i d hpos hd => hasSiblingAfter_iff labelled hlabelled i d hpos hd⟩

/-- INTERNAL: two roots, one of them with a row for a split value and two children. -/
def splitRows : List (BucketKey × StackStats) :=
  [(⟨["a"], []⟩, {}), (⟨["a"], [("k", "1")]⟩, {}), (⟨["a", "b"], []⟩, {}),
    (⟨["a", "c"], []⟩, {}), (⟨["d"], []⟩, {})]

/-- INTERNAL: `row_scans_exact` on the rows of two roots. -/
theorem row_scans_exact_split :
    (∀ expanded, ∀ r ∈ visibleFrom expanded splitRows,
      (r.hasChildren = true ↔ ∃ other ∈ splitRows, r.key.stack <+: other.1.stack ∧
        r.key.stack.length < other.1.stack.length)) ∧
    ∀ (i : Fin splitRows.length) (d : ℕ), 1 ≤ d → d ≤ (splitRows.get i).1.stack.length →
      (hasSiblingAfter splitRows i d = true ↔ SiblingLater splitRows i d) :=
  row_scans_exact splitRows (by decide) splitRows (by decide)

end TracingConsole.Analysis.Console
