import TracingConsole.Analysis.Disclosure
import TracingConsole.Analysis.RowScans

/-!
# Keys and the highlighted row

The table highlights the row, and the details pane the key, that the cursor points at, or the
last one when the cursor points past it.  The keys read the cursor as it is.  The two differ
when rows have gone and the cursor is left behind: `keysAct_iff` says when that shows.
-/

set_option autoImplicit false

namespace TracingConsole.Analysis.Console

open TracingConsole.Library TracingConsole.Model TracingConsole.Model.ConsoleModel

/-! ## What is highlighted -/

/-- INTERNAL: the index of the highlighted row.
SRCLINE: table.rs:147-152 -/
def highlighted (m : ConsoleModel) : ℕ := min m.selected (m.visibleRows.length - 1)

/-- INTERNAL: the highlighted candidate key.
SRCLINE: table.rs:411-435 -/
def highlightedKey (m : ConsoleModel) : Option String :=
  m.candidateSplitKeys[min m.detailsSelected (m.candidateSplitKeys.length - 1)]?

/-! ## The keys, on a given row -/

/-- INTERNAL: SRCLINE: core.rs:387-391 -/
def expandOn (m : ConsoleModel) (r : VisibleRow) : ConsoleModel :=
  if r.hasChildren then { m with expanded := insert r.key.stack m.expanded } else m

/-- INTERNAL: SRCLINE: core.rs:399-416 -/
def expandAllOn (m : ConsoleModel) (r : VisibleRow) : ConsoleModel :=
  { m with
    expanded := m.expanded ∪
      (m.agg.rows.flatMap fun row => prefixesBelow r.key.stack row.1.stack).toFinset }

/-- INTERNAL: SRCLINE: core.rs:424-440 -/
def collapseOn (m : ConsoleModel) (r : VisibleRow) : ConsoleModel :=
  if r.isExpanded then m.collapseBelow r.key.stack
  else if 0 < r.depth then
    let parentStack := r.key.stack.dropLast
    let m := m.collapseBelow parentStack
    match m.visibleRows.findIdx? fun row => row.key.stack = parentStack with
    | some idx => { m with selected := idx }
    | none => m
  else m

/-- INTERNAL: SRCLINE: core.rs:460-468 -/
def toggleOn (m : ConsoleModel) (k : String) : Option ConsoleModel :=
  (m.agg.setSplitKeys (toggleKey m.agg.splitKeys k)).map fun agg =>
    { m with agg := agg, expanded := ∅, selected := 0 }

/-- INTERNAL: **the keys act on what is highlighted**: expanding, expanding all and collapsing
on the highlighted row, up on the highlight itself, which stays on the first row, and space on
the highlighted key. -/
structure KeysActOnHighlight (m : ConsoleModel) : Prop where
  expand : m.focus = .stacks → ∀ r, m.selectedVisibleRow = some r → ∀ now,
    turn m (now, .expandSelected) = some (expandOn m r)
  expandAll : m.focus = .stacks → ∀ r, m.selectedVisibleRow = some r → ∀ now,
    turn m (now, .expandAllSelected) = some (expandAllOn m r)
  collapse : m.focus = .stacks → ∀ r, m.selectedVisibleRow = some r → ∀ now,
    turn m (now, .collapseSelected) = some (collapseOn m r)
  up : m.focus = .stacks → m.visibleRows ≠ [] → ∀ now, ∃ m',
    turn m (now, .selectUp) = some m' ∧ m'.visibleRows = m.visibleRows ∧
      highlighted m' = highlighted m - 1
  toggle : m.focus = .details → ∀ k, highlightedKey m = some k → ∀ now,
    turn m (now, .toggleSplitSelected) = toggleOn m k

/-- INTERNAL: nothing to expand or to collapse. -/
def Leaf (r : VisibleRow) : Prop :=
  r.depth = 0 ∧ r.hasChildren = false ∧ r.isExpanded = false

/-- INTERNAL: **the cursor points at a row**, or past the only one and that is a leaf; in the
details pane it points at a key. -/
def CursorFits (m : ConsoleModel) : Prop :=
  (m.focus = .stacks → m.visibleRows = [] ∨ m.selected < m.visibleRows.length ∨
    ∃ r, m.visibleRows = [r] ∧ Leaf r) ∧
  (m.focus = .details → m.candidateSplitKeys = [] ∨
    m.detailsSelected < m.candidateSplitKeys.length)

/-! ## The keys, on the cursor -/

/-- INTERNAL: with the focus on the stacks, the highlighted row is unfolded. -/
theorem expandSelected_on (m : ConsoleModel) (hfocus : m.focus = .stacks) :
    m.expandSelected = (m.visibleRows[m.selected]?).elim m (expandOn m) := by
  unfold expandSelected
  rw [if_pos hfocus]
  cases m.visibleRows[m.selected]? <;> rfl

/-- INTERNAL: or unfolded with all below it. -/
theorem expandAllSelected_on (m : ConsoleModel) (hfocus : m.focus = .stacks) :
    m.expandAllSelected = (m.visibleRows[m.selected]?).elim m (expandAllOn m) := by
  unfold expandAllSelected
  rw [if_neg (not_not.mpr hfocus)]
  cases m.visibleRows[m.selected]? <;> rfl

/-- INTERNAL: or folded. -/
theorem collapseSelected_on (m : ConsoleModel) (hfocus : m.focus = .stacks) :
    m.collapseSelected = (m.visibleRows[m.selected]?).elim m (collapseOn m) := by
  unfold collapseSelected
  rw [if_neg (not_not.mpr hfocus)]
  cases m.visibleRows[m.selected]? <;> rfl

/-- INTERNAL: with the focus on the details, the highlighted key is split by. -/
theorem toggleSplitSelected_on (m : ConsoleModel) (hfocus : m.focus = .details) :
    m.toggleSplitSelected =
      (m.candidateSplitKeys[m.detailsSelected]?).elim (some m) (toggleOn m) := by
  unfold toggleSplitSelected
  rw [if_neg (not_not.mpr hfocus)]
  cases m.candidateSplitKeys[m.detailsSelected]? <;> rfl

/-- INTERNAL: the selection goes up from the highlighted row. -/
theorem selectUp_on (m : ConsoleModel) (hfocus : m.focus = .stacks) (hrows : m.visibleRows ≠ []) :
    m.selectUp = { m with selected := m.selected - 1 } := by
  have hlen : m.currentPaneLen ≠ 0 := by
    unfold currentPaneLen
    rw [hfocus]
    exact List.length_pos_iff.mpr hrows |>.ne'
  unfold selectUp setCurrentSelected currentSelected
  rw [if_neg hlen, hfocus]

/-- INTERNAL: within the rows the highlight is the cursor. -/
theorem selectedVisibleRow_of_lt (m : ConsoleModel) (h : m.selected < m.visibleRows.length) :
    m.selectedVisibleRow = m.visibleRows[m.selected]? := by
  have hmin : min m.selected (m.visibleRows.length - 1) = m.selected := by omega
  unfold selectedVisibleRow
  dsimp only
  rw [hmin]

/-! ## What a visible row says -/

/-- INTERNAL: a row is drawn unfolded if its stack is. -/
theorem visibleFrom_isExpanded (expanded : Finset (List String))
    (rows : List (BucketKey × StackStats)) :
    ∀ r ∈ visibleFrom expanded rows, (r.isExpanded = true ↔ r.key.stack ∈ expanded) := by
  induction rows with
  | nil => exact fun r hr => absurd hr List.not_mem_nil
  | cons row rows ih =>
    intro r hr
    unfold visibleFrom at hr
    dsimp only at hr
    split at hr
    · rcases List.mem_cons.mp hr with hself | hlater
      · rw [hself]
        exact decide_eq_true_iff
      · exact ih r hlater
    · exact ih r hr

/-- INTERNAL: below a row without children nothing is expanded. -/
theorem expandAllOn_leaf (m : ConsoleModel) (r : VisibleRow) (hr : r ∈ m.visibleRows)
    (hleaf : r.hasChildren = false) : expandAllOn m r = m := by
  have hnone : (m.agg.rows.flatMap fun row => prefixesBelow r.key.stack row.1.stack) = [] := by
    rw [List.flatMap_eq_nil_iff]
    intro row hrow
    rw [List.eq_nil_iff_forall_not_mem]
    intro s hs
    obtain ⟨hunder, -⟩ := (mem_prefixesBelow _ _ _).mp hs
    have hchildren := (hasChildren_iff m.expanded [] m.agg.rows (sortedRows_rows m.agg) r hr).mpr
      ⟨row, hrow, hunder.1, hunder.2⟩
    rw [hleaf] at hchildren
    cases hchildren
  unfold expandAllOn
  rw [hnone, List.toFinset_nil, Finset.union_empty]

/-- INTERNAL: collapsing a stack that is expanded changes the expanded ones. -/
theorem collapseBelow_changes (m : ConsoleModel) (stack : List String)
    (h : stack ∈ m.expanded) : (m.collapseBelow stack).expanded ≠ m.expanded := by
  intro hsame
  have hin : stack ∈ (m.collapseBelow stack).expanded := by rwa [hsame]
  have hkept := (Finset.mem_filter.mp hin).2
  rw [List.isPrefixOf_iff_prefix.mpr (List.prefix_refl stack)] at hkept
  cases hkept

/-- INTERNAL: collapsing is without effect on a root that is not expanded only. -/
theorem collapseOn_idle (m : ConsoleModel) (r : VisibleRow) (hr : r ∈ m.visibleRows)
    (hidle : collapseOn m r = m) : r.isExpanded = false ∧ r.depth = 0 := by
  have hexpanded : r.isExpanded = false := by
    by_contra hopen
    have hopen := eq_true_of_ne_false hopen
    unfold collapseOn at hidle
    rw [if_pos hopen] at hidle
    have hmem := (visibleFrom_isExpanded m.expanded m.agg.rows r hr).mp hopen
    exact collapseBelow_changes m _ hmem (congrArg ConsoleModel.expanded hidle)
  refine ⟨hexpanded, ?_⟩
  by_contra hdeep
  have hdepth := (visibleFrom_eq m.expanded m.agg.rows).2 r hr
  -- the parent of a visible row is expanded
  have hparent : r.key.stack.dropLast ∈ m.expanded := by
    rw [List.dropLast_eq_take]
    exact (visibleRow_spec m r hr).2 (r.key.stack.length - 1) (by omega) (by omega)
  have hafter : (collapseOn m r).expanded =
      (m.collapseBelow r.key.stack.dropLast).expanded := by
    unfold collapseOn
    rw [hexpanded, if_neg (by simp), if_pos (Nat.pos_of_ne_zero hdeep)]
    dsimp only
    split <;> rfl
  rw [hidle] at hafter
  exact collapseBelow_changes m _ hparent hafter.symm

/-- INTERNAL: a key that is toggled changes the keys. -/
theorem toggleKey_ne (keys : Finset String) (k : String) : toggleKey keys k ≠ keys := by
  unfold toggleKey
  split
  · next hin =>
    intro hsame
    rw [← hsame] at hin
    exact Finset.notMem_erase k keys hin
  · next hout =>
    intro hsame
    rw [← hsame] at hout
    exact hout (Finset.mem_insert_self k keys)

/-- INTERNAL: toggling a key is never without effect. -/
theorem toggleOn_ne (m : ConsoleModel) (k : String) : toggleOn m k ≠ some m := by
  intro hidle
  obtain ⟨a, ha, heq⟩ := Option.map_eq_some_iff.mp hidle
  have hkeys := setSplitKeys_keys m.agg a _ ha
  have hagg : a = m.agg := congrArg ConsoleModel.agg heq
  rw [hagg] at hkeys
  exact toggleKey_ne m.agg.splitKeys k hkeys.symm

/-- INTERNAL: the turn of the split key. -/
theorem turn_toggleSplitSelected (m : ConsoleModel) (now : ℕ) :
    turn m (now, .toggleSplitSelected) = m.toggleSplitSelected := by
  have hturn : turn m (now, .toggleSplitSelected) =
      (m.toggleSplitSelected.bind quiet).map Prod.fst := rfl
  rw [hturn]
  cases m.toggleSplitSelected <;> rfl

/-! ## Exactly when they agree -/

/-- INTERNAL: where the cursor is, when a row is highlighted. -/
theorem cursor_cases (m : ConsoleModel) (r : VisibleRow) (h : CursorFits m)
    (hfocus : m.focus = .stacks) (hr : m.selectedVisibleRow = some r) :
    m.visibleRows[m.selected]? = some r ∨
      m.visibleRows[m.selected]? = none ∧ r ∈ m.visibleRows ∧ Leaf r := by
  have hmem : r ∈ m.visibleRows := List.mem_of_getElem? hr
  rcases h.1 hfocus with hnone | hlt | ⟨only, honly, hleaf⟩
  · rw [hnone] at hmem
    exact absurd hmem List.not_mem_nil
  · rw [selectedVisibleRow_of_lt m hlt] at hr
    exact Or.inl hr
  · by_cases hlt : m.selected < m.visibleRows.length
    · rw [selectedVisibleRow_of_lt m hlt] at hr
      exact Or.inl hr
    · refine Or.inr ⟨List.getElem?_eq_none (Nat.le_of_not_lt hlt), hmem, ?_⟩
      rw [honly, List.mem_singleton] at hmem
      rw [hmem]
      exact hleaf

/-- INTERNAL: a cursor that fits is as good as the highlight. -/
theorem keysAct_of_fits (m : ConsoleModel) (h : CursorFits m) : KeysActOnHighlight m where
  expand hfocus r hr now := by
    have hturn : turn m (now, .expandSelected) = some m.expandSelected := rfl
    rw [hturn, expandSelected_on m hfocus]
    rcases cursor_cases m r h hfocus hr with hat | ⟨hpast, -, hleaf⟩
    · rw [hat]
      rfl
    · rw [hpast, expandOn, hleaf.2.1]
      rfl
  expandAll hfocus r hr now := by
    have hturn : turn m (now, .expandAllSelected) = some m.expandAllSelected := rfl
    rw [hturn, expandAllSelected_on m hfocus]
    rcases cursor_cases m r h hfocus hr with hat | ⟨hpast, hmem, hleaf⟩
    · rw [hat]
      rfl
    · rw [hpast, expandAllOn_leaf m r hmem hleaf.2.1]
      rfl
  collapse hfocus r hr now := by
    have hturn : turn m (now, .collapseSelected) = some m.collapseSelected := rfl
    rw [hturn, collapseSelected_on m hfocus]
    rcases cursor_cases m r h hfocus hr with hat | ⟨hpast, -, hleaf⟩
    · rw [hat]
      rfl
    · rw [hpast, collapseOn, hleaf.2.2, hleaf.1]
      rfl
  up hfocus hrows now := by
    have hturn : turn m (now, .selectUp) = some m.selectUp := rfl
    refine ⟨{ m with selected := m.selected - 1 }, ?_, rfl, ?_⟩
    · rw [hturn, selectUp_on m hfocus hrows]
    · change min (m.selected - 1) (m.visibleRows.length - 1) =
        min m.selected (m.visibleRows.length - 1) - 1
      rcases h.1 hfocus with hnone | hlt | ⟨only, honly, -⟩
      · exact absurd hnone hrows
      · omega
      · rw [honly, List.length_singleton]
        omega
  toggle hfocus k hk now := by
    have hin := List.mem_of_getElem? hk
    have hlt : m.detailsSelected < m.candidateSplitKeys.length := by
      refine (h.2 hfocus).resolve_left fun hnone => ?_
      rw [hnone] at hin
      exact absurd hin List.not_mem_nil
    have hmin : min m.detailsSelected (m.candidateSplitKeys.length - 1) = m.detailsSelected := by
      omega
    unfold highlightedKey at hk
    rw [hmin] at hk
    rw [turn_toggleSplitSelected, toggleSplitSelected_on m hfocus, hk]
    rfl

/-- INTERNAL: with the cursor past the rows, a key that acts on the highlight shows it. -/
theorem fits_of_keysAct (m : ConsoleModel) (h : KeysActOnHighlight m) : CursorFits m := by
  constructor
  · intro hfocus
    by_cases hrows : m.visibleRows = []
    · exact Or.inl hrows
    · by_cases hlt : m.selected < m.visibleRows.length
      · exact Or.inr (Or.inl hlt)
      · have hpast : m.visibleRows[m.selected]? = none :=
          List.getElem?_eq_none (Nat.le_of_not_lt hlt)
        -- up leaves the highlight on the last row, so that is the only one
        have hone : m.visibleRows.length = 1 := by
          obtain ⟨m', hturn, hsame, hup⟩ := h.up hfocus hrows 0
          have hm' : m.selectUp = m' := Option.some.inj hturn
          rw [selectUp_on m hfocus hrows] at hm'
          have hpos := List.length_pos_iff.mpr hrows
          unfold highlighted at hup
          rw [hsame, ← hm'] at hup
          dsimp only at hup
          omega
        obtain ⟨r, honly⟩ := List.length_eq_one_iff.mp hone
        have hmem : r ∈ m.visibleRows := by
          rw [honly]
          exact List.mem_singleton_self r
        have hhighlight : m.selectedVisibleRow = some r := by
          unfold selectedVisibleRow
          dsimp only
          rw [honly, List.length_singleton, Nat.sub_self, Nat.min_zero]
          rfl
        have hcollapse : collapseOn m r = m := by
          have hturn : some m.collapseSelected = some (collapseOn m r) :=
            h.collapse hfocus r hhighlight 0
          rw [collapseSelected_on m hfocus, hpast] at hturn
          exact (Option.some.inj hturn).symm
        have hexpand : expandOn m r = m := by
          have hturn : some m.expandSelected = some (expandOn m r) :=
            h.expand hfocus r hhighlight 0
          rw [expandSelected_on m hfocus, hpast] at hturn
          exact (Option.some.inj hturn).symm
        obtain ⟨hclosed, htop⟩ := collapseOn_idle m r hmem hcollapse
        refine Or.inr (Or.inr ⟨r, honly, htop, ?_, hclosed⟩)
        by_contra hchildren
        unfold expandOn at hexpand
        rw [if_pos (eq_true_of_ne_false hchildren)] at hexpand
        have hin : r.key.stack ∈ m.expanded := by
          rw [← congrArg ConsoleModel.expanded hexpand]
          exact Finset.mem_insert_self _ _
        have hopen := (visibleFrom_isExpanded m.expanded m.agg.rows r hmem).mpr hin
        rw [hclosed] at hopen
        cases hopen
  · intro hfocus
    by_contra hnot
    push Not at hnot
    obtain ⟨hkeys, hpast⟩ := hnot
    have hpos := List.length_pos_iff.mpr hkeys
    have hmin : min m.detailsSelected (m.candidateSplitKeys.length - 1) <
        m.candidateSplitKeys.length := by
      omega
    have htoggle := h.toggle hfocus _ (List.getElem?_eq_getElem hmin) 0
    rw [turn_toggleSplitSelected, toggleSplitSelected_on m hfocus,
      List.getElem?_eq_none hpast] at htoggle
    exact toggleOn_ne m _ htoggle.symm

/-- INTERNAL: **the keys act on the highlight if and only if the cursor fits**. -/
theorem keysAct_iff (m : ConsoleModel) : KeysActOnHighlight m ↔ CursorFits m :=
  ⟨fits_of_keysAct m, keysAct_of_fits m⟩

/-- CODE: core.rs:364-470, 1261-1295, table.rs:147-152, 411-435 — **keys and the highlight**:
over every run of updates, the keys act on the highlighted row and the highlighted key in every
state of the table view that is reached if and only if in every such state the cursor points at
a row (or past a single row, a root with nothing to expand or to collapse), and in the details
pane at a key. -/
theorem keys_act_on_highlight_iff (budget : ℕ) (updates : List (ℕ × Update)) :
    (∀ seen m, seen <+: updates → run turn (ConsoleModel.new budget) seen = some m →
      m.view = .table → KeysActOnHighlight m) ↔
    ∀ seen m, seen <+: updates → run turn (ConsoleModel.new budget) seen = some m →
      m.view = .table → CursorFits m := by
  constructor
  · intro hacts seen m hseen hrun hview
    exact (keysAct_iff m).mp (hacts seen m hseen hrun hview)
  · intro hfits seen m hseen hrun hview
    exact (keysAct_iff m).mpr (hfits seen m hseen hrun hview)

/-- INTERNAL: two roots, the second one with a child and selected; the first one is evicted. -/
def shrinkingUpdates : List (ℕ × Update) :=
  [(0, .spanReceived (plainSpan 1 none 7)),
    (0, .spanReceived { plainSpan 2 none 7 with name := "b" }),
    (0, .spanReceived (plainSpan 3 (some 2) 5)), (0, .selectDown),
    (0, .spanReceived { plainSpan 4 none 7 with name := "b" })]

/-- INTERNAL: the table is shown. -/
def showsTable : ViewMode → Bool
  | .table => true
  | _ => false

/-- INTERNAL: the view, the focus, the cursor and the visible rows by whether they have
children. -/
def cursorRead (m : ConsoleModel) : Bool × Bool × ℕ × List Bool :=
  (showsTable m.view, m.focus = .stacks, m.selected, m.visibleRows.map VisibleRow.hasChildren)

/-- CODE: core.rs:384-393, state.rs:321-364 — the row above the selected one is evicted: the
cursor points past the only row left, which is highlighted and has a child, and the keys do not
act on it. -/
theorem keys_miss_highlight :
    ∃ m, run turn (ConsoleModel.new 3) shrinkingUpdates = some m ∧ m.view = .table ∧
      m.visibleRows.length = 1 ∧ ¬ KeysActOnHighlight m := by
  have hafter : (run turn (ConsoleModel.new 3) shrinkingUpdates).map cursorRead =
      some (true, true, 1, [true]) := by
    decide +kernel
  obtain ⟨m, hrun, hread⟩ := Option.map_eq_some_iff.mp hafter
  obtain ⟨htable, hrest⟩ := Prod.mk.inj hread
  obtain ⟨hfocus, hrest⟩ := Prod.mk.inj hrest
  obtain ⟨hselected, hrows⟩ := Prod.mk.inj hrest
  have hlen : m.visibleRows.length = 1 := by
    have hlength := congrArg List.length hrows
    rwa [List.length_map] at hlength
  have hview : m.view = .table := by
    cases hshown : m.view with
    | table => rfl
    | _ =>
      rw [hshown] at htable
      cases htable
  refine ⟨m, hrun, hview, hlen, fun hacts => ?_⟩
  rcases (fits_of_keysAct m hacts).1 (of_decide_eq_true hfocus) with hnone | hlt | ⟨r, honly, hleaf⟩
  · rw [hnone] at hlen
    cases hlen
  · omega
  · rw [honly, List.map_singleton, hleaf.2.1] at hrows
    cases hrows

end TracingConsole.Analysis.Console
