import TracingConsole.Analysis.Panel
import TracingConsole.Analysis.ViewMoves
import TracingConsole.Library.Runs
import TracingConsole.Model.Keyboard

/-!
# The open prompts

A prompt with a text owns a buffer: the chance prompt one of the console, the others one of the
view.  `apply_buffers` says once what an update makes of all of them: a buffer that is open
afterwards was just opened, or was open before and has been edited.
-/

set_option autoImplicit false

namespace TracingConsole.Analysis.Console

open TracingConsole.Model TracingConsole.Model.ConsoleModel

/-! ## Buffers -/

/-- INTERNAL: the prompt an update may open.
SRCLINE: core.rs:467, 563, 622, 653, 962, 1136 -/
def opens : Update → Option ModalKind
  | .beginChanceInput => some .chance
  | .beginGraphAggInput => some .graphAgg
  | .beginGraphWindowInput => some .graphWindow
  | .beginGraphLookbackInput => some .graphLookback
  | .beginExploreSearch => some .exploreSearch
  | .beginConfirmVersionSwitch => some .confirmVersionSwitch
  | _ => none

/-- INTERNAL: a buffer without its last character. -/
def shortened (buf : String) : String := String.ofList buf.toList.dropLast

/-- INTERNAL: what an update makes of the buffer of a prompt. -/
def edit (p : ModalKind) (buf : String) : Update → String
  | .chanceInputChar c => if p = .chance then (pushDigitOrDecimal buf c).getD buf else buf
  | .chanceInputBackspace => if p = .chance then shortened buf else buf
  | .graphAggInputChar c => if p = .graphAgg then aggInputChar buf c else buf
  | .graphAggInputBackspace => if p = .graphAgg then shortened buf else buf
  | .graphWindowInputChar c =>
    if p = .graphWindow then (pushDigitOrDecimal buf c).getD buf else buf
  | .graphWindowInputBackspace => if p = .graphWindow then shortened buf else buf
  | .graphLookbackInputChar c => if p = .graphLookback then lookbackInputChar buf c else buf
  | .graphLookbackInputBackspace => if p = .graphLookback then shortened buf else buf
  | .exploreSearchChar c =>
    if p = .exploreSearch then (if isControl c then buf else buf.push c) else buf
  | .exploreSearchBackspace => if p = .exploreSearch then shortened buf else buf
  | _ => buf

/-- INTERNAL: what becomes of one buffer: it was just opened, or it is kept or edited. -/
def SlotFollows (u : Update) (p : ModalKind) (old new : Option String) : Prop :=
  ∀ text, new = some text →
    (opens u = some p ∧ text = "") ∨
      ∃ buf, old = some buf ∧ (text = buf ∨ text = edit p buf u)

section Slot

variable (u : Update) (p : ModalKind) (old : Option String)

/-- INTERNAL: a prompt may be closed by any update. -/
theorem SlotFollows.closed : SlotFollows u p old none := by
  intro text htext
  cases htext

/-- INTERNAL: a prompt may be left as it is. -/
theorem SlotFollows.kept : SlotFollows u p old old := by
  intro text htext
  exact Or.inr ⟨text, htext, Or.inl rfl⟩

/-- INTERNAL: a text edited as the prompt's update edits it. -/
theorem SlotFollows.edited (f : String → String) (hf : ∀ buf, edit p buf u = f buf) :
    SlotFollows u p old (old.map f) := by
  intro text htext
  obtain ⟨buf, hbuf, hedit⟩ := Option.map_eq_some_iff.mp htext
  exact Or.inr ⟨buf, hbuf, Or.inr (by rw [hf, hedit])⟩

/-- INTERNAL: an update that opens the prompt opens it empty. -/
theorem SlotFollows.opened (hopens : opens u = some p) : SlotFollows u p old openModal := by
  intro text htext
  exact Or.inl ⟨hopens, (Option.some.inj htext).symm⟩

end Slot

/-! ## The buffers of a view -/

/-- INTERNAL: a buffer, if it is open. -/
def slot (p : ModalKind) (input : Option String) : List (ModalKind × String) :=
  input.toList.map fun buf => (p, buf)

/-- INTERNAL: the text of a slot is its prompt's, if it is open. -/
theorem mem_slot (p q : ModalKind) (input : Option String) (text : String) :
    (q, text) ∈ slot p input ↔ q = p ∧ input = some text := by
  unfold slot
  cases input with
  | none => simp
  | some buf => simp [eq_comm]

/-- INTERNAL: the texts being typed over the chart. -/
def graphBuffers (gs : GraphState) : List (ModalKind × String) :=
  slot .graphAgg gs.aggInput ++ slot .graphWindow gs.windowInput ++
    slot .graphLookback gs.lookbackInput

/-- INTERNAL: the open buffers of a view.  The list under a trace keeps its own. -/
def viewBuffers : ViewMode → List (ModalKind × String)
  | .table => []
  | .graph gs => graphBuffers gs
  | .explore es => slot .exploreSearch es.searchInput
  | .traceDetail td => slot .exploreSearch td.explore.searchInput

/-- INTERNAL: the open buffers, the one the keys go to first. -/
def openBuffers (m : ConsoleModel) : List (ModalKind × String) :=
  slot .chance m.chanceInput ++ viewBuffers m.view

/-- INTERNAL: **what an update makes of the open buffers**. -/
def Follows (u : Update) (old new : List (ModalKind × String)) : Prop :=
  ∀ p text, (p, text) ∈ new →
    (opens u = some p ∧ text = "") ∨
      ∃ buf, (p, buf) ∈ old ∧ (text = buf ∨ text = edit p buf u)

section Follows

variable (u : Update)

/-- INTERNAL: closing every prompt follows. -/
theorem Follows.nil (old : List (ModalKind × String)) : Follows u old [] := by
  intro p text hmem
  cases hmem

/-- INTERNAL: leaving every prompt follows. -/
theorem Follows.kept (old : List (ModalKind × String)) : Follows u old old := by
  intro p text hmem
  exact Or.inr ⟨text, hmem, Or.inl rfl⟩

/-- INTERNAL: one prompt that follows. -/
theorem Follows.slot (p : ModalKind) (old new : Option String) (h : SlotFollows u p old new) :
    Follows u (Console.slot p old) (Console.slot p new) := by
  intro q text hmem
  obtain ⟨hq, htext⟩ := (mem_slot p q new text).mp hmem
  subst hq
  refine (h text htext).imp_right fun hedited => ?_
  obtain ⟨buf, hbuf, hedit⟩ := hedited
  exact ⟨buf, (mem_slot q q old buf).mpr ⟨rfl, hbuf⟩, hedit⟩

/-- INTERNAL: prompts that follow, side by side. -/
theorem Follows.append (old old' new new' : List (ModalKind × String)) (h : Follows u old new)
    (h' : Follows u old' new') : Follows u (old ++ old') (new ++ new') := by
  intro p text hmem
  rcases List.mem_append.mp hmem with hleft | hright
  · refine (h p text hleft).imp_right fun hedited => ?_
    obtain ⟨buf, hbuf, hedit⟩ := hedited
    exact ⟨buf, List.mem_append_left _ hbuf, hedit⟩
  · refine (h' p text hright).imp_right fun hedited => ?_
    obtain ⟨buf, hbuf, hedit⟩ := hedited
    exact ⟨buf, List.mem_append_right _ hbuf, hedit⟩

/-- INTERNAL: the three buffers of a graph. -/
theorem Follows.graph (gs gs' : GraphState)
    (hagg : SlotFollows u .graphAgg gs.aggInput gs'.aggInput)
    (hwindow : SlotFollows u .graphWindow gs.windowInput gs'.windowInput)
    (hlookback : SlotFollows u .graphLookback gs.lookbackInput gs'.lookbackInput) :
    Follows u (graphBuffers gs) (graphBuffers gs') := by
  have hfirst := Follows.append u _ _ _ _ (Follows.slot u _ _ _ hagg) (Follows.slot u _ _ _ hwindow)
  exact Follows.append u _ _ _ _ hfirst (Follows.slot u _ _ _ hlookback)

/-- INTERNAL: only the aggregation prompt moved. -/
theorem Follows.aggInput (gs gs' : GraphState)
    (h : SlotFollows u .graphAgg gs.aggInput gs'.aggInput)
    (hwindow : gs'.windowInput = gs.windowInput)
    (hlookback : gs'.lookbackInput = gs.lookbackInput) :
    Follows u (graphBuffers gs) (graphBuffers gs') :=
  Follows.graph u gs gs' h (hwindow ▸ SlotFollows.kept u _ _) (hlookback ▸ SlotFollows.kept u _ _)

/-- INTERNAL: only the window prompt moved. -/
theorem Follows.windowInput (gs gs' : GraphState)
    (h : SlotFollows u .graphWindow gs.windowInput gs'.windowInput)
    (hagg : gs'.aggInput = gs.aggInput) (hlookback : gs'.lookbackInput = gs.lookbackInput) :
    Follows u (graphBuffers gs) (graphBuffers gs') :=
  Follows.graph u gs gs' (hagg ▸ SlotFollows.kept u _ _) h (hlookback ▸ SlotFollows.kept u _ _)

/-- INTERNAL: only the lookback prompt moved. -/
theorem Follows.lookbackInput (gs gs' : GraphState)
    (h : SlotFollows u .graphLookback gs.lookbackInput gs'.lookbackInput)
    (hagg : gs'.aggInput = gs.aggInput) (hwindow : gs'.windowInput = gs.windowInput) :
    Follows u (graphBuffers gs) (graphBuffers gs') :=
  Follows.graph u gs gs' (hagg ▸ SlotFollows.kept u _ _) (hwindow ▸ SlotFollows.kept u _ _) h

end Follows

/-- INTERNAL: two graphs with the same buffers. -/
structure SameInputs (gs gs' : GraphState) : Prop where
  aggInput : gs'.aggInput = gs.aggInput
  windowInput : gs'.windowInput = gs.windowInput
  lookbackInput : gs'.lookbackInput = gs.lookbackInput

/-- INTERNAL: the same inputs are the same texts. -/
theorem SameInputs.buffers (gs gs' : GraphState) (h : SameInputs gs gs') :
    graphBuffers gs' = graphBuffers gs := by
  unfold graphBuffers
  rw [h.aggInput, h.windowInput, h.lookbackInput]

/-- INTERNAL: filling the chart again leaves the prompts. -/
theorem rehydrate_inputs (agg : Aggregator) (gs gs' : GraphState)
    (h : gs.rehydrate agg = some gs') : SameInputs gs gs' := by
  rw [rehydrate_eq] at h
  obtain ⟨store, -, hgs'⟩ := Option.map_eq_some_iff.mp h
  subst hgs'
  exact ⟨rfl, rfl, rfl⟩

/-- INTERNAL: recording a span in the chart leaves the prompts. -/
theorem recordInserted_inputs (agg : Aggregator) (gs gs' : GraphState) (id : ℕ)
    (h : recordInserted agg gs id = some gs') : SameInputs gs gs' := by
  unfold recordInserted at h
  split at h
  · rw [recordId_eq] at h
    obtain ⟨store, -, hgs'⟩ := Option.map_eq_some_iff.mp h
    subst hgs'
    exact ⟨rfl, rfl, rfl⟩
  · cases h
    exact ⟨rfl, rfl, rfl⟩

/-- INTERNAL: so does recording several. -/
theorem recordAll_inputs (agg : Aggregator) (ids : List ℕ) (gs gs' : GraphState)
    (h : ids.foldlM (recordInserted agg) gs = some gs') : SameInputs gs gs' := by
  refine Library.run_invariant (recordInserted agg) (SameInputs gs) ?_ gs ids gs'
    ⟨rfl, rfl, rfl⟩ h
  intro gs₁ id gs₂ h₁ hstep
  have h₂ := recordInserted_inputs agg gs₁ gs₂ id hstep
  exact ⟨h₂.aggInput.trans h₁.aggInput, h₂.windowInput.trans h₁.windowInput,
    h₂.lookbackInput.trans h₁.lookbackInput⟩

/-! ## The arms -/

/-- INTERNAL: the buffers of the views before and after. -/
abbrev ViewFollows (u : Update) (m m' : ConsoleModel) : Prop :=
  Follows u (viewBuffers m.view) (viewBuffers m'.view)

section Arms

variable (u : Update) (m m' : ConsoleModel)

/-- INTERNAL: a view that stays follows. -/
theorem follows_same (hview : m'.view = m.view) : ViewFollows u m m' := by
  unfold ViewFollows
  rw [hview]
  exact Follows.kept u _

/-- INTERNAL: a chart that stays one follows if its prompts do. -/
theorem follows_graph (gs gs' : GraphState) (hview : m.view = .graph gs)
    (hview' : m'.view = .graph gs') (h : Follows u (graphBuffers gs) (graphBuffers gs')) :
    ViewFollows u m m' := by
  unfold ViewFollows
  rw [hview, hview']
  exact h

/-- INTERNAL: an edit of the chart follows if it does on every chart. -/
theorem follows_mapGraph (f : GraphState → GraphState)
    (hf : ∀ gs, Follows u (graphBuffers gs) (graphBuffers (f gs))) :
    ViewFollows u m (m.mapGraph f) := by
  unfold mapGraph
  split
  · next gs hview => exact follows_graph u m _ gs (f gs) hview rfl (hf gs)
  · exact follows_same u m m rfl

/-- INTERNAL: an edit of the list follows if its search prompt does. -/
theorem follows_mapExplore (f : ExploreState → ExploreState)
    (hf : ∀ es, SlotFollows u .exploreSearch es.searchInput (f es).searchInput) :
    ViewFollows u m (m.mapExplore f) := by
  unfold ViewFollows mapExplore
  split
  · next es hview =>
    rw [hview]
    exact Follows.slot u _ _ _ (hf es)
  · exact follows_same u m m rfl

/-- INTERNAL: an edit of the trace leaves the search prompt behind it. -/
theorem follows_mapTraceDetail (f : TraceDetailState → TraceDetailState)
    (hf : ∀ td, (f td).explore = td.explore) : ViewFollows u m (m.mapTraceDetail f) := by
  unfold ViewFollows mapTraceDetail
  split
  · next td hview =>
    rw [hview]
    show Follows u (slot _ _) (slot _ (f td).explore.searchInput)
    rw [hf td]
    exact Follows.kept u _
  · exact follows_same u m m rfl

/-- INTERNAL: an edit of the chart that fills it again. -/
theorem follows_regraph (f : GraphState → GraphState)
    (hf : ∀ gs, Follows u (graphBuffers gs) (graphBuffers (f gs))) (h : m.regraph f = some m') :
    ViewFollows u m m' := by
  unfold regraph at h
  split at h
  · next gs hview =>
    obtain ⟨gs', hgs', hm'⟩ := Option.map_eq_some_iff.mp h
    subst hm'
    refine follows_graph u m _ gs gs' hview rfl ?_
    rw [(rehydrate_inputs m.agg _ gs' hgs').buffers]
    exact hf gs
  · cases h
    exact follows_same u m m rfl

/-- INTERNAL: an arm that leaves the buffers of the graph alone. -/
theorem graph_kept (gs gs' : GraphState) (h : SameInputs gs gs') :
    Follows u (graphBuffers gs) (graphBuffers gs') := by
  rw [h.buffers]
  exact Follows.kept u _

/-- INTERNAL: a graph that is just opened has no buffers. -/
theorem follows_new (locked : List String) (gs' : GraphState)
    (h : (GraphState.new locked).rehydrate m.agg = some gs') (hview' : m'.view = .graph gs') :
    ViewFollows u m m' := by
  unfold ViewFollows
  rw [hview']
  show Follows u _ (graphBuffers gs')
  rw [(rehydrate_inputs m.agg _ gs' h).buffers]
  exact Follows.nil u _

/-- INTERNAL: the table has no prompt of its own. -/
theorem follows_table (hview' : m'.view = .table) : ViewFollows u m m' := by
  unfold ViewFollows
  rw [hview']
  exact Follows.nil u _

/-- INTERNAL: a span that arrives leaves every prompt. -/
theorem follows_spanReceived (now : ℕ) (span : WireSpan) (h : m.spanReceived now span = some m') :
    ViewFollows u m m' := by
  obtain ⟨r, -, hview⟩ := Option.bind_eq_some_iff.mp h
  dsimp only at hview
  split at hview
  · next gs hgraph =>
    obtain ⟨gs', hgs', hm'⟩ := Option.map_eq_some_iff.mp hview
    subst hm'
    exact follows_graph u m _ gs gs' hgraph rfl
      (graph_kept u gs gs' (recordAll_inputs r.1 r.2 gs gs' hgs'))
  · cases hview
    exact follows_same u m _ rfl

/-- INTERNAL: a split leaves every prompt. -/
theorem follows_toggleSplitSelected (h : m.toggleSplitSelected = some m') :
    ViewFollows u m m' := by
  unfold toggleSplitSelected at h
  split at h
  · cases h
    exact follows_same u m _ rfl
  · split at h
    · cases h
      exact follows_same u m _ rfl
    · obtain ⟨agg, -, hm'⟩ := Option.map_eq_some_iff.mp h
      subst hm'
      exact follows_same u m _ rfl

/-- INTERNAL: opening and closing the chart closes its prompts. -/
theorem follows_toggleGraph (h : m.toggleGraph = some m') : ViewFollows u m m' := by
  unfold toggleGraph at h
  dsimp only at h
  split at h
  · split at h
    · next row hrow =>
      obtain ⟨gs', hgs', hm'⟩ := Option.map_eq_some_iff.mp h
      exact follows_new u m _ _ gs' hgs' (by rw [← hm'])
    · cases h
      exact follows_table u m _ rfl
  · cases h
    exact follows_table u m _ rfl

/-- INTERNAL: committing a window closes its prompt alone. -/
theorem follows_graphWindowInputCommit (h : m.graphWindowInputCommit = some m') :
    ViewFollows u m m' := by
  unfold graphWindowInputCommit at h
  split at h
  · next gs hview =>
    split at h
    · cases h
      exact follows_same u m _ rfl
    · have hclosed : Follows u (graphBuffers gs) (graphBuffers { gs with windowInput := none }) :=
        Follows.windowInput u _ _ (SlotFollows.closed u _ _) rfl rfl
      dsimp only at h
      split at h
      · split at h
        · obtain ⟨gs', hgs', hm'⟩ := Option.map_eq_some_iff.mp h
          subst hm'
          refine follows_graph u m _ gs gs' hview rfl ?_
          rw [(rehydrate_inputs m.agg _ gs' hgs').buffers]
          exact hclosed
        · cases h
          exact follows_graph u m _ gs _ hview rfl hclosed
      · cases h
        exact follows_graph u m _ gs _ hview rfl hclosed
  · cases h
    exact follows_same u m _ rfl

/-- INTERNAL: a split of the chart leaves its prompts. -/
theorem follows_graphToggleSplit (h : m.graphToggleSplit = some m') : ViewFollows u m m' := by
  unfold graphToggleSplit at h
  split at h
  · next gs hview =>
    dsimp only at h
    split at h
    · cases h
      exact follows_graph u m _ gs _ hview rfl (graph_kept u gs _ ⟨rfl, rfl, rfl⟩)
    · split at h
      · obtain ⟨gs', hgs', hm'⟩ := Option.map_eq_some_iff.mp h
        subst hm'
        have hsame := rehydrate_inputs m.agg _ gs' hgs'
        exact follows_graph u m _ gs _ hview rfl
          (graph_kept u gs _ ⟨hsame.aggInput, hsame.windowInput, hsame.lookbackInput⟩)
      · cases h
        exact follows_same u m _ rfl
  · cases h
    exact follows_same u m _ rfl

/-- INTERNAL: the list opens without a search. -/
theorem follows_enterExplore (e : Effect) (h : m.enterExplore = (m', e)) : ViewFollows u m m' := by
  have hm' : m' = m.enterExplore.1 := by rw [h]
  subst hm'
  unfold ViewFollows enterExplore explore
  split
  · split
    · exact Follows.kept u _
    · exact Follows.nil u _
  · exact Follows.nil u _
  · next td hview =>
    rw [hview]
    exact Follows.kept u _
  · exact Follows.kept u _

/-- INTERNAL: the chart opens without a prompt. -/
theorem follows_enterGraph (e : Effect) (h : m.enterGraph = some (m', e)) :
    ViewFollows u m m' := by
  have hgraph (locked : List String) (e₁ : Effect) (hopen : m.graph locked e₁ = some (m', e)) :
      ViewFollows u m m' := by
    obtain ⟨gs', hgs', hpair⟩ := Option.map_eq_some_iff.mp hopen
    cases hpair
    exact follows_new u m _ locked gs' hgs' rfl
  unfold enterGraph at h
  split at h
  · split at h
    · exact hgraph _ _ h
    · cases h
      exact follows_same u m _ rfl
  · cases h
    exact follows_same u m _ rfl
  · exact hgraph _ _ h
  · exact hgraph _ _ h

/-- INTERNAL: opening a trace keeps the search of the list. -/
theorem follows_exploreOpenTrace : ViewFollows u m m.exploreOpenTrace := by
  unfold exploreOpenTrace
  split
  · next es hview =>
    dsimp only
    split
    · exact follows_same u m _ rfl
    · split
      · exact follows_same u m _ rfl
      · unfold ViewFollows
        rw [hview]
        exact Follows.kept u _
  · exact follows_same u m _ rfl

/-- INTERNAL: leaving a trace gives the list back with its search. -/
theorem follows_exitTraceDetail : ViewFollows u m m.exitTraceDetail := by
  unfold exitTraceDetail
  split
  · next td hview =>
    unfold ViewFollows
    rw [hview]
    exact Follows.kept u _
  · exact follows_table u m _ rfl

/-- INTERNAL: moving down a trace leaves the search. -/
theorem follows_traceDetailSelectDown (h : m.traceDetailSelectDown = some m') :
    ViewFollows u m m' := by
  unfold traceDetailSelectDown at h
  split at h
  · next td hview =>
    obtain ⟨rows, -, hm'⟩ := Option.map_eq_some_iff.mp h
    subst hm'
    split
    · unfold ViewFollows
      rw [hview]
      exact Follows.kept u _
    · exact follows_same u m _ rfl
  · cases h
    exact follows_same u m _ rfl

/-- INTERNAL: folding a row of a trace leaves the search. -/
theorem follows_changeCollapsed (change : Finset ℕ → ℕ → Finset ℕ)
    (h : m.changeCollapsed change = some m') : ViewFollows u m m' := by
  unfold changeCollapsed at h
  split at h
  · next td hview =>
    obtain ⟨selected, -, hm'⟩ := Option.map_eq_some_iff.mp h
    subst hm'
    split
    · unfold ViewFollows
      rw [hview]
      exact Follows.kept u _
    · exact follows_same u m _ rfl
  · cases h
    exact follows_same u m _ rfl

end Arms

/-! ## Every update -/

/-- INTERNAL: committing an aggregation closes its prompt alone. -/
theorem aggInputCommit_inputs (gs : GraphState) :
    (aggInputCommit gs).aggInput = none ∧
      (aggInputCommit gs).windowInput = gs.windowInput ∧
      (aggInputCommit gs).lookbackInput = gs.lookbackInput := by
  unfold aggInputCommit
  split
  · next hnone => exact ⟨hnone, rfl, rfl⟩
  · split <;> exact ⟨rfl, rfl, rfl⟩

/-- INTERNAL: committing a lookback closes its prompt alone. -/
theorem lookbackInputCommit_inputs (gs : GraphState) :
    (lookbackInputCommit gs).aggInput = gs.aggInput ∧
      (lookbackInputCommit gs).windowInput = gs.windowInput ∧
      (lookbackInputCommit gs).lookbackInput = none := by
  unfold lookbackInputCommit
  split
  · next hnone => exact ⟨rfl, rfl, hnone⟩
  · split <;> exact ⟨rfl, rfl, rfl⟩

/-- INTERNAL: the focus of the chart has no part in its prompts. -/
theorem graphSwitchFocus_inputs (gs : GraphState) : SameInputs gs (graphSwitchFocus gs) := by
  unfold graphSwitchFocus
  split <;> exact ⟨rfl, rfl, rfl⟩

/-- INTERNAL: nor has its selection. -/
theorem graphSelectDown_inputs (agg : Aggregator) (gs : GraphState) :
    SameInputs gs (graphSelectDown agg gs) := by
  unfold graphSelectDown
  dsimp only
  split <;> exact ⟨rfl, rfl, rfl⟩

/-- INTERNAL: nor has the selection of the list in its search. -/
theorem exploreSelectDown_input (agg : Aggregator) (es : ExploreState) :
    (exploreSelectDown agg es).searchInput = es.searchInput := by
  unfold exploreSelectDown
  dsimp only
  split <;> rfl

/-- INTERNAL: committing a search closes its prompt. -/
theorem exploreSearchCommit_input (es : ExploreState) :
    (exploreSearchCommit es).searchInput = none := by
  unfold exploreSearchCommit
  split
  · next hnone => exact hnone
  · rfl

/-- INTERNAL: the screens that updates are about. -/
inductive Screen where
  | graphPrompt | graph | explore | trace | other

/-- INTERNAL: the screen of an update.
SRCLINE: update.rs:14-174 -/
def screenOf : Update → Screen
  | .beginGraphAggInput | .graphAggInputChar _ | .graphAggInputBackspace | .graphAggInputCancel
  | .graphAggInputCommit | .beginGraphWindowInput | .graphWindowInputChar _
  | .graphWindowInputBackspace | .graphWindowInputCancel | .graphWindowInputCommit
  | .beginGraphLookbackInput | .graphLookbackInputChar _ | .graphLookbackInputBackspace
  | .graphLookbackInputCancel | .graphLookbackInputCommit => .graphPrompt
  | .toggleGraph | .toggleGraphMetric | .graphSwitchFocus | .graphSelectDown | .setGraphAgg _
  | .toggleGraphTimeLabels | .graphSelectUp | .graphSortColumnLeft | .graphSortColumnRight
  | .graphToggleSplit | .enterGraph => .graph
  | .enterExplore | .exitExplore | .exploreSelectDown | .exploreSelectUp | .exploreSortLeft
  | .exploreSortRight | .exploreInvertSort | .beginExploreSearch | .exploreSearchChar _
  | .exploreSearchBackspace | .exploreSearchCancel | .exploreSearchCommit => .explore
  | .exploreOpenTrace | .exitTraceDetail | .traceDetailSelectUp | .traceDetailSelectDown
  | .traceDetailExpand | .traceDetailCollapse => .trace
  | _ => .other

/-- INTERNAL: an update that goes on from a state it may not reach. -/
theorem follows_bind {u : Update} {m m' : ConsoleModel} {e : Effect} {r : Option ConsoleModel}
    (hr : ∀ m₁, r = some m₁ → ViewFollows u m m₁) (hsome : r.bind quiet = some (m', e)) :
    ViewFollows u m m' := by
  obtain ⟨m₁, hm₁, hquiet⟩ := Option.bind_eq_some_iff.mp hsome
  rw [(quiet_eq hquiet).1]
  exact hr m₁ hm₁

/-- INTERNAL: an update that goes on. -/
theorem follows_quiet {u : Update} {m m' m₁ : ConsoleModel} {e : Effect}
    (hm₁ : ViewFollows u m m₁) (hsome : m₁.quiet = some (m', e)) : ViewFollows u m m' := by
  rw [(quiet_eq hsome).1]
  exact hm₁

/-- INTERNAL: the prompts of the graph.
SRCLINE: core.rs:574-704 -/
theorem viewFollows_graphPrompt (now : ℕ) (m m' : ConsoleModel) (u : Update) (e : Effect)
    (hscreen : screenOf u = .graphPrompt) (h : m.apply now u = some (m', e)) :
    ViewFollows u m m' := by
  cases u with
  | beginGraphAggInput =>
    refine follows_quiet (follows_mapGraph _ m _ fun gs => ?_) h
    exact Follows.aggInput _ gs _ (SlotFollows.opened _ _ _ rfl) rfl rfl
  | graphAggInputChar c =>
    refine follows_quiet (follows_mapGraph _ m _ fun gs => ?_) h
    exact Follows.aggInput _ gs _ (SlotFollows.edited _ _ _ _ fun _ => rfl) rfl rfl
  | graphAggInputBackspace =>
    refine follows_quiet (follows_mapGraph _ m _ fun gs => ?_) h
    exact Follows.aggInput _ gs _ (SlotFollows.edited _ _ _ shortened fun _ => rfl) rfl rfl
  | graphAggInputCancel =>
    refine follows_quiet (follows_mapGraph _ m _ fun gs => ?_) h
    exact Follows.aggInput _ gs _ (SlotFollows.closed _ _ _) rfl rfl
  | graphAggInputCommit =>
    refine follows_quiet (follows_mapGraph _ m _ fun gs => ?_) h
    obtain ⟨hagg, hwindow, hlookback⟩ := aggInputCommit_inputs gs
    refine Follows.aggInput _ gs _ ?_ hwindow hlookback
    rw [hagg]
    exact SlotFollows.closed _ _ _
  | beginGraphWindowInput =>
    refine follows_quiet (follows_mapGraph _ m _ fun gs => ?_) h
    exact Follows.windowInput _ gs _ (SlotFollows.opened _ _ _ rfl) rfl rfl
  | graphWindowInputChar c =>
    refine follows_quiet (follows_mapGraph _ m _ fun gs => ?_) h
    exact Follows.windowInput _ gs _ (SlotFollows.edited _ _ _ _ fun _ => rfl) rfl rfl
  | graphWindowInputBackspace =>
    refine follows_quiet (follows_mapGraph _ m _ fun gs => ?_) h
    exact Follows.windowInput _ gs _ (SlotFollows.edited _ _ _ shortened fun _ => rfl) rfl rfl
  | graphWindowInputCancel =>
    refine follows_quiet (follows_mapGraph _ m _ fun gs => ?_) h
    exact Follows.windowInput _ gs _ (SlotFollows.closed _ _ _) rfl rfl
  | graphWindowInputCommit => exact follows_bind (fun m₁ => follows_graphWindowInputCommit _ m m₁) h
  | beginGraphLookbackInput =>
    refine follows_quiet (follows_mapGraph _ m _ fun gs => ?_) h
    exact Follows.lookbackInput _ gs _ (SlotFollows.opened _ _ _ rfl) rfl rfl
  | graphLookbackInputChar c =>
    refine follows_quiet (follows_mapGraph _ m _ fun gs => ?_) h
    exact Follows.lookbackInput _ gs _ (SlotFollows.edited _ _ _ _ fun _ => rfl) rfl rfl
  | graphLookbackInputBackspace =>
    refine follows_quiet (follows_mapGraph _ m _ fun gs => ?_) h
    exact Follows.lookbackInput _ gs _ (SlotFollows.edited _ _ _ shortened fun _ => rfl) rfl rfl
  | graphLookbackInputCancel =>
    refine follows_quiet (follows_mapGraph _ m _ fun gs => ?_) h
    exact Follows.lookbackInput _ gs _ (SlotFollows.closed _ _ _) rfl rfl
  | graphLookbackInputCommit =>
    refine follows_quiet (follows_mapGraph _ m _ fun gs => ?_) h
    obtain ⟨hagg, hwindow, hlookback⟩ := lookbackInputCommit_inputs gs
    refine Follows.lookbackInput _ gs _ ?_ hagg hwindow
    rw [hlookback]
    exact SlotFollows.closed _ _ _
  | _ => cases hscreen

/-- INTERNAL: the graph, without its prompts.
SRCLINE: core.rs:528-573, 705-867 -/
theorem viewFollows_graph (now : ℕ) (m m' : ConsoleModel) (u : Update) (e : Effect)
    (hscreen : screenOf u = .graph) (h : m.apply now u = some (m', e)) : ViewFollows u m m' := by
  cases u with
  | toggleGraph => exact follows_bind (fun m₁ => follows_toggleGraph _ m m₁) h
  | toggleGraphMetric =>
    refine follows_bind (fun m₁ => follows_regraph _ m m₁ _ fun gs => ?_) h
    exact graph_kept _ gs _ ⟨rfl, rfl, rfl⟩
  | graphSwitchFocus =>
    refine follows_quiet (follows_mapGraph _ m _ fun gs => ?_) h
    exact graph_kept _ gs _ (graphSwitchFocus_inputs gs)
  | graphSelectDown =>
    refine follows_quiet (follows_mapGraph _ m _ fun gs => ?_) h
    exact graph_kept _ gs _ (graphSelectDown_inputs m.agg gs)
  | setGraphAgg | toggleGraphTimeLabels | graphSelectUp | graphSortColumnLeft
  | graphSortColumnRight =>
    refine follows_quiet (follows_mapGraph _ m _ fun gs => ?_) h
    exact graph_kept _ gs _ ⟨rfl, rfl, rfl⟩
  | graphToggleSplit => exact follows_bind (fun m₁ => follows_graphToggleSplit _ m m₁) h
  | enterGraph => exact follows_enterGraph _ m m' e h
  | _ => cases hscreen

/-- INTERNAL: the explore list and its search.
SRCLINE: core.rs:868-996 -/
theorem viewFollows_explore (now : ℕ) (m m' : ConsoleModel) (u : Update) (e : Effect)
    (hscreen : screenOf u = .explore) (h : m.apply now u = some (m', e)) : ViewFollows u m m' := by
  cases u with
  | enterExplore => exact follows_enterExplore _ m m' e (Option.some.inj h)
  | exitExplore =>
    have hexit := Option.some.inj h
    unfold exitExplore at hexit
    split at hexit <;> cases hexit
    · exact follows_table _ m _ rfl
    · exact follows_table _ m _ rfl
    · exact follows_same _ m _ rfl
  | exploreSelectDown =>
    refine follows_quiet (follows_mapExplore _ m _ fun es => ?_) h
    rw [exploreSelectDown_input]
    exact SlotFollows.kept _ _ _
  | exploreSelectUp | exploreSortLeft | exploreSortRight | exploreInvertSort =>
    refine follows_quiet (follows_mapExplore _ m _ fun es => ?_) h
    exact SlotFollows.kept _ _ _
  | beginExploreSearch =>
    refine follows_quiet (follows_mapExplore _ m _ fun es => ?_) h
    exact SlotFollows.opened _ _ _ rfl
  | exploreSearchChar c =>
    refine follows_quiet (follows_mapExplore _ m _ fun es => ?_) h
    exact SlotFollows.edited _ _ _ _ fun _ => rfl
  | exploreSearchBackspace =>
    refine follows_quiet (follows_mapExplore _ m _ fun es => ?_) h
    exact SlotFollows.edited _ _ _ shortened fun _ => rfl
  | exploreSearchCancel =>
    refine follows_quiet (follows_mapExplore _ m _ fun es => ?_) h
    exact SlotFollows.closed _ _ _
  | exploreSearchCommit =>
    refine follows_quiet (follows_mapExplore _ m _ fun es => ?_) h
    rw [exploreSearchCommit_input]
    exact SlotFollows.closed _ _ _
  | _ => cases hscreen

/-- INTERNAL: the trace.
SRCLINE: core.rs:998-1110 -/
theorem viewFollows_trace (now : ℕ) (m m' : ConsoleModel) (u : Update) (e : Effect)
    (hscreen : screenOf u = .trace) (h : m.apply now u = some (m', e)) : ViewFollows u m m' := by
  cases u with
  | exploreOpenTrace => exact follows_quiet (follows_exploreOpenTrace _ m) h
  | exitTraceDetail => exact follows_quiet (follows_exitTraceDetail _ m) h
  | traceDetailSelectUp =>
    refine follows_quiet (follows_mapTraceDetail _ m _ fun td => ?_) h
    rfl
  | traceDetailSelectDown => exact follows_bind (fun m₁ => follows_traceDetailSelectDown _ m m₁) h
  | traceDetailExpand | traceDetailCollapse =>
    exact follows_bind (fun m₁ => follows_changeCollapsed _ m m₁ _) h
  | _ => cases hscreen

/-- INTERNAL: the table and what is around the views. -/
theorem viewFollows_other (now : ℕ) (m m' : ConsoleModel) (u : Update) (e : Effect)
    (hscreen : screenOf u = .other) (h : m.apply now u = some (m', e)) : ViewFollows u m m' := by
  cases u with
  | spanReceived span => exact follows_bind (fun m₁ => follows_spanReceived _ m m₁ now span) h
  | selectUp => exact follows_quiet (follows_same _ m _ (selectUp_untouched m).view) h
  | selectDown => exact follows_quiet (follows_same _ m _ (selectDown_untouched m).view) h
  | expandSelected => exact follows_quiet (follows_same _ m _ (expandSelected_untouched m).view) h
  | expandAllSelected =>
    exact follows_quiet (follows_same _ m _ (expandAllSelected_untouched m).view) h
  | collapseSelected =>
    exact follows_quiet (follows_same _ m _ (collapseSelected_untouched m).view) h
  | switchFocus => exact follows_quiet (follows_same _ m _ (switchFocus_untouched m).view) h
  | toggleSplitSelected => exact follows_bind (fun m₁ => follows_toggleSplitSelected _ m m₁) h
  | requestCacheLevel filter =>
    cases h
    exact follows_same _ m m rfl
  | chanceInputCommit =>
    have hview : m'.view = m.view := by
      have hcommit := Option.some.inj h
      unfold ConsoleModel.chanceInputCommit at hcommit
      split at hcommit <;> cases hcommit <;> rfl
    exact follows_same _ m m' hview
  | enterTable =>
    cases h
    exact follows_table _ m _ rfl
  | quit =>
    have hview : m'.view = m.view := by
      have hquit := Option.some.inj h
      unfold ConsoleModel.requestQuit at hquit
      dsimp only at hquit
      split at hquit
      · split at hquit <;> cases hquit <;> rfl
      · cases hquit
        rfl
    exact follows_same _ m m' hview
  | beginConfirmVersionSwitch =>
    exact follows_quiet (follows_same _ m _ (beginConfirmVersionSwitch_untouched m).view) h
  | confirmVersionSwitchYes =>
    have hview : m'.view = m.view := by
      have hyes := Option.some.inj h
      unfold ConsoleModel.confirmVersionSwitchYes at hyes
      split at hyes
      · cases hyes
        rfl
      · split at hyes <;> cases hyes <;> rfl
    exact follows_same _ m m' hview
  | confirmVersionSwitchNo =>
    exact follows_quiet (follows_same _ m _ (confirmVersionSwitchNo_untouched m).view) h
  | connected | disconnected | status | serverInfoReceived | cacheLevelReceived
  | cacheChanceReceived | beginChanceInput | chanceInputChar | chanceInputBackspace
  | chanceInputCancel | quitConfirmDismiss | installerSucceeded | installerFailed =>
    cases h
    exact follows_same _ m _ rfl
  | _ => cases hscreen

/-- INTERNAL: the buffers of the views.
SRCLINE: core.rs:333-1203 -/
theorem apply_viewBuffers (now : ℕ) (m m' : ConsoleModel) (u : Update) (e : Effect)
    (h : m.apply now u = some (m', e)) : ViewFollows u m m' := by
  cases hscreen : screenOf u with
  | graphPrompt => exact viewFollows_graphPrompt now m m' u e hscreen h
  | graph => exact viewFollows_graph now m m' u e hscreen h
  | explore => exact viewFollows_explore now m m' u e hscreen h
  | trace => exact viewFollows_trace now m m' u e hscreen h
  | other => exact viewFollows_other now m m' u e hscreen h

/-- INTERNAL: the buffer of the chance prompt. -/
theorem apply_chanceInput (now : ℕ) (m m' : ConsoleModel) (u : Update) (e : Effect)
    (h : m.apply now u = some (m', e)) : SlotFollows u .chance m.chanceInput m'.chanceInput := by
  have hpanel : m'.chanceInput = ((panel m).after now u).chanceInput := by
    rw [← (apply_panel now m m' u e h).1]
    rfl
  rw [hpanel]
  cases u with
  | beginChanceInput => exact SlotFollows.opened _ _ _ rfl
  | chanceInputChar c => exact SlotFollows.edited _ _ _ _ fun _ => rfl
  | chanceInputBackspace => exact SlotFollows.edited _ _ _ shortened fun _ => rfl
  | chanceInputCancel | chanceInputCommit => exact SlotFollows.closed _ _ _
  | _ => exact SlotFollows.kept _ _ _

/-- INTERNAL: **what an update makes of the open buffers.**
SRCLINE: core.rs:333-1203 -/
theorem apply_buffers (now : ℕ) (m m' : ConsoleModel) (u : Update) (e : Effect)
    (h : m.apply now u = some (m', e)) : Follows u (openBuffers m) (openBuffers m') :=
  Follows.append u _ _ _ _ (Follows.slot u _ _ _ (apply_chanceInput now m m' u e h))
    (apply_viewBuffers now m m' u e h)

end TracingConsole.Analysis.Console
