import TracingConsole.Analysis.TraceRows
import TracingConsole.Analysis.ViewMoves

/-!
# From the explore list into a trace and back

A trace is opened on the span selected in the explore list.  The reducer looks for the root above
the span, no more than 256 levels up; if it finds one, the span is listed in the trace below that
root, and the list comes back as it was left, whatever arrives and whatever is expanded or
collapsed in the meantime.
-/

set_option autoImplicit false

namespace TracingConsole.Analysis.Trace

open Relation
open TracingConsole.Library
open TracingConsole.Model TracingConsole.Model.Aggregator TracingConsole.Model.ConsoleModel
open TracingConsole.Analysis.Console

/-! ## The root above a span -/

section Roots

variable (a : Aggregator)

/-- INTERNAL: one step farther is one step below the parent. -/
theorem Distance.succ_iff (top n x : ℕ) :
    Distance a top (n + 1) x ↔ ∃ p, ParentLink a x p ∧ Distance a top n p := by
  induction n generalizing top with
  | zero =>
    constructor
    · intro h
      cases h with
      | deeper _ c _ _ hlink hrest =>
        cases hrest
        exact ⟨top, hlink, .here top⟩
    · rintro ⟨p, hlink, hrest⟩
      cases hrest
      exact .deeper top x 0 x hlink (.here x)
  | succ n ih =>
    constructor
    · intro h
      cases h with
      | deeper _ c _ _ hlink hrest =>
        obtain ⟨p, hp, hup⟩ := (ih c).mp hrest
        exact ⟨p, hp, .deeper top c n p hlink hup⟩
    · rintro ⟨p, hp, hup⟩
      cases hup with
      | deeper _ c _ _ hlink hrest =>
        exact .deeper top c (n + 1) x hlink ((ih c).mpr ⟨p, hp, hrest⟩)

/-- INTERNAL: the span `x` is `n` levels below a span without a parent. -/
def RootOf (x root n : ℕ) : Prop :=
  Distance a root n x ∧ ∃ s, a.spanById root = some s ∧ s.parentId = none

/-- INTERNAL: **the walk finds the root that is near enough.**
SRCLINE: explore.rs:372-382 -/
theorem findRootWithin_iff (fuel x root : ℕ) :
    findRootWithin a fuel x = some root ↔ ∃ n, n < fuel ∧ RootOf a x root n := by
  induction fuel generalizing x with
  | zero => simp [findRootWithin]
  | succ fuel ih =>
    rw [findRootWithin]
    cases hspan : a.spanById x with
    | none =>
      refine ⟨fun h => (by cases h), ?_⟩
      rintro ⟨n, -, hdistance, s, hs, hroot⟩
      cases n with
      | zero =>
        cases hdistance
        rw [hspan] at hs
        cases hs
      | succ n =>
        obtain ⟨p, hlink, -⟩ := (Distance.succ_iff a root n x).mp hdistance
        obtain ⟨s', hs', -⟩ := (parentLink_spanById a x p).mp hlink
        rw [hspan] at hs'
        cases hs'
    | some s =>
      dsimp only
      cases hparent : s.parentId with
      | none =>
        dsimp only
        constructor
        · intro h
          cases h
          exact ⟨0, Nat.succ_pos fuel, .here _, s, hspan, hparent⟩
        · rintro ⟨n, -, hdistance, -⟩
          cases n with
          | zero =>
            cases hdistance
            rfl
          | succ n =>
            -- a span without a parent hangs from nothing
            obtain ⟨p, hlink, -⟩ := (Distance.succ_iff a root n x).mp hdistance
            obtain ⟨s', hs', hp⟩ := (parentLink_spanById a x p).mp hlink
            rw [hspan, Option.some.injEq] at hs'
            rw [← hs', hparent] at hp
            cases hp
      | some p =>
        dsimp only
        have hlink : ParentLink a x p := (parentLink_spanById a x p).mpr ⟨s, hspan, hparent⟩
        rw [ih]
        constructor
        · rintro ⟨n, hn, hdistance, hroot⟩
          exact ⟨n + 1, by omega, (Distance.succ_iff a root n x).mpr ⟨p, hlink, hdistance⟩, hroot⟩
        · rintro ⟨n, hn, hdistance, hroot⟩
          cases n with
          | zero =>
            cases hdistance
            obtain ⟨s', hs', hnone⟩ := hroot
            rw [hspan, Option.some.injEq] at hs'
            rw [← hs', hparent] at hnone
            cases hnone
          | succ n =>
            obtain ⟨q, hq, hrest⟩ := (Distance.succ_iff a root n x).mp hdistance
            have hpq := parentLink_single a x p q hlink hq
            subst hpq
            exact ⟨n, by omega, hrest, hroot⟩

/-- INTERNAL: the rows below a span of a well-formed ring.
SRCLINE: explore.rs:155-178 -/
theorem listing_of_stored (h : Sane a) (collapsed : Finset ℕ) (root : WireSpan) (rootId : ℕ)
    (hget : a.spanById rootId = some root) :
    ∃ rows, visibleTraceRows a rootId collapsed = some rows ∧
      TraceListing a rootId collapsed rows := by
  have hid := spanById_id a h rootId root hget
  have hle := below_le (ParentLink a) a.order root.id
  obtain ⟨rows, hrows, hwalked⟩ := walkTrace_walked a h collapsed (a.len + 1) root 0
    (by rw [hid]; exact hget) (Nat.lt_succ_of_le hle)
  rw [hid] at hwalked
  refine ⟨rows, ?_, hwalked.listing a h collapsed rootId rows⟩
  have hindex := ringIndex_spanById a h rootId
  rw [hget] at hindex
  unfold visibleTraceRows
  dsimp only
  unfold ringIndex at hindex hrows
  rw [hindex]
  exact hrows

end Roots

/-! ## While the trace is shown -/

/-- INTERNAL: the trace view is up. -/
def ShowsTrace (m : ConsoleModel) : Prop := ∃ td, m.view = .traceDetail td

/-- INTERNAL: as long as a trace is shown it keeps the list it was opened from. -/
theorem trace_keeps_list (m m' : ConsoleModel) (x : ℕ × Update) (td td' : TraceDetailState)
    (hview : m.view = .traceDetail td) (hstep : turn m x = some m')
    (hview' : m'.view = .traceDetail td') : td'.explore = td.explore := by
  obtain ⟨⟨m₁, e⟩, happly, hm₁⟩ := Option.map_eq_some_iff.mp hstep
  dsimp only at hm₁
  subst hm₁
  have hsame (h : m₁.view = m.view) : td'.explore = td.explore := by
    rw [h, hview] at hview'
    cases hview'
    rfl
  cases apply_moves x.1 m m₁ x.2 e happly with
  | absorbs span r _ _ _ hmove _ _ =>
    rcases hmove with ⟨h, -⟩ | ⟨gs, gs', hgraph, -, -⟩
    · exact hsame h
    · rw [hview] at hgraph
      cases hgraph
  | splits keys _ _ h _ _ => exact hsame h
  | shows _ hmove _ =>
    cases hmove with
    | same h _ => exact hsame h
    | traces td₁ td₂ h₁ h₂ hexplore _ =>
      rw [hview] at h₁
      cases h₁
      rw [hview'] at h₂
      cases h₂
      exact hexplore
    | charts gs gs' h _ _ _ =>
      rw [hview] at h
      cases h
    | lists es es' h _ _ _ _ =>
      rw [hview] at h
      cases h
    | descends td₁ h _ _ =>
      rw [hview] at h
      cases h
    | ascends td₁ _ h _ =>
      rw [hview'] at h
      cases h
    | opens gs _ h _ _ =>
      rw [hview'] at h
      cases h
    | closes _ h _ =>
      rw [hview'] at h
      cases h
    | starts stack _ h _ =>
      rw [hview'] at h
      cases h
    | ends es _ h _ =>
      rw [hview'] at h
      rcases h with h | ⟨gs, h, -⟩ <;> cases h
    | abandons es _ _ h _ =>
      rw [hview'] at h
      cases h

/-- INTERNAL: over a run in which the trace stays up, too. -/
theorem trace_keeps_list_run (later : List (ℕ × Update)) (m m' : ConsoleModel)
    (td : TraceDetailState) (hview : m.view = .traceDetail td)
    (hshown : RunsUnder turn (fun m _ => ShowsTrace m) m later)
    (hrun : run turn m later = some m') (td' : TraceDetailState)
    (hview' : m'.view = .traceDetail td') : td'.explore = td.explore := by
  refine run_invariant_under turn (fun m _ => ShowsTrace m)
    (fun m => ∀ td', m.view = .traceDetail td' → td'.explore = td.explore) ?_ m later m' ?_ hshown
    hrun td' hview'
  · intro m x m₁ hlist hshows hstep td₂ hview₂
    obtain ⟨td₁, hview₁⟩ := hshows
    rw [trace_keeps_list m m₁ x td₁ td₂ hview₁ hstep hview₂, hlist td₁ hview₁]
  · intro td₁ hview₁
    rw [hview] at hview₁
    cases hview₁
    rfl

/-! ## There and back -/

/-- INTERNAL: the span selected in the list.
SRCLINE: core.rs:998-1006 -/
def selectedInList (m : ConsoleModel) (es : ExploreState) : Option WireSpan :=
  (matchingSpans m.agg es)[min es.selected ((matchingSpans m.agg es).length - 1)]?

/-- CODE: core.rs:998-1028, explore.rs:155-233, 372-382 — **a trace opened from the list shows the
span, and gives the list back**: in every console that has received distinct ids, a trace opens
on the selected span exactly when it is less than 256 levels below a span of the ring without a
parent; the trace is the tree below that root, with the span in it; and after any updates that
leave the trace up, the way back leads to the list as it was. -/
theorem trace_opened_and_left (budget : ℕ) (updates : List (ℕ × Update)) (m : ConsoleModel)
    (hids : ((receivedSpans updates).map WireSpan.id).Nodup)
    (hrun : run turn (ConsoleModel.new budget) updates = some m) (es : ExploreState)
    (hview : m.view = .explore es) (span : WireSpan) (hselected : selectedInList m es = some span)
    (now : ℕ) (m' : ConsoleModel) (e : Effect)
    (happly : m.apply now .exploreOpenTrace = some (m', e)) :
    (ShowsTrace m' ↔ ∃ root n, n < 256 ∧ RootOf m.agg span.id root n) ∧
      ∀ td, m'.view = .traceDetail td →
        (∃ n, n < 256 ∧ RootOf m'.agg span.id td.rootId n) ∧
        (∃ rows, visibleTraceRows m'.agg td.rootId td.collapsed = some rows ∧
          TraceListing m'.agg td.rootId td.collapsed rows ∧
          ∃ d h o, TraceRow.span span.id d h o ∈ rows) ∧
        ∀ later m₁, RunsUnder turn (fun m _ => ShowsTrace m) m' later →
          run turn m' later = some m₁ → ShowsTrace m₁ → ∀ now',
            m₁.apply now' .exitTraceDetail = some ({ m₁ with view := .explore es }, .none) := by
  have hsane := sane_run budget updates m hids hrun
  have hopen : m.exploreOpenTrace.quiet = some (m', e) := happly
  obtain ⟨hm', -⟩ := quiet_eq hopen
  unfold selectedInList at hselected
  simp only [exploreOpenTrace, hview, hselected] at hm'
  have hroots := findRootWithin_iff m.agg 256 span.id
  cases hroot : findRootId m.agg span.id with
  | none =>
    rw [hroot] at hm'
    have hnone : ¬ ShowsTrace m' := by
      rintro ⟨td, htd⟩
      rw [hm', hview] at htd
      cases htd
    refine ⟨⟨fun hshows => absurd hshows hnone, ?_⟩, fun td htd => absurd ⟨td, htd⟩ hnone⟩
    rintro ⟨root, hfound⟩
    have hsome := (hroots root).mpr hfound
    rw [findRootId] at hroot
    rw [hroot] at hsome
    cases hsome
  | some root =>
    rw [hroot] at hm'
    obtain ⟨n, hn, hrootOf⟩ := (hroots root).mp hroot
    obtain ⟨hdistance, rootSpan, hstored, hparentless⟩ := hrootOf
    subst hm'
    refine ⟨⟨fun _ => ⟨root, n, hn, hdistance, rootSpan, hstored, hparentless⟩, fun _ => ⟨_, rfl⟩⟩,
      fun td htd => ?_⟩
    cases htd
    refine ⟨⟨n, hn, hdistance, rootSpan, hstored, hparentless⟩, ?_, ?_⟩
    · obtain ⟨rows, hrows, hlisting⟩ :=
        listing_of_stored m.agg hsane ∅ rootSpan root hstored
      refine ⟨rows, hrows, hlisting, (hlisting.spans span.id).mpr ⟨hdistance.reaches, ?_⟩⟩
      rintro ⟨y, hy, -⟩
      exact absurd hy (Finset.notMem_empty y)
    · intro later m₁ hshown hlater htrace now'
      obtain ⟨td₁, hview₁⟩ := htrace
      have hkept := trace_keeps_list_run later _ m₁ _ rfl hshown hlater td₁ hview₁
      have hexit : m₁.apply now' .exitTraceDetail = m₁.exitTraceDetail.quiet := rfl
      rw [hexit, exitTraceDetail, hview₁]
      simp only [hkept, ConsoleModel.quiet]

/-! A root and its child, and the list of the child's stack. -/

/-- INTERNAL: the list is entered on the row of the child. -/
def listedChild : List (ℕ × Update) :=
  [(0, .spanReceived (plainSpan 1 none 9)), (1, .spanReceived (plainSpan 2 (some 1) 5)),
    (2, .expandAllSelected), (3, .selectDown), (4, .enterExplore)]

/-- INTERNAL: another child arrives, and the row of the root is folded. -/
def meanwhile : List (ℕ × Update) :=
  [(6, .spanReceived (plainSpan 3 (some 1) 2)), (7, .traceDetailCollapse)]

/-- INTERNAL: the list, and the span selected in it. -/
def shownList (m : ConsoleModel) : Option (ExploreState × Option WireSpan) :=
  match m.view with
  | .explore es => some (es, selectedInList m es)
  | _ => none

/-- INTERNAL: the root of the trace that is shown. -/
def shownRoot (m : ConsoleModel) : Option ℕ :=
  match m.view with
  | .traceDetail td => some td.rootId
  | _ => none

/-- INTERNAL: a root that is shown is that of the trace. -/
theorem shownRoot_some (m : ConsoleModel) (root : ℕ) (h : shownRoot m = some root) :
    ∃ td, m.view = .traceDetail td ∧ td.rootId = root := by
  unfold shownRoot at h
  split at h
  · next td htd => exact ⟨td, htd, Option.some.inj h⟩
  · cases h

/-- INTERNAL: a list that is shown is the view. -/
theorem shownList_some (m : ConsoleModel) (es : ExploreState) (selected : Option WireSpan)
    (h : shownList m = some (es, selected)) :
    m.view = .explore es ∧ selectedInList m es = selected := by
  unfold shownList at h
  split at h
  · next es' hview =>
    cases h
    exact ⟨hview, rfl⟩
  · cases h

/-- CODE: core.rs:998-1028 — the trace of the child is that of the root. -/
theorem trace_opened_and_left_child : ∃ m m' m₁,
    run turn (ConsoleModel.new 10) listedChild = some m ∧
      turn m (5, .exploreOpenTrace) = some m' ∧ run turn m' meanwhile = some m₁ ∧
      shownRoot m₁ = some 1 ∧ m₁.agg.order = [1, 2, 3] ∧
      m₁.apply 8 .exitTraceDetail =
        some ({ m₁ with view := .explore (ExploreState.new ["a", "a"] none) }, .none) := by
  have hlist : ((run turn (ConsoleModel.new 10) listedChild).map shownList) =
      some (some (ExploreState.new ["a", "a"] none, some (plainSpan 2 (some 1) 5))) := by
    decide +kernel
  have hopened : ((run turn (ConsoleModel.new 10) (listedChild ++ [(5, .exploreOpenTrace)])).map
      shownRoot) = some (some 1) := by
    decide +kernel
  have hlater : ((run turn (ConsoleModel.new 10) (listedChild ++ [(5, .exploreOpenTrace)] ++
      meanwhile)).map fun m => (shownRoot m, m.agg.order)) = some (some 1, [1, 2, 3]) := by
    decide +kernel
  have hbetween : ((run turn (ConsoleModel.new 10) (listedChild ++ [(5, .exploreOpenTrace)] ++
      [(6, .spanReceived (plainSpan 3 (some 1) 2))])).map shownRoot) = some (some 1) := by
    decide +kernel
  obtain ⟨m, hrun, hshown⟩ := Option.map_eq_some_iff.mp hlist
  obtain ⟨hview, hselected⟩ := shownList_some m _ _ hshown
  rw [run_append, hrun, Option.bind_some] at hopened
  obtain ⟨m', hstep, hroot⟩ := Option.map_eq_some_iff.mp hopened
  have hturn : turn m (5, .exploreOpenTrace) = some m' := by
    simpa [run_cons] using hstep
  rw [run_append, run_append, hrun, Option.bind_some, hstep, Option.bind_some] at hlater hbetween
  obtain ⟨m₁, hmeanwhile, hread⟩ := Option.map_eq_some_iff.mp hlater
  obtain ⟨hroot₁, horder⟩ := Prod.mk.inj hread
  obtain ⟨m₂, hstep₂, hroot₂⟩ := Option.map_eq_some_iff.mp hbetween
  obtain ⟨⟨m'', e⟩, happly, hm''⟩ := Option.map_eq_some_iff.mp hturn
  dsimp only at hm'' happly
  subst hm''
  have hshows (m : ConsoleModel) (h : shownRoot m = some 1) : ShowsTrace m := by
    obtain ⟨td, htd, -⟩ := shownRoot_some m 1 h
    exact ⟨td, htd⟩
  obtain ⟨td, htd, -⟩ := shownRoot_some m'' 1 hroot
  refine ⟨m, m'', m₁, hrun, hturn, hmeanwhile, hroot₁, horder, ?_⟩
  refine ((trace_opened_and_left 10 listedChild m (by decide) hrun _ hview _ hselected 5 m'' e
    happly).2 td htd).2.2 meanwhile m₁ ⟨⟨td, htd⟩, fun m₃ hm₃ => ⟨hshows m₃ ?_, fun _ _ => trivial⟩⟩
    hmeanwhile (hshows m₁ hroot₁) 8
  have hone : run turn m'' [(6, .spanReceived (plainSpan 3 (some 1) 2))] = some m₃ := by
    rw [run_cons, hm₃]
    rfl
  rw [hone] at hstep₂
  rw [Option.some.inj hstep₂]
  exact hroot₂

end TracingConsole.Analysis.Trace
