import TracingConsole.Analysis.ViewMoves
import TracingConsole.Analysis.AggregateStatistics

/-!
# The ends of a visit

A visit to the explore list turns the recording off; what it found is kept in the
`ExploreState`, which the list and the traces below it hand to each other.  The keyboard
thread picks an update from the view it last saw, so any of them can reach any view.
-/

set_option autoImplicit false

namespace TracingConsole.Analysis.Console

open TracingConsole.Library TracingConsole.Model TracingConsole.Model.ConsoleModel

/-! ## Beginning and ending a visit -/

/-- INTERNAL: a visit begins with the level taken for confirmed, and asks for OFF. -/
theorem begins_visit (now : ℕ) (m m' : ConsoleModel) (u : Update) (e : Effect)
    (hbegins : BeginsVisit m u) (h : m.apply now u = some (m', e)) :
    (∃ stack, m'.view = .explore (ExploreState.new stack m.cacheLevel)) ∧
      m'.cacheLevel = m.cacheLevel ∧ e = .requestSetLevel .off := by
  obtain ⟨hu, hfrom⟩ := hbegins
  subst hu
  have hexplore : some m.enterExplore = some (m', e) := h
  unfold enterExplore explore at hexplore
  cases hview : m.view with
  | table =>
    simp only [hview] at hfrom hexplore
    obtain ⟨row, hrow⟩ := Option.ne_none_iff_exists'.mp hfrom
    simp only [hrow] at hexplore
    cases hexplore
    exact ⟨⟨row.key.stack, rfl⟩, rfl, rfl⟩
  | graph gs =>
    simp only [hview] at hexplore
    cases hexplore
    exact ⟨⟨gs.lockedStack, rfl⟩, rfl, rfl⟩
  | explore es => simp [hview] at hfrom
  | traceDetail td => simp [hview] at hfrom

/-- INTERNAL: an update that abandons a visit shows the table and requests nothing. -/
theorem abandons_visit (now : ℕ) (m m' : ConsoleModel) (u : Update) (e : Effect)
    (es : ExploreState) (hvisit : exploreState m.view = some es) (hu : Abandons m u)
    (h : m.apply now u = some (m', e)) : m'.view = .table ∧ e = .none := by
  rcases hu with hu | ⟨hu, es', hview⟩
  · subst hu
    obtain ⟨m₁, hm₁, hquiet⟩ := Option.bind_eq_some_iff.mp h
    obtain ⟨hm', he⟩ := quiet_eq hquiet
    subst hm'
    unfold toggleGraph at hm₁
    cases hview : m.view with
    | table => rw [hview] at hvisit; cases hvisit
    | graph gs => rw [hview] at hvisit; cases hvisit
    | explore es' =>
      simp only [hview, regraph] at hm₁
      cases hm₁
      exact ⟨rfl, he⟩
    | traceDetail td =>
      simp only [hview, regraph] at hm₁
      cases hm₁
      exact ⟨rfl, he⟩
  · subst hu
    have hquiet : m.exitTraceDetail.quiet = some (m', e) := h
    obtain ⟨hm', he⟩ := quiet_eq hquiet
    subst hm'
    unfold exitTraceDetail
    rw [hview]
    exact ⟨rfl, he⟩

/-- INTERNAL: any other update of a visit stays in it, or ends it with the request for the
level to go back to. -/
theorem visit_goes_on (now : ℕ) (m m' : ConsoleModel) (u : Update) (e : Effect)
    (es : ExploreState) (hvisit : exploreState m.view = some es) (hu : ¬ Abandons m u)
    (h : m.apply now u = some (m', e)) :
    (∃ es', exploreState m'.view = some es' ∧ es'.restoreLevel = es.restoreLevel ∧
        es'.lockedStack = es.lockedStack ∧
        ∀ filter, e = .requestSetLevel filter → u = .requestCacheLevel filter) ∨
      exploreState m'.view = none ∧ e = .requestSetLevel (es.restoreLevel.getD .trace) := by
  cases apply_moves now m m' u e h with
  | absorbs span r _ _ _ hview _ he =>
    rcases hview with ⟨hview, -⟩ | ⟨gs, gs', hview, -, -⟩
    · exact Or.inl ⟨es, by rw [hview, hvisit], rfl, rfl, requests_nothing he⟩
    · rw [hview] at hvisit
      cases hvisit
  | splits keys _ _ hview _ he =>
    exact Or.inl ⟨es, by rw [hview, hvisit], rfl, rfl, requests_nothing he⟩
  | shows _ hmove _ =>
    cases hmove with
    | same hview he => exact Or.inl ⟨es, by rw [hview, hvisit], rfl, rfl, he⟩
    | charts gs gs' hview _ _ _ =>
      rw [hview] at hvisit
      cases hvisit
    | lists es₁ es' hview hview' hlevel hstack he =>
      rw [hview] at hvisit
      cases hvisit
      exact Or.inl ⟨es', by rw [hview']; rfl, hlevel, hstack, requests_nothing he⟩
    | traces td td' hview hview' hexplore he =>
      rw [hview] at hvisit
      cases hvisit
      exact Or.inl ⟨td'.explore, by rw [hview']; rfl, by rw [hexplore], by rw [hexplore],
        requests_nothing he⟩
    | descends td hview hview' he =>
      rw [hview] at hvisit
      cases hvisit
      exact Or.inl ⟨td.explore, by rw [hview']; rfl, rfl, rfl, requests_nothing he⟩
    | ascends td hview hview' he =>
      rw [hview] at hvisit
      cases hvisit
      exact Or.inl ⟨td.explore, by rw [hview']; rfl, rfl, rfl, requests_nothing he⟩
    | opens _ hnone _ _ _ =>
      rw [hnone] at hvisit
      cases hvisit
    | closes hnone _ _ =>
      rw [hnone] at hvisit
      cases hvisit
    | starts stack hbegins _ _ =>
      rw [hbegins.none] at hvisit
      cases hvisit
    | ends es' hvisit' hview' he =>
      rw [hvisit'] at hvisit
      cases hvisit
      refine Or.inr ⟨?_, he⟩
      rcases hview' with hview' | ⟨gs, hview', -⟩ <;> rw [hview'] <;> rfl
    | abandons _ _ habandons _ _ => exact absurd habandons hu

/-! ## Every end restores, but two -/

/-- CODE: core.rs:529-545, 869-1113 — **a visit is left with a request for the level it started
from, and kept otherwise, exactly when the update is neither the graph toggle nor the exit of a
trace pressed in the list**. -/
theorem leaving_restores_iff (now : ℕ) (m m' : ConsoleModel) (u : Update) (e : Effect)
    (es : ExploreState) (hvisit : exploreState m.view = some es)
    (happly : m.apply now u = some (m', e)) :
    ((exploreState m'.view = none → e = .requestSetLevel (es.restoreLevel.getD .trace)) ∧
      ∀ es', exploreState m'.view = some es' →
        es'.restoreLevel = es.restoreLevel ∧ es'.lockedStack = es.lockedStack) ↔
      ¬ (u = .toggleGraph ∨ u = .exitTraceDetail ∧ ∃ es, m.view = .explore es) := by
  constructor
  · rintro ⟨hleaves, -⟩ hu
    obtain ⟨hview, he⟩ := abandons_visit now m m' u e es hvisit hu happly
    have hrestore := hleaves (by rw [hview]; rfl)
    rw [he] at hrestore
    cases hrestore
  · intro hu
    rcases visit_goes_on now m m' u e es hvisit hu happly with
      ⟨es₁, hvisit', hlevel, hstack, -⟩ | ⟨hnone, he⟩
    · refine ⟨fun hnone => ?_, fun es' hes' => ?_⟩
      · rw [hvisit'] at hnone
        cases hnone
      · rw [hvisit'] at hes'
        cases hes'
        exact ⟨hlevel, hstack⟩
    · refine ⟨fun _ => he, fun es' hes' => ?_⟩
      rw [hnone] at hes'
      cases hes'

/-- INTERNAL: the updates of a run, the effects dropped. -/
def applyAll (m : ConsoleModel) (updates : List Update) : Option ConsoleModel :=
  run (fun m u => (m.apply 0 u).map Prod.fst) m updates

/-- INTERNAL: one span is on the table, INFO is confirmed and its list is open. -/
def oneVisit : List Update :=
  [.spanReceived (plainSpan 1 none 0), .cacheLevelReceived .info, .enterExplore]

/-- INTERNAL: a console in the list, with a level to restore. -/
def visiting : ConsoleModel := (applyAll (ConsoleModel.new 10) oneVisit).getD (ConsoleModel.new 10)

/-- CODE: core.rs:901-915 — the exit key of the list goes back to INFO. -/
theorem leaving_restores_iff_exit :
    applyAll (ConsoleModel.new 10) oneVisit = some visiting ∧
      visiting.apply 0 .exitExplore =
        some ({ visiting with view := .table }, .requestSetLevel .info) ∧
      Effect.requestSetLevel .info =
        .requestSetLevel ((ExploreState.new ["a"] (some .info)).restoreLevel.getD .trace) := by
  refine ⟨rfl, rfl, ?_⟩
  have hexit := leaving_restores_iff 0 visiting { visiting with view := .table } .exitExplore
    (.requestSetLevel .info) (ExploreState.new ["a"] (some .info)) rfl rfl
  exact (hexit.mpr (by simp)).1 rfl

/-- CODE: core.rs:529-545, 1021-1028 — in the list, `g` chosen for the table and the exit of a
trace both show the table and leave the recording off. -/
theorem leaving_strands :
    applyAll (ConsoleModel.new 10) oneVisit = some visiting ∧
      exploreState visiting.view = some (ExploreState.new ["a"] (some .info)) ∧
      ∀ u, u = .toggleGraph ∨ u = .exitTraceDetail → ∃ m' e, visiting.apply 0 u = some (m', e) ∧
        exploreState m'.view = none ∧ e ≠ .requestSetLevel .info := by
  refine ⟨rfl, rfl, fun u hu => ?_⟩
  rcases hu with hu | hu <;> subst hu
  · exact ⟨_, _, rfl, rfl, by decide⟩
  · exact ⟨_, _, rfl, rfl, by decide⟩

end TracingConsole.Analysis.Console
