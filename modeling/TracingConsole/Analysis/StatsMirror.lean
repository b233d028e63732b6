import TracingConsole.Analysis.ChartRebuild
import TracingConsole.Analysis.AggregateStatistics
import TracingConsole.Analysis.Panel
import TracingConsole.Analysis.RowScans
import TracingConsole.Analysis.ViewMoves
import TracingConsole.Library.Runs
import TracingConsole.Model.StatsMode

/-!
# The stats mode shows what the console shows

Both modes are fed the same updates.  As long as no split key is toggled, which only the console
can do, the accumulator of the stats mode is the aggregator, the rate and the connection of the
console, and its counters are exact.
-/

set_option autoImplicit false

namespace TracingConsole.Analysis.Console

open TracingConsole.Library
open TracingConsole.Model TracingConsole.Model.ConsoleModel

/-- INTERNAL: an update at a time. -/
def absorbAt (acc : StatsAccumulator) (l : ℕ × Update) : Option StatsAccumulator :=
  acc.absorb l.1 l.2

/-- INTERNAL: the spans among the updates. -/
def arrivedSpans (updates : List (ℕ × Update)) : List WireSpan :=
  updates.filterMap fun l =>
    match l.2 with
    | .spanReceived span => some span
    | _ => none

/-- INTERNAL: the last text told of a connection that is not up: the reason it was lost, or
the status told since. -/
def LastTold (connection : ConnectionStatus) (status lastStatus : Option String) : Prop :=
  match connection with
  | .connected => True
  | .connecting => lastStatus = status
  | .disconnected reason => lastStatus = some reason ∨ lastStatus = status ∧ status.isSome

/-- INTERNAL: a status is told, whatever the connection. -/
theorem lastTold_status (connection : ConnectionStatus) (msg : String) :
    LastTold connection (some msg) (some msg) := by
  cases connection with
  | connected => trivial
  | connecting => rfl
  | disconnected reason => exact Or.inr ⟨rfl, rfl⟩

/-- INTERNAL: **the accumulator shows what the console shows.** -/
structure Mirrors (m : ConsoleModel) (acc : StatsAccumulator) : Prop where
  agg : acc.agg = m.agg
  rate : acc.rate = m.rate
  connected : acc.connected = true ↔ m.connection = .connected
  told : LastTold m.connection m.status acc.lastStatus

/-- INTERNAL: the aggregator of the console after an update. -/
theorem apply_agg (now : ℕ) (m m' : ConsoleModel) (u : Update) (e : Effect)
    (h : m.apply now u = some (m', e)) (hsplit : u ≠ .toggleSplitSelected) :
    (∃ span r, u = .spanReceived span ∧ m.agg.absorb span = some r ∧ m'.agg = r.1) ∨
      (∀ span, u ≠ .spanReceived span) ∧ m'.agg = m.agg := by
  cases apply_moves now m m' u e h with
  | absorbs span r hu habsorb hagg _ _ _ => exact Or.inl ⟨span, r, hu, habsorb, hagg⟩
  | splits keys hu _ _ _ _ => exact absurd hu hsplit
  | shows hagg _ _ =>
    by_cases hspan : ∃ span, u = .spanReceived span
    · obtain ⟨span, hu⟩ := hspan
      subst hu
      obtain ⟨m₁, hm₁, hquiet⟩ := Option.bind_eq_some_iff.mp h
      obtain ⟨r, habsorb, hview⟩ := Option.bind_eq_some_iff.mp hm₁
      refine Or.inl ⟨span, r, rfl, habsorb, ?_⟩
      rw [(quiet_eq hquiet).1]
      dsimp only at hview
      split at hview
      · obtain ⟨gs, -, hm⟩ := Option.map_eq_some_iff.mp hview
        rw [← hm]
      · rw [← Option.some.inj hview]
    · exact Or.inr ⟨fun span hu => hspan ⟨span, hu⟩, hagg⟩

/-- INTERNAL: **one update.** -/
theorem Mirrors.step (m m' : ConsoleModel) (acc : StatsAccumulator) (h : Mirrors m acc) (now : ℕ)
    (u : Update) (e : Effect) (happly : m.apply now u = some (m', e))
    (hsplit : u ≠ .toggleSplitSelected) :
    ∃ acc', acc.absorb now u = some acc' ∧ Mirrors m' acc' ∧
      acc'.totalReceived = acc.totalReceived + (arrivedSpans [(now, u)]).length ∧
      acc'.totalDroppedUnfinished = acc.totalDroppedUnfinished +
        ((arrivedSpans [(now, u)]).filter fun span => span.closedAtNs.isNone).length := by
  have hpanel := (apply_panel now m m' u e happly).1
  have hrate := congrArg Panel.rate hpanel
  have hconnection := congrArg Panel.connection hpanel
  have hstatus := congrArg Panel.status hpanel
  rcases apply_agg now m m' u e happly hsplit with hspan | hother
  · obtain ⟨span, r, hu, habsorb, hagg⟩ := hspan
    subst hu
    have hmirrors : Mirrors m' { acc with
        agg := r.1, rate := acc.rate.record now, totalReceived := acc.totalReceived + 1 } := by
      refine ⟨hagg.symm, ?_, ?_, ?_⟩
      · show acc.rate.record now = (panel m').rate
        rw [hrate, h.rate]
        rfl
      · show acc.connected = true ↔ (panel m').connection = .connected
        rw [hconnection]
        exact h.connected
      · show LastTold (panel m').connection (panel m').status acc.lastStatus
        rw [hconnection, hstatus]
        exact h.told
    show ∃ acc', acc.spanReceived now span = some acc' ∧ _
    unfold StatsAccumulator.spanReceived
    dsimp only
    cases hclosed : span.closedAtNs with
    | none =>
      -- an open span changes the aggregator of neither
      have hr : r = (m.agg, []) := by
        unfold Aggregator.absorb at habsorb
        rw [hclosed] at habsorb
        exact (Option.some.inj habsorb).symm
      refine ⟨_, rfl, ?_, ?_, ?_⟩
      · have hsame : r.1 = acc.agg := by rw [hr, h.agg]
        rw [hsame] at hmirrors
        exact ⟨hmirrors.agg, hmirrors.rate, hmirrors.connected, hmirrors.told⟩
      · rfl
      · simp [arrivedSpans, hclosed]
    | some closed =>
      rw [h.agg, habsorb]
      refine ⟨_, rfl, hmirrors, rfl, ?_⟩
      simp [arrivedSpans, hclosed]
  · obtain ⟨hnot, hagg⟩ := hother
    have hnone : arrivedSpans [(now, u)] = [] := by
      unfold arrivedSpans
      cases u with
      | spanReceived span => exact absurd rfl (hnot span)
      | _ => rfl
    rw [hnone]
    have hkept (acc' : StatsAccumulator) (hagg' : acc'.agg = acc.agg) (hrate' : acc'.rate = acc.rate)
        (hp : (panel m').rate = m.rate)
        (hc : acc'.connected = true ↔ (panel m').connection = .connected)
        (hs : LastTold (panel m').connection (panel m').status acc'.lastStatus) :
        Mirrors m' acc' :=
      ⟨by rw [hagg', h.agg, hagg], by rw [hrate', h.rate, ← hp]; rfl, hc, hs⟩
    rw [hpanel] at hkept
    cases u with
    | spanReceived span => exact absurd rfl (hnot span)
    | connected =>
      exact ⟨_, rfl, hkept _ rfl rfl rfl (by simp [Panel.after]) trivial, rfl, rfl⟩
    | disconnected reason =>
      exact ⟨_, rfl, hkept _ rfl rfl rfl (by simp [Panel.after]) (Or.inl rfl), rfl, rfl⟩
    | status msg =>
      exact ⟨_, rfl, hkept _ rfl rfl rfl h.connected (lastTold_status _ msg), rfl, rfl⟩
    | _ =>
      exact ⟨acc, rfl, hkept acc rfl rfl rfl h.connected h.told, rfl, rfl⟩

/-- INTERNAL: the spans of a run, from its first update. -/
theorem arrivedSpans_cons (l : ℕ × Update) (updates : List (ℕ × Update)) :
    arrivedSpans (l :: updates) = arrivedSpans [l] ++ arrivedSpans updates := by
  unfold arrivedSpans
  rw [← List.filterMap_append]
  rfl

/-- INTERNAL: every run, from any pair that mirrors. -/
theorem Mirrors.run (updates : List (ℕ × Update)) (m m' : ConsoleModel) (acc : StatsAccumulator)
    (h : Mirrors m acc) (hrun : Library.run turn m updates = some m')
    (hsplit : ∀ l ∈ updates, l.2 ≠ .toggleSplitSelected) :
    ∃ acc', Library.run absorbAt acc updates = some acc' ∧ Mirrors m' acc' ∧
      acc'.totalReceived = acc.totalReceived + (arrivedSpans updates).length ∧
      acc'.totalDroppedUnfinished = acc.totalDroppedUnfinished +
        ((arrivedSpans updates).filter fun span => span.closedAtNs.isNone).length := by
  induction updates generalizing m acc with
  | nil =>
    cases hrun
    exact ⟨acc, rfl, h, rfl, rfl⟩
  | cons l updates ih =>
    obtain ⟨now, u⟩ := l
    rw [run_cons, Option.bind_eq_some_iff] at hrun
    obtain ⟨m₁, hfirst, hrest⟩ := hrun
    obtain ⟨⟨m₂, e⟩, happly, hm₂⟩ := Option.map_eq_some_iff.mp hfirst
    subst hm₂
    obtain ⟨acc₁, habsorb, hmirrors, hreceived, hdropped⟩ :=
      h.step m m₂ acc now u e happly (hsplit (now, u) List.mem_cons_self)
    obtain ⟨acc', hrun', hmirrors', hreceived', hdropped'⟩ :=
      ih m₂ acc₁ hmirrors hrest fun l₁ hl₁ => hsplit l₁ (List.mem_cons_of_mem _ hl₁)
    refine ⟨acc', ?_, hmirrors', ?_, ?_⟩
    · rw [run_cons]
      show (acc.absorb now u).bind _ = _
      rw [habsorb]
      exact hrun'
    · rw [arrivedSpans_cons, List.length_append, hreceived', hreceived]
      omega
    · rw [arrivedSpans_cons, List.filter_append, List.length_append, hdropped', hdropped]
      omega

/-- INTERNAL: a text in brackets. -/
def bracketed (text : String) : String := "[" ++ text ++ "]"

/-- INTERNAL: the status the console's connection and status text amount to. -/
def ShownStatus (m : ConsoleModel) (printed : String) : Prop :=
  match m.connection with
  | .connected => printed = "[connected]"
  | .connecting => printed = (m.status.map bracketed).getD "[disconnected]"
  | .disconnected reason =>
    printed = bracketed reason ∨ ∃ s, m.status = some s ∧ printed = bracketed s

/-- INTERNAL: the printed status is the console's. -/
theorem Mirrors.headerStatus (m : ConsoleModel) (acc : StatsAccumulator) (h : Mirrors m acc) :
    ShownStatus m acc.headerStatus := by
  have hconnected := h.connected
  have htold := h.told
  unfold ShownStatus StatsAccumulator.headerStatus
  unfold LastTold at htold
  cases hc : m.connection with
  | connected => simp [hconnected.mpr hc]
  | connecting =>
    have hnot : acc.connected = false := by
      rw [Bool.eq_false_iff]
      intro hyes
      exact nomatch hc.symm.trans (hconnected.mp hyes)
    rw [hc] at htold
    change acc.lastStatus = m.status at htold
    rw [hnot, htold]
    cases m.status with
    | none => rfl
    | some s => rfl
  | disconnected reason =>
    have hnot : acc.connected = false := by
      rw [Bool.eq_false_iff]
      intro hyes
      exact nomatch hc.symm.trans (hconnected.mp hyes)
    rw [hc] at htold
    rw [hnot]
    rcases htold with hreason | ⟨hstatus, hsome⟩
    · rw [hreason]
      exact Or.inl rfl
    · obtain ⟨s, hs⟩ := Option.isSome_iff_exists.mp hsome
      rw [hstatus, hs]
      exact Or.inr ⟨s, rfl, rfl⟩

end TracingConsole.Analysis.Console
