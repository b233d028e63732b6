import TracingConsole.Analysis.ShownStacks

/-!
# The times shown are those of the program's spans

A visible row of the console is the statistics of spans that threads of the program opened and
closed (`shown_times_lived`): different ones, all of them in nestings with the names of the row.
Their times are read off the clock of the host, on which nothing is before the start of the server.
-/

set_option autoImplicit false

namespace TracingConsole.Analysis.Transit

open TracingConsole.Library TracingConsole.Model TracingConsole.Analysis

variable {T : Type} [DecidableEq T]

/-- INTERNAL: a call of `new_span` with the record it opened, and the instant of its close. -/
abbrev Life := (Opening × SpanRecord) × ℕ

/-- INTERNAL: the time of a span on the clock of the host, in nanoseconds.
SRCLINE: wire.rs:43-54, state.rs:253-256 -/
def timeOf (base : TimeBase) (l : Life) : ℕ := base.ns l.2 - base.ns l.1.2.openedAt

/-- INTERNAL: **the clock of the host shows the whole time** of a span that was opened after the
start of the server and closed before nanoseconds outgrow a word.
SRCLINE: wire.rs:43-54 -/
theorem timeOf_eq (base : TimeBase) (l : Life) (hepoch : 0 ≤ base.systimeAtStart)
    (hafter : base.instantAtStart ≤ l.1.2.openedAt) (hclock : l.1.2.openedAt ≤ l.2)
    (hword : base.wall l.2 < 2 ^ 64) : timeOf base l = l.2 - l.1.2.openedAt := by
  have hns (t : ℕ) (hle : t ≤ l.2) :
      base.ns t = base.systimeAtStart.toNat + (t - base.instantAtStart) := by
    have hwall : base.wall t < 2 ^ 64 := by
      unfold TimeBase.wall at hword ⊢
      omega
    have hpos : ¬ base.wall t < 0 := by
      unfold TimeBase.wall
      omega
    have hnat : (base.wall t).toNat = base.systimeAtStart.toNat + (t - base.instantAtStart) := by
      unfold TimeBase.wall
      omega
    rw [TimeBase.ns, if_neg hpos, Nat.mod_eq_of_lt (by omega), hnat]
  rw [timeOf, hns l.2 le_rfl, hns l.1.2.openedAt hclock]
  omega

omit [DecidableEq T] in
/-- INTERNAL: the total of a span on the wire is the time of a life. -/
theorem LivedAs.life (unfilledInstant : ℕ) (base : TimeBase) (s : System T)
    (x : Opening × SpanRecord) (v : WireSpan) (h : LivedAs unfilledInstant base s x v) :
    ∃ now, (∃ t, (t, { x.2 with closedAt := some now }) ∈ s.world.closed) ∧
      x.2.id = v.id ∧ timeOf base (x, now) = Aggregator.totalOf v := by
  obtain ⟨now, events, hclosed, hv⟩ := h.wire unfilledInstant base s x v
  refine ⟨now, hclosed, ?_, ?_⟩
  · rw [hv]
    rfl
  · rw [hv]
    rfl

/-- CODE: cache.rs:368-567, driver.rs:115-187, wire.rs:43-77, runtime.rs:85-263, state.rs:231-462 —
**a row is the statistics of spans of the program**: in every run of a host and its console, each
visible row counts different spans that are in the ring, whose records were opened in nestings
with the names of the row and closed by a thread; and its sum, its least and its greatest total are
those of their times on the host, which for a span opened after the server are the times it was
open. -/
theorem shown_times_lived (unfilledInstant : ℕ) (base : TimeBase) (cache : SpanCache)
    (capacity : ℕ) (config : CacheConfig)
    (hcache : SpanCache.withConfig capacity config = some cache) (key : ℕ) (keys : T → ℕ)
    (cacheAddr historyBudget : ℕ) (hfits : historyBudget ≤ 2 ^ 32) (steps : List (RelayStep T))
    (s : Relay T)
    (hrun : run (Relay.step unfilledInstant base)
      (Relay.start cache key keys cacheAddr capacity historyBudget) steps = some s)
    (hlast : s.host.world.ids.reserved < u64Size) (row : VisibleRow)
    (hrow : row ∈ s.console.visibleRows) :
    ∃ lives : List Life, lives ≠ [] ∧
      (lives.map fun l => l.1.2.id).Nodup ∧
      (lives.map fun l => l.1.2.id).Sublist s.console.agg.order ∧
      (∀ l ∈ lives, (∃ t, (t, { l.1.2 with closedAt := some l.2 }) ∈ s.host.world.closed) ∧
        (∃ rest, Nested s.host.world.inserted (l.1 :: rest) ∧
          row.key.stack = stackOf (l.1 :: rest)) ∧
        (0 ≤ base.systimeAtStart → base.instantAtStart ≤ l.1.2.openedAt →
          l.1.2.openedAt ≤ l.2 → base.wall l.2 < 2 ^ 64 →
          timeOf base l = l.2 - l.1.2.openedAt)) ∧
      row.stats.count = lives.length ∧
      row.stats.totalSumNs = (lives.map (timeOf base)).sum ∧
      row.stats.totalMinNs = (lives.map (timeOf base)).min?.getD 0 ∧
      row.stats.totalMaxNs = (lives.map (timeOf base)).max?.getD 0 := by
  obtain ⟨-, hentries, hlocked, hid, htallied⟩ := given_lived unfilledInstant base cache capacity
    config hcache key keys cacheAddr historyBudget True (fun _ => hfits) steps s hrun hlast
  obtain ⟨st, hst, hstats⟩ :=
    (mem_rows s.console.agg _).mp (Console.visibleRow_spec s.console row hrow).1
  obtain ⟨hsome, hholds⟩ := holds_of_get True _ _ htallied.buckets row.key st hst
  rw [← coe_bucketPairs s.console.agg hlocked] at hsome hholds
  have hstatsOf : row.stats = statsOf (bucketPairs s.console.agg row.key) :=
    hstats.trans (toStackStats_of_holds True st _ trivial hholds)
  have hlife : ∀ e ∈ s.console.agg.ringEntries.filter (fun e => e.bucket = row.key), ∃ l : Life,
      (∃ t, (t, { l.1.2 with closedAt := some l.2 }) ∈ s.host.world.closed) ∧
      (∃ rest, Nested s.host.world.inserted (l.1 :: rest) ∧
        row.key.stack = stackOf (l.1 :: rest)) ∧
      l.1.2.id = e.span.id ∧ timeOf base l = e.totalNs := by
    intro e he
    obtain ⟨hin, hbucket⟩ := List.mem_filter.mp he
    obtain ⟨id, -, hget⟩ := (mem_ringEntries s.console.agg e).mp hin
    obtain ⟨x, rest, hlived, hnest, hstack⟩ := hentries id e hget
    obtain ⟨now, hclosed, hsame, htime⟩ :=
      hlived.life unfilledInstant base s.host x e.span
    rw [of_decide_eq_true hbucket] at hstack
    exact ⟨(x, now), hclosed, ⟨rest, hnest, hstack⟩, hsame,
      htime.trans (htallied.total_eq id e hget).symm⟩
  choose f hf using hlife
  have hmap (g : Life → ℕ) (g' : Entry → ℕ) (h : ∀ e he, g (f e he) = g' e) :
      ((s.console.agg.ringEntries.filter (fun e => e.bucket = row.key)).pmap f fun _ he => he).map
        g = (s.console.agg.ringEntries.filter fun e => e.bucket = row.key).map g' := by
    rw [List.map_pmap, ← List.pmap_eq_map (p := fun e =>
      e ∈ s.console.agg.ringEntries.filter fun e => e.bucket = row.key) (H := fun _ he => he)]
    exact List.pmap_congr_left _ fun e _ he _ => h e he
  have hids := hmap (fun l => l.1.2.id) (fun e => e.span.id) fun e he => (hf e he).2.2.1
  have htimes := hmap (timeOf base) Entry.totalNs fun e he => (hf e he).2.2.2
  have horder : ((s.console.agg.ringEntries.filter fun e => e.bucket = row.key).map
      fun e => e.span.id).Sublist s.console.agg.order := by
    rw [← ringList_ids s.console.agg hlocked hid, ringList, List.map_map]
    exact List.filter_sublist.map _
  have hpairs : (bucketPairs s.console.agg row.key).map Prod.fst =
      (s.console.agg.ringEntries.filter fun e => e.bucket = row.key).map Entry.totalNs := by
    rw [bucketPairs, List.map_map]
    rfl
  refine ⟨_, fun hnone => hsome ?_, by rw [hids]; exact hlocked.nodup.sublist horder,
    by rw [hids]; exact horder, fun l hl => ?_, ?_, ?_, ?_, ?_⟩
  · rw [List.pmap_eq_nil_iff] at hnone
    rw [bucketPairs, hnone]
    rfl
  · obtain ⟨e, he, rfl⟩ := List.mem_pmap.mp hl
    exact ⟨(hf e he).1, (hf e he).2.1, timeOf_eq base _⟩
  · rw [hstatsOf, List.length_pmap, statsOf, bucketPairs, List.length_map]
  · rw [hstatsOf, htimes, ← hpairs]
    rfl
  · rw [hstatsOf, htimes, ← hpairs]
    rfl
  · rw [hstatsOf, htimes, ← hpairs]
    rfl

/-- CODE: runtime.rs:85-263 — a row of `dialsTwice` is the child span of the program, which was
open for four nanoseconds. -/
theorem shown_times_lived_dials_twice :
    ∃ s, run (Relay.step 0 { instantAtStart := 0, systimeAtStart := 0 })
        (Relay.start twoSlots 0 (fun _ => 0) 7 2 4) dialsTwice = some s ∧
      ∃ row ∈ s.console.visibleRows, row.key.stack = ["root", "child"] ∧
        row.stats.totalSumNs = 4 ∧
        ∃ l : Life, (∃ t, (t, { l.1.2 with closedAt := some l.2 }) ∈ s.host.world.closed) ∧
          (∃ rest, Nested s.host.world.inserted (l.1 :: rest) ∧
            ["root", "child"] = stackOf (l.1 :: rest)) ∧
          timeOf { instantAtStart := 0, systimeAtStart := 0 } l = 4 := by
  have hends : ((run (Relay.step 0 { instantAtStart := 0, systimeAtStart := 0 })
      (Relay.start twoSlots 0 (fun _ => 0) 7 2 4) dialsTwice).map fun s =>
        (s.host.world.ids.reserved, s.console.visibleRows.map fun row =>
          (row.key.stack, row.stats.count, row.stats.totalSumNs))) =
      some (1024, [(["root"], 1, 9), (["root", "child"], 1, 4)]) := by
    decide +kernel
  obtain ⟨s, hrun, hread⟩ := Option.map_eq_some_iff.mp hends
  rw [Prod.mk.injEq] at hread
  have hshown : (["root", "child"], 1, 4) ∈ s.console.visibleRows.map fun row =>
      (row.key.stack, row.stats.count, row.stats.totalSumNs) := by
    simp [hread.2]
  obtain ⟨row, hrow, hvalues⟩ := List.mem_map.mp hshown
  simp only [Prod.mk.injEq] at hvalues
  obtain ⟨hstack, hcount, hsum⟩ := hvalues
  obtain ⟨lives, -, -, -, hlives, hlength, htotal, -⟩ := shown_times_lived 0
    { instantAtStart := 0, systimeAtStart := 0 } twoSlots 2
    { laneCount := 1, pendingBatch := 8 } (by decide) 0 (fun _ => 0) 7 4 (by decide) dialsTwice s
    hrun (by rw [hread.1]; decide) row hrow
  rw [hcount, eq_comm, List.length_eq_one_iff] at hlength
  obtain ⟨l, hl⟩ := hlength
  obtain ⟨hclosed, hnested, -⟩ := hlives l (by simp [hl])
  rw [hstack] at hnested
  refine ⟨s, hrun, row, hrow, hstack, hsum, l, hclosed, hnested, ?_⟩
  rw [hl, List.map_singleton, List.sum_singleton, hsum] at htotal
  exact htotal.symm

end TracingConsole.Analysis.Transit
