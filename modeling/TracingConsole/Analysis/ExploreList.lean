import TracingConsole.Analysis.SortColumns
import TracingConsole.Analysis.StackTable

/-!
# The list of the explore view

A visit to the explore view is on the stack of the row it was entered from for as long as it
lasts.  `explored_spans_counted`: the list holds the spans of the ring with that stack that match
the search, each once and in the order of the sort column; with nothing searched for they are as
many and took as long as the rows of the stack say; a character typed only narrows the list, and
taking it back gives the list back.
-/

set_option autoImplicit false

namespace TracingConsole.Analysis.Console

open Std (ExtTreeMap)
open TracingConsole.Library TracingConsole.Model TracingConsole.Model.ConsoleModel

/-! ## Lists -/

/-- INTERNAL: sorting part of a list gives part of the sorted list. -/
theorem insertionSort_sublist {α : Type} (r : α → α → Prop) [DecidableRel r] [Std.Total r]
    [IsTrans α r] (l l' : List α) (h : l.Sublist l') :
    (l.insertionSort r).Sublist (l'.insertionSort r) := by
  induction h with
  | slnil => exact List.Sublist.refl _
  | cons a _ ih => exact ih.trans (List.sublist_orderedInsert a _)
  | cons_cons a _ ih => exact ih.orderedInsert_sublist a (List.pairwise_insertionSort r _)

/-- INTERNAL: a sum over a list is the sum over the keys of the sums of what has the key. -/
theorem sum_by_key {α κ : Type} [DecidableEq κ] (key : α → κ) (f : α → ℕ) (keys : List κ)
    (hnodup : keys.Nodup) (l : List α) (hcover : ∀ a ∈ l, key a ∈ keys) :
    (keys.map fun k => ((l.filter fun a => key a = k).map f).sum).sum = (l.map f).sum := by
  induction l with
  | nil => simp
  | cons a l ih =>
    have hpart (k : κ) : (((a :: l).filter fun b => key b = k).map f).sum =
        (if k = key a then f a else 0) + ((l.filter fun b => key b = k).map f).sum := by
      by_cases h : key a = k
      · simp [h]
      · simp [h, Ne.symm h]
    have hone : (keys.map fun k => if k = key a then f a else 0).sum = f a := by
      rw [← List.sum_toFinset _ hnodup, Finset.sum_ite_eq', if_pos]
      exact List.mem_toFinset.mpr (hcover a List.mem_cons_self)
    simp only [hpart]
    rw [List.sum_map_add, hone, ih fun b hb => hcover b (List.mem_cons_of_mem a hb),
      List.map_cons, List.sum_cons]

/-! ## The search -/

/-- INTERNAL: a text contains another if that is a part of it. -/
theorem containsText_iff (text query : String) :
    containsText text query = true ↔ query.toList <:+: text.toList := by
  unfold containsText
  rw [List.any_eq_true]
  constructor
  · intro hfound
    obtain ⟨rest, hrest, hstarts⟩ := hfound
    rw [List.mem_tails] at hrest
    rw [List.isPrefixOf_iff_prefix] at hstarts
    exact hstarts.isInfix.trans hrest.isInfix
  · intro hpart
    obtain ⟨s, t, hst⟩ := hpart
    refine ⟨query.toList ++ t, ?_, ?_⟩
    · rw [List.mem_tails]
      exact ⟨s, by rw [← List.append_assoc, hst]⟩
    · rw [List.isPrefixOf_iff_prefix]
      exact List.prefix_append _ _

/-- INTERNAL: the keys and the values of some fields. -/
def textsOfFields (fields : List (String × WireFieldValue)) : List String :=
  fields.flatMap fun kv => [kv.1, kv.2.toStringValue]

/-- INTERNAL: the texts of a span that a search looks at. -/
def textsOf (s : WireSpan) : List String :=
  s.name :: textsOfFields s.fields ++ s.events.flatMap fun e => e.name :: textsOfFields e.fields

/-- INTERNAL: **the search finds the span**: the query in effect is a part of one of its texts,
the case of the letters of ASCII aside. -/
def Found (es : ExploreState) (s : WireSpan) : Prop :=
  ∃ text ∈ textsOf s,
    (asciiLowercase es.effectiveQuery).toList <:+: (asciiLowercase text).toList

/-- INTERNAL: a search finds a span by the texts of its fields. -/
theorem any_fields_iff (fields : List (String × WireFieldValue)) (query : String) :
    (fields.any fun kv => containsText (asciiLowercase kv.1) query ||
      containsText (asciiLowercase kv.2.toStringValue) query) = true ↔
      ∃ text ∈ textsOfFields fields, containsText (asciiLowercase text) query = true := by
  unfold textsOfFields
  simp only [List.any_eq_true, Bool.or_eq_true, List.mem_flatMap, List.mem_cons, List.not_mem_nil,
    or_false]
  constructor
  · intro hfound
    obtain ⟨kv, hkv, hkey | hvalue⟩ := hfound
    · exact ⟨kv.1, ⟨kv, hkv, Or.inl rfl⟩, hkey⟩
    · exact ⟨kv.2.toStringValue, ⟨kv, hkv, Or.inr rfl⟩, hvalue⟩
  · intro hfound
    obtain ⟨text, ⟨kv, hkv, htext⟩, hcontains⟩ := hfound
    refine ⟨kv, hkv, htext.imp (fun h => ?_) fun h => ?_⟩
    · rwa [h] at hcontains
    · rwa [h] at hcontains

/-- INTERNAL: SRCLINE: explore.rs:266-290 -/
theorem spanMatchesQuery_iff (s : WireSpan) (query : String) :
    spanMatchesQuery s query = true ↔
      ∃ text ∈ textsOf s, containsText (asciiLowercase text) query = true := by
  unfold spanMatchesQuery textsOf
  dsimp only
  simp only [Bool.or_eq_true, List.any_eq_true (l := s.events), any_fields_iff, List.cons_append,
    List.mem_cons, List.mem_append, List.mem_flatMap, or_and_right, exists_or, exists_eq_left,
    or_assoc]
  refine or_congr_right (or_congr_right ?_)
  constructor
  · intro hfound
    obtain ⟨e, he, hname | ⟨text, htext, hcontains⟩⟩ := hfound
    · exact ⟨e.name, ⟨e, he, Or.inl rfl⟩, hname⟩
    · exact ⟨text, ⟨e, he, Or.inr htext⟩, hcontains⟩
  · intro hfound
    obtain ⟨text, ⟨e, he, htext⟩, hcontains⟩ := hfound
    refine ⟨e, he, htext.imp (fun h => ?_) fun h => ⟨text, h, hcontains⟩⟩
    rwa [h] at hcontains

/-- INTERNAL: the filter of the list, which lets everything through while nothing is searched.
SRCLINE: explore.rs:256-264 -/
theorem found_iff (es : ExploreState) (s : WireSpan) :
    (asciiLowercase es.effectiveQuery = "" ∨
      spanMatchesQuery s (asciiLowercase es.effectiveQuery) = true) ↔ Found es s := by
  have hsearch : spanMatchesQuery s (asciiLowercase es.effectiveQuery) = true ↔ Found es s := by
    simp only [spanMatchesQuery_iff, containsText_iff, Found]
  rw [hsearch]
  refine or_iff_right_of_imp fun hempty => ⟨s.name, List.mem_cons_self, ?_⟩
  rw [hempty]
  exact List.nil_infix

/-- INTERNAL: **a longer query finds less**. -/
theorem Found.push (es : ExploreState) (buf : String) (c : Char) (s : WireSpan)
    (hinput : es.searchInput = some buf)
    (h : Found { es with searchInput := some (buf.push c) } s) : Found es s := by
  obtain ⟨text, htext, hpart⟩ := h
  refine ⟨text, htext, List.IsInfix.trans (List.IsPrefix.isInfix ⟨[c.toLower], ?_⟩) hpart⟩
  simp [ExploreState.effectiveQuery, hinput, asciiLowercase]

/-! ## The order of the list -/

/-- INTERNAL: the order of a sort column.
SRCLINE: explore.rs:292-307 -/
def ColumnLe (column : ExploreSortColumn) (a b : WireSpan) : Prop :=
  match column with
  | .timestamp => a.openedAtNs ≤ b.openedAtNs
  | .latency => latencyNs a ≤ latencyNs b
  | .field key => fieldString a key ≤ fieldString b key

/-- INTERNAL: the order by a column can be decided. -/
instance (column : ExploreSortColumn) : DecidableRel (ColumnLe column) := fun a b =>
  match column with
  | .timestamp => inferInstanceAs (Decidable (a.openedAtNs ≤ b.openedAtNs))
  | .latency => inferInstanceAs (Decidable (latencyNs a ≤ latencyNs b))
  | .field key => inferInstanceAs (Decidable (fieldString a key ≤ fieldString b key))

/-- INTERNAL: the order by a column is total. -/
instance (column : ExploreSortColumn) : Std.Total (ColumnLe column) where
  total a b := by cases column <;> exact le_total _ _

/-- INTERNAL: the order by a column is transitive. -/
instance (column : ExploreSortColumn) : IsTrans WireSpan (ColumnLe column) where
  trans a b c := by cases column <;> exact le_trans

/-- INTERNAL: the sort by a column, up or down. -/
theorem sortSpans_eq (spans : List WireSpan) (column : ExploreSortColumn)
    (direction : SortDirection) :
    sortSpans spans column direction =
      if direction = .asc then spans.insertionSort (ColumnLe column)
      else (spans.insertionSort (ColumnLe column)).reverse := by
  cases direction <;> cases column <;> rfl

/-- INTERNAL: the column in its direction. -/
def ListedBefore (es : ExploreState) (a b : WireSpan) : Prop :=
  if es.direction = .asc then ColumnLe es.sort a b else ColumnLe es.sort b a

/-- INTERNAL: the list is in its order. -/
theorem matchingSpans_listedBefore (agg : Aggregator) (es : ExploreState) :
    (matchingSpans agg es).Pairwise (ListedBefore es) := by
  unfold matchingSpans
  dsimp only
  rw [sortSpans_eq]
  have hsorted (l : List WireSpan) : (l.insertionSort (ColumnLe es.sort)).Pairwise
      (ColumnLe es.sort) := List.pairwise_insertionSort _ l
  unfold ListedBefore
  cases es.direction with
  | asc => simpa using hsorted _
  | desc => simpa [List.pairwise_reverse] using hsorted _

/-- INTERNAL: sorting part of the spans gives part of the sorted spans. -/
theorem sortSpans_sublist (spans others : List WireSpan) (column : ExploreSortColumn)
    (direction : SortDirection) (h : spans.Sublist others) :
    (sortSpans spans column direction).Sublist (sortSpans others column direction) := by
  rw [sortSpans_eq, sortSpans_eq]
  have hsorted := insertionSort_sublist (ColumnLe column) spans others h
  split
  · exact hsorted
  · exact List.reverse_sublist.mpr hsorted

/-! ## A visit -/

/-- INTERNAL: the list is up, or a trace opened from it. -/
def OnVisit (m : ConsoleModel) : Prop := ∃ es, exploreState m.view = some es

/-- INTERNAL: as long as a visit lasts it is on one stack. -/
theorem visit_keeps_stack (m m' : ConsoleModel) (x : ℕ × Update) (es es' : ExploreState)
    (hview : exploreState m.view = some es) (hstep : turn m x = some m')
    (hview' : exploreState m'.view = some es') : es'.lockedStack = es.lockedStack := by
  obtain ⟨⟨m₁, e⟩, happly, hm₁⟩ := Option.map_eq_some_iff.mp hstep
  dsimp only at hm₁
  subst hm₁
  have hsame (h : m₁.view = m.view) : es'.lockedStack = es.lockedStack := by
    rw [h, hview] at hview'
    cases hview'
    rfl
  have hoff (hnone : exploreState m.view = none) : es'.lockedStack = es.lockedStack := by
    rw [hview] at hnone
    cases hnone
  cases apply_moves x.1 m m₁ x.2 e happly with
  | absorbs span r _ _ _ hmove _ _ =>
    rcases hmove with ⟨h, -⟩ | ⟨gs, gs', hgraph, -, -⟩
    · exact hsame h
    · exact hoff (by rw [hgraph]; rfl)
  | splits keys _ _ h _ _ => exact hsame h
  | shows _ hmove _ =>
    cases hmove with
    | same h _ => exact hsame h
    | lists es₁ es₂ h₁ h₂ _ hstack _ =>
      rw [h₁] at hview
      rw [h₂] at hview'
      cases hview
      cases hview'
      exact hstack
    | traces td₁ td₂ h₁ h₂ hexplore _ =>
      rw [h₁] at hview
      rw [h₂] at hview'
      cases hview
      cases hview'
      rw [hexplore]
    | descends td h₁ h₂ _ =>
      rw [h₁] at hview
      rw [h₂] at hview'
      cases hview
      cases hview'
      rfl
    | ascends td h₁ h₂ _ =>
      rw [h₁] at hview
      rw [h₂] at hview'
      cases hview
      cases hview'
      rfl
    | charts gs gs' h _ _ _ => exact hoff (by rw [h]; rfl)
    | opens gs hnone _ _ _ => exact hoff hnone
    | closes hnone _ _ => exact hoff hnone
    | starts stack hbegins _ _ => exact hoff hbegins.none
    | ends es₁ _ h _ =>
      rcases h with h | ⟨gs, h, -⟩ <;> rw [h] at hview' <;> cases hview'
    | abandons es₁ _ _ h _ =>
      rw [h] at hview'
      cases hview'

/-- INTERNAL: over a whole visit. -/
theorem visit_keeps_stack_run (during : List (ℕ × Update)) (m m' : ConsoleModel)
    (es es' : ExploreState) (hview : exploreState m.view = some es)
    (hvisit : RunsUnder turn (fun m _ => OnVisit m) m during) (hrun : run turn m during = some m')
    (hview' : exploreState m'.view = some es') : es'.lockedStack = es.lockedStack := by
  refine run_invariant_under turn (fun m _ => OnVisit m)
    (fun m => ∀ es', exploreState m.view = some es' → es'.lockedStack = es.lockedStack) ?_ m during
    m' ?_ hvisit hrun es' hview'
  · intro m x m₁ hstack hon hstep es₂ hview₂
    obtain ⟨es₁, hview₁⟩ := hon
    rw [visit_keeps_stack m m₁ x es₁ es₂ hview₁ hstep hview₂, hstack es₁ hview₁]
  · intro es₁ hview₁
    rw [hview] at hview₁
    cases hview₁
    rfl

/-! ## The rows of a stack -/

/-- INTERNAL: the rows of the table with a stack, one for each of its splits. -/
def rowsOf (agg : Aggregator) (stack : List String) : List (BucketKey × StackStats) :=
  agg.rows.filter fun row => row.1.stack = stack

/-- INTERNAL: the entries of the ring with a stack. -/
def entriesOf (agg : Aggregator) (stack : List String) : List Entry :=
  agg.ringEntries.filter fun e => e.bucket.stack = stack

/-- INTERNAL: the spans of the stack are those of its entries. -/
theorem lockedStackSpans_eq (agg : Aggregator) (es : ExploreState) :
    lockedStackSpans agg es = (entriesOf agg es.lockedStack).map Entry.span := by
  unfold lockedStackSpans Aggregator.iterWithStack entriesOf
  rw [List.filter_map, List.map_map]
  rfl

/-- INTERNAL: no key has two rows. -/
theorem rows_nodup (agg : Aggregator) : (agg.rows.map Prod.fst).Nodup := by
  unfold Aggregator.rows
  rw [((List.perm_insertionSort _ _).map Prod.fst).nodup_iff, List.map_map]
  exact (ExtTreeMap.map_fst_toList_eq_keys (t := agg.buckets)) ▸ ExtTreeMap.nodup_keys

/-- INTERNAL: a number summed over the rows of a stack is that of the spans of the stack. -/
theorem rowsOf_sum (agg : Aggregator) (hlocked : Locked agg) (htallied : Tallied False agg)
    (stack : List String) (f : Entry → ℕ) (g : StackStats → ℕ)
    (hpart : ∀ key st, agg.buckets[key]? = some st →
      g st.toStackStats = ((agg.ringEntries.filter fun e => e.bucket = key).map f).sum) :
    ((rowsOf agg stack).map fun row => g row.2).sum = ((entriesOf agg stack).map f).sum := by
  have hkeys := (rows_nodup agg).sublist ((List.filter_sublist (p := fun row => row.1.stack = stack)
    (l := agg.rows)).map Prod.fst)
  have hcover : ∀ e ∈ entriesOf agg stack, e.bucket ∈ (rowsOf agg stack).map Prod.fst := by
    intro e he
    obtain ⟨hmem, hstack⟩ := List.mem_filter.mp he
    have hbucket : e.bucket ∈ agg.buckets := by
      rw [htallied.buckets.mem_iff, ← coe_ringEntries agg hlocked]
      exact ⟨e, hmem, rfl⟩
    obtain ⟨st, hst⟩ := Option.isSome_iff_exists.mp
      (ExtTreeMap.isSome_getElem?_iff_mem.mpr hbucket)
    refine List.mem_map.mpr ⟨(e.bucket, st.toStackStats), List.mem_filter.mpr ⟨?_, hstack⟩, rfl⟩
    exact (mem_rows agg _).mpr ⟨st, hst, rfl⟩
  rw [← sum_by_key Entry.bucket f _ hkeys (entriesOf agg stack) hcover]
  rw [List.map_map]
  congr 1
  apply List.map_congr_left
  intro row hrow
  obtain ⟨hin, hstack⟩ := List.mem_filter.mp hrow
  obtain ⟨st, hst, hstats⟩ := (mem_rows agg row).mp hin
  rw [hstats, hpart row.1 st hst, Function.comp_apply, entriesOf, List.filter_filter]
  congr 2
  apply List.filter_congr
  intro e _
  by_cases h : e.bucket = row.1
  · simpa [h] using hstack
  · simp [h]

/-- INTERNAL: **the rows of a stack count its spans**, and sum up their totals.
SRCLINE: state.rs:406-425 -/
theorem rowsOf_counts (agg : Aggregator) (hlocked : Locked agg) (htallied : Tallied False agg)
    (es : ExploreState) :
    ((rowsOf agg es.lockedStack).map fun row => row.2.count).sum =
        (lockedStackSpans agg es).length ∧
      ((rowsOf agg es.lockedStack).map fun row => row.2.totalSumNs).sum =
        ((lockedStackSpans agg es).map Aggregator.totalOf).sum := by
  have hholds (key : BucketKey) (st : BucketState) (hst : agg.buckets[key]? = some st) :=
    (holds_of_get False _ _ htallied.buckets key st hst).2
  have hpairs := coe_bucketPairs agg hlocked
  rw [lockedStackSpans_eq]
  constructor
  · rw [rowsOf_sum agg hlocked htallied es.lockedStack (fun _ => 1) StackStats.count]
    · simp
    · intro key st hst
      have hcount := (hholds key st hst).count_eq
      rw [← hpairs, Multiset.coe_card, bucketPairs, List.length_map] at hcount
      simpa [BucketState.toStackStats] using hcount
  · rw [rowsOf_sum agg hlocked htallied es.lockedStack Entry.totalNs StackStats.totalSumNs,
      List.map_map]
    · congr 1
      apply List.map_congr_left
      intro e he
      obtain ⟨id, -, hget⟩ := (mem_ringEntries agg e).mp (List.mem_filter.mp he).1
      exact htallied.total_eq id e hget
    · intro key st hst
      have hsum := (hholds key st hst).total_sum
      rw [← hpairs, bucketPairs, Multiset.map_coe, Multiset.sum_coe, List.map_map] at hsum
      exact hsum

/-! ## The list of a row -/

/-- INTERNAL: the order of the spans of the stack is that of the ring. -/
theorem mem_lockedStackSpans (agg : Aggregator) (es : ExploreState) (s : WireSpan) :
    s ∈ lockedStackSpans agg es ↔ (s, es.lockedStack) ∈ agg.iterWithStack := by
  unfold lockedStackSpans
  rw [List.mem_map]
  constructor
  · rintro ⟨⟨s', stack⟩, hin, rfl⟩
    obtain ⟨hmem, hstack⟩ := List.mem_filter.mp hin
    have hsame : stack = es.lockedStack := of_decide_eq_true hstack
    rwa [hsame] at hmem
  · intro hmem
    exact ⟨(s, es.lockedStack), List.mem_filter.mpr ⟨hmem, decide_eq_true rfl⟩, rfl⟩

/-- INTERNAL: the list holds the spans of the stack that the search finds. -/
theorem mem_matchingSpans (agg : Aggregator) (es : ExploreState) (s : WireSpan) :
    s ∈ matchingSpans agg es ↔ (s, es.lockedStack) ∈ agg.iterWithStack ∧ Found es s := by
  rw [(matchingSpans_perm agg es).mem_iff, foundSpans, List.mem_filter, mem_lockedStackSpans,
    decide_eq_true_eq, found_iff]

/-- INTERNAL: every span is in the list once. -/
theorem matchingSpans_nodup (agg : Aggregator) (hlocked : Locked agg)
    (hid : ∀ id x, located agg id = some x → x.1.id = id) (es : ExploreState) :
    ((matchingSpans agg es).map WireSpan.id).Nodup := by
  rw [((matchingSpans_perm agg es).map WireSpan.id).nodup_iff]
  have hring : ((ringList agg).map WireSpan.id).Nodup := by
    rw [ringList_ids agg hlocked hid]
    exact hlocked.nodup
  refine hring.sublist (List.Sublist.map _ (List.filter_sublist.trans ?_))
  rw [lockedStackSpans_eq]
  exact List.filter_sublist.map _

/-- INTERNAL: the list with a character more typed. -/
theorem matchingSpans_push (agg : Aggregator) (es : ExploreState) (buf : String) (c : Char)
    (hinput : es.searchInput = some buf) :
    (matchingSpans agg { es with searchInput := some (buf.push c) }).Sublist
      (matchingSpans agg es) := by
  refine sortSpans_sublist _ _ _ _ (List.monotone_filter_right _ fun s hs => ?_)
  rw [decide_eq_true_eq, found_iff] at hs ⊢
  exact hs.push es buf c s hinput

/-- INTERNAL: the ring after a run that has received distinct ids. -/
theorem ring_run (budget : ℕ) (updates : List (ℕ × Update)) (m : ConsoleModel)
    (hids : ((receivedSpans updates).map WireSpan.id).Nodup)
    (hrun : run turn (ConsoleModel.new budget) updates = some m) :
    Locked m.agg ∧ (∀ id x, located m.agg id = some x → x.1.id = id) ∧ Tallied False m.agg := by
  obtain ⟨ops, hops, hspans, -⟩ := aggregator_run (fun _ _ => True) (fun _ _ => trivial)
    updates (ConsoleModel.new budget) m hrun
    (runsUnder_of_forall _ _ _ _ fun _ _ _ _ _ => trivial)
  have hdistinct := distinctIds_start (absorbedSpans ops) (hspans ▸ hids)
  obtain ⟨hkept, htallied⟩ := run_kept DistinctIds _
    (tallied_runInvariant budget False DistinctIds (fun _ h => h) fun h => h.elim)
    DistinctIds.mono (fun _ _ h => (Multiset.le_add_right _ _).trans h.1.bag) ops 0
    (Aggregator.new budget) m.agg hdistinct ⟨kept_new budget, tallied_new False budget⟩ hops
  exact ⟨hkept.locked, hkept.id_eq, htallied⟩

/-- CODE: core.rs:868-996, explore.rs:235-319 — **the list holds the spans that its row counts**:
through a whole visit entered from a row of the table it is on the stack of that row, with the
spans of the ring that have the stack and match the search, each once and in the order of the
column; with nothing searched for there are as many, and they took as long, as the rows of the
stack say; a character typed only takes spans out, and taking it back gives the console back. -/
theorem explored_spans_counted (budget : ℕ) (before during : List (ℕ × Update)) (now : ℕ)
    (m m₁ m' : ConsoleModel) (row : VisibleRow) (es : ExploreState)
    (hids : ((receivedSpans (before ++ (now, .enterExplore) :: during)).map WireSpan.id).Nodup)
    (hbefore : run turn (ConsoleModel.new budget) before = some m)
    (htable : m.view = .table) (hrow : m.selectedVisibleRow = some row)
    (henter : turn m (now, .enterExplore) = some m₁)
    (hvisit : RunsUnder turn (fun m _ => OnVisit m) m₁ during)
    (hduring : run turn m₁ during = some m') (hview : m'.view = .explore es) :
    (∀ s, s ∈ matchingSpans m'.agg es ↔
        (s, row.key.stack) ∈ m'.agg.iterWithStack ∧ Found es s) ∧
      ((matchingSpans m'.agg es).map WireSpan.id).Nodup ∧
      (matchingSpans m'.agg es).Pairwise (ListedBefore es) ∧
      (es.effectiveQuery = "" →
        (matchingSpans m'.agg es).length =
            ((rowsOf m'.agg row.key.stack).map fun row => row.2.count).sum ∧
          ((matchingSpans m'.agg es).map Aggregator.totalOf).sum =
            ((rowsOf m'.agg row.key.stack).map fun row => row.2.totalSumNs).sum) ∧
      ∀ (buf : String) (c : Char) (now₁ now₂ : ℕ), es.searchInput = some buf →
        isControl c = false →
        ∃ m₂ es₂, turn m' (now₁, .exploreSearchChar c) = some m₂ ∧ m₂.view = .explore es₂ ∧
          (matchingSpans m₂.agg es₂).Sublist (matchingSpans m'.agg es) ∧
          turn m₂ (now₂, .exploreSearchBackspace) = some m' := by
  have hentered : m₁.view = .explore (ExploreState.new row.key.stack m.cacheLevel) := by
    have hexplore : turn m (now, .enterExplore) = some m.enterExplore.1 := rfl
    rw [hexplore, enterExplore, htable, hrow] at henter
    cases henter
    rfl
  have hstack : es.lockedStack = row.key.stack :=
    visit_keeps_stack_run during m₁ m' _ es (by rw [hentered]; rfl) hvisit hduring
      (by rw [hview]; rfl)
  have hrun : run turn (ConsoleModel.new budget) (before ++ (now, .enterExplore) :: during) =
      some m' := by
    rw [run_append, hbefore, Option.bind_some, run_cons, henter, Option.bind_some, hduring]
  obtain ⟨hlocked, hid, htallied⟩ := ring_run budget _ m' hids hrun
  refine ⟨fun s => ?_, matchingSpans_nodup m'.agg hlocked hid es,
    matchingSpans_listedBefore m'.agg es, fun hquery => ?_,
    fun buf c now₁ now₂ hinput hcontrol => ?_⟩
  · rw [mem_matchingSpans, hstack]
  · obtain ⟨hcount, htotal⟩ := rowsOf_counts m'.agg hlocked htallied es
    have hall : foundSpans m'.agg es = lockedStackSpans m'.agg es := by
      unfold foundSpans
      rw [List.filter_eq_self]
      intro s _
      rw [hquery]
      rfl
    have hperm := matchingSpans_perm m'.agg es
    rw [hall] at hperm
    rw [hstack] at hcount htotal
    rw [hcount, htotal]
    exact ⟨hperm.length_eq, (hperm.map Aggregator.totalOf).sum_eq⟩
  · refine ⟨{ m' with view := .explore { es with searchInput := some (buf.push c) } }, _, ?_, rfl,
      matchingSpans_push m'.agg es buf c hinput, ?_⟩
    · have htyped : turn m' (now₁, .exploreSearchChar c) =
          some (m'.mapExplore fun es => exploreSearchChar es c) := rfl
      rw [htyped, mapExplore, hview]
      simp only [exploreSearchChar, hinput, Option.map_some, hcontrol, Bool.false_eq_true, if_false]
    · have htaken (n : ConsoleModel) : turn n (now₂, .exploreSearchBackspace) = some (n.mapExplore
          fun es => { es with searchInput := backspaceModal es.searchInput }) := rfl
      rw [htaken, mapExplore]
      simp only [backspaceModal, Option.map_some, String.toList_push, List.dropLast_concat,
        String.ofList_toList, ← hinput]
      rw [← hview]

/-! Two roots of one name, and a third that arrives before the search is begun. -/

/-- INTERNAL: the two roots. -/
def twoRoots : List (ℕ × Update) :=
  [(0, .spanReceived (plainSpan 1 none 9)), (1, .spanReceived (plainSpan 2 none 5))]

/-- INTERNAL: the third root, on its way when the cache was turned off. -/
def lateRoot : List (ℕ × Update) := [(3, .spanReceived (plainSpan 3 none 2))]

/-- INTERNAL: the list, if that is the view. -/
def listShown (m : ConsoleModel) : Option ExploreState :=
  match m.view with
  | .explore es => some es
  | _ => none

/-- INTERNAL: a list that is shown is the view. -/
theorem listShown_some (m : ConsoleModel) (es : ExploreState) (h : listShown m = some es) :
    m.view = .explore es := by
  unfold listShown at h
  split at h
  · next es' hview => rw [hview, Option.some.inj h]
  · cases h

/-- INTERNAL: and belongs to a visit. -/
theorem onVisit_of_list (m : ConsoleModel) (es : ExploreState) (h : listShown m = some es) :
    OnVisit m := by
  refine ⟨es, ?_⟩
  rw [listShown_some m es h]
  rfl

/-- CODE: core.rs:868-996 — the list grows to three spans, which is what the row then counts. -/
theorem explored_spans_counted_late : ∃ m m₁ m' es,
    run turn (ConsoleModel.new 10) twoRoots = some m ∧ turn m (2, .enterExplore) = some m₁ ∧
      run turn m₁ (lateRoot ++ [(4, .beginExploreSearch)]) = some m' ∧ m'.view = .explore es ∧
      es.searchInput = some "" ∧ (matchingSpans m'.agg es).map WireSpan.id = [3, 2, 1] ∧
      ((rowsOf m'.agg ["a"]).map fun row => row.2.count).sum = 3 := by
  have hroots : (run turn (ConsoleModel.new 10) twoRoots).map
      (fun m => m.selectedVisibleRow.map fun row => row.key.stack) = some (some ["a"]) := by
    decide +kernel
  have hlist : (run turn (ConsoleModel.new 10) (twoRoots ++ [(2, .enterExplore)])).map
      listShown = some (some (ExploreState.new ["a"] none)) := by
    decide +kernel
  have hlate : (run turn (ConsoleModel.new 10) (twoRoots ++ [(2, .enterExplore)] ++
      lateRoot)).map listShown = some (some (ExploreState.new ["a"] none)) := by
    decide +kernel
  have hends : (run turn (ConsoleModel.new 10) (twoRoots ++ [(2, .enterExplore)] ++ lateRoot ++
      [(4, .beginExploreSearch)])).map (fun m => (listShown m,
        (listShown m).map fun es => (matchingSpans m.agg es).map WireSpan.id)) =
      some (some { ExploreState.new ["a"] none with searchInput := some "" },
        some [3, 2, 1]) := by
    decide +kernel
  obtain ⟨m, hrun, hread⟩ := Option.map_eq_some_iff.mp hroots
  obtain ⟨row, hrow, hstack⟩ := Option.map_eq_some_iff.mp hread
  have htable : m.view = .table := by
    have hview : (run turn (ConsoleModel.new 10) twoRoots).map ConsoleModel.view = some .table :=
      rfl
    rw [hrun] at hview
    exact Option.some.inj hview
  simp only [run_append, hrun, Option.bind_some] at hlist hlate hends
  obtain ⟨m₁, hstep, hshown⟩ := Option.map_eq_some_iff.mp hlist
  have henter : turn m (2, .enterExplore) = some m₁ := by
    simpa [run_cons] using hstep
  simp only [hstep, Option.bind_some] at hlate hends
  obtain ⟨m₂, harrival, hshown₂⟩ := Option.map_eq_some_iff.mp hlate
  rw [harrival, Option.bind_some] at hends
  obtain ⟨m', hsearch, hread'⟩ := Option.map_eq_some_iff.mp hends
  obtain ⟨hshown', hspans⟩ := Prod.mk.inj hread'
  have hview := listShown_some m' _ hshown'
  rw [hshown', Option.map_some, Option.some.injEq] at hspans
  have hduring : run turn m₁ (lateRoot ++ [(4, .beginExploreSearch)]) = some m' := by
    rw [run_append, harrival, Option.bind_some, hsearch]
  have hvisit : RunsUnder turn (fun m _ => OnVisit m) m₁
      (lateRoot ++ [(4, .beginExploreSearch)]) := by
    refine ⟨onVisit_of_list m₁ _ hshown, fun n hn => ⟨?_, fun _ _ => trivial⟩⟩
    have hsame : n = m₂ := by
      rw [lateRoot, run_cons, hn] at harrival
      exact Option.some.inj harrival
    rw [hsame]
    exact onVisit_of_list m₂ _ hshown₂
  obtain ⟨-, -, -, hcounted, -⟩ := explored_spans_counted 10 twoRoots
    (lateRoot ++ [(4, .beginExploreSearch)]) 2 m m₁ m' row _ (by decide) hrun htable hrow henter
    hvisit hduring hview
  have hlength := (hcounted rfl).1
  rw [hstack] at hlength
  refine ⟨m, m₁, m', _, hrun, henter, hduring, hview, rfl, hspans, ?_⟩
  rw [← hlength]
  have hthree := congrArg List.length hspans
  rwa [List.length_map] at hthree

end TracingConsole.Analysis.Console
