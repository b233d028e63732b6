import TracingConsole.Analysis.ChartRebuild

/-!
# The sort columns of the explore view

The header lists the fields that tell the spans of the stack apart, before the search; the keys
that move the sort column walk the fields that tell the found spans apart.  A search only loses
fields (`varies_of_matching`), and the walk is that over the header's columns exactly when it
loses none.
-/

set_option autoImplicit false

namespace TracingConsole.Analysis.Console

open TracingConsole.Library TracingConsole.Model TracingConsole.Model.ConsoleModel

/-! ## Fields that tell spans apart -/

/-- INTERNAL: some of the spans have a field of this key with this text. -/
def HasValue (spans : List WireSpan) (key value : String) : Prop :=
  ∃ s ∈ spans, ∃ kv ∈ s.fields, kv.1 = key ∧ kv.2.toStringValue = value

/-- INTERNAL: **the spans vary in a field**: it has two values among them. -/
def Varies (spans : List WireSpan) (key : String) : Prop :=
  ∃ v w, v ≠ w ∧ HasValue spans key v ∧ HasValue spans key w

/-- INTERNAL: more than one value is two that differ. -/
theorem one_lt_length_dedup {α : Type} [DecidableEq α] (l : List α) :
    1 < l.dedup.length ↔ ∃ v w, v ≠ w ∧ v ∈ l ∧ w ∈ l := by
  rw [← List.card_toFinset, Finset.one_lt_card]
  simp only [List.mem_toFinset]
  constructor
  · intro htwo
    obtain ⟨v, hv, w, hw, hne⟩ := htwo
    exact ⟨v, w, hne, hv, hw⟩
  · intro htwo
    obtain ⟨v, w, hne, hv, hw⟩ := htwo
    exact ⟨v, hv, w, hw, hne⟩

/-- INTERNAL: SRCLINE: explore.rs:323-340 -/
theorem mem_distinguishingFields_iff (spans : List WireSpan) (key : String) :
    key ∈ distinguishingFields spans ↔ Varies spans key := by
  have hvalues (v : String) : v ∈ (spans.flatMap fun s =>
      (s.fields.filter fun kv => kv.1 = key).map fun kv => kv.2.toStringValue) ↔
      HasValue spans key v := by
    unfold HasValue
    rw [List.mem_flatMap]
    refine exists_congr fun s => and_congr_right fun _ => ?_
    rw [List.mem_map]
    refine exists_congr fun kv => ?_
    rw [List.mem_filter, decide_eq_true_eq, and_assoc]
  unfold distinguishingFields Varies
  rw [List.mem_insertionSort, List.mem_filter, List.mem_dedup, decide_eq_true_eq,
    one_lt_length_dedup]
  simp only [hvalues]
  refine and_iff_right_of_imp fun htwo => ?_
  obtain ⟨v, w, -, ⟨s, hs, kv, hkv, hkey, -⟩, -⟩ := htwo
  rw [List.mem_flatMap]
  exact ⟨s, hs, List.mem_map.mpr ⟨kv, hkv, hkey⟩⟩

/-- INTERNAL: the fields come sorted, each once. -/
theorem distinguishingFields_sorted (spans : List WireSpan) :
    (distinguishingFields spans).Pairwise (· ≤ ·) ∧ (distinguishingFields spans).Nodup := by
  unfold distinguishingFields
  refine ⟨List.pairwise_insertionSort _ _, ?_⟩
  rw [(List.perm_insertionSort _ _).nodup_iff]
  exact (List.nodup_dedup _).filter _

/-- INTERNAL: **the fields are those the spans vary in**, whatever the order of the spans. -/
theorem distinguishingFields_eq_iff (spans others : List WireSpan) :
    distinguishingFields spans = distinguishingFields others ↔
      ∀ key, Varies spans key ↔ Varies others key := by
  constructor
  · intro heq key
    rw [← mem_distinguishingFields_iff, heq, mem_distinguishingFields_iff]
  · intro hsame
    obtain ⟨hsorted, hnodup⟩ := distinguishingFields_sorted spans
    obtain ⟨hsorted', hnodup'⟩ := distinguishingFields_sorted others
    have hperm : (distinguishingFields spans).Perm (distinguishingFields others) := by
      rw [List.perm_ext_iff_of_nodup hnodup hnodup']
      intro key
      rw [mem_distinguishingFields_iff, mem_distinguishingFields_iff]
      exact hsame key
    exact hperm.eq_of_pairwise (fun a b _ _ hab hba => le_antisymm hab hba) hsorted hsorted'

/-! ## The search -/

/-- INTERNAL: the spans of the stack that the search leaves, in the order of the ring.
SRCLINE: explore.rs:256-264 -/
def foundSpans (agg : Aggregator) (es : ExploreState) : List WireSpan :=
  (lockedStackSpans agg es).filter fun s =>
    asciiLowercase es.effectiveQuery = "" ∨ spanMatchesQuery s (asciiLowercase es.effectiveQuery)

/-- INTERNAL: sorting loses no span. -/
theorem sortSpans_perm (spans : List WireSpan) (column : ExploreSortColumn)
    (direction : SortDirection) : (sortSpans spans column direction).Perm spans := by
  cases direction with
  | asc => cases column <;> exact List.perm_insertionSort _ _
  | desc =>
    cases column <;> exact (List.reverse_perm _).trans (List.perm_insertionSort _ _)

/-- INTERNAL: the rows of the list are the found spans, in the order of the sort column. -/
theorem matchingSpans_perm (agg : Aggregator) (es : ExploreState) :
    (matchingSpans agg es).Perm (foundSpans agg es) :=
  sortSpans_perm _ _ _

/-- INTERNAL: a value found among some spans is found among more. -/
theorem hasValue_mono (spans others : List WireSpan) (key value : String)
    (hsub : ∀ s ∈ spans, s ∈ others) (h : HasValue spans key value) :
    HasValue others key value := by
  obtain ⟨s, hs, hkv⟩ := h
  exact ⟨s, hsub s hs, hkv⟩

/-- INTERNAL: a field that varies among some spans varies among more. -/
theorem Varies.mono (spans others : List WireSpan) (key : String)
    (hsub : ∀ s ∈ spans, s ∈ others) (h : Varies spans key) : Varies others key := by
  obtain ⟨v, w, hne, hv, hw⟩ := h
  exact ⟨v, w, hne, hasValue_mono spans others key v hsub hv,
    hasValue_mono spans others key w hsub hw⟩

/-- INTERNAL: the order of the rows does not matter. -/
theorem distinguishingFields_matching (agg : Aggregator) (es : ExploreState) :
    distinguishingFields (matchingSpans agg es) = distinguishingFields (foundSpans agg es) := by
  rw [distinguishingFields_eq_iff]
  intro key
  have hperm := matchingSpans_perm agg es
  exact ⟨Varies.mono _ _ key fun s hs => hperm.mem_iff.mp hs,
    Varies.mono _ _ key fun s hs => hperm.mem_iff.mpr hs⟩

/-- INTERNAL: **the search leaves two values** of every field in which the spans of the stack
vary. -/
def SearchKeepsColumns (agg : Aggregator) (es : ExploreState) : Prop :=
  ∀ key, Varies (lockedStackSpans agg es) key → Varies (foundSpans agg es) key

/-- INTERNAL: the search keeps the columns when it keeps the fields that vary. -/
theorem searchKeepsColumns_iff (agg : Aggregator) (es : ExploreState) :
    SearchKeepsColumns agg es ↔
      distinguishingFields (matchingSpans agg es) = distinguishingFields (lockedStackSpans agg es) := by
  rw [distinguishingFields_matching, distinguishingFields_eq_iff]
  refine forall_congr' fun key => ?_
  have hfewer : Varies (foundSpans agg es) key → Varies (lockedStackSpans agg es) key :=
    Varies.mono _ _ key fun s hs => (List.mem_filter.mp hs).1
  exact ⟨fun hkeeps => ⟨hfewer, hkeeps⟩, Iff.mpr⟩

/-! ## The walk -/

/-- INTERNAL: the columns, with these fields.
SRCLINE: explore.rs:345-349 -/
def sortColumns (fields : List String) : List ExploreSortColumn :=
  [.timestamp, .latency] ++ fields.map .field

/-- INTERNAL: no column is listed twice. -/
theorem sortColumns_nodup (fields : List String) (h : fields.Nodup) :
    (sortColumns fields).Nodup := by
  have hfields : (fields.map ExploreSortColumn.field).Nodup :=
    h.map fun k k' heq => ExploreSortColumn.field.inj heq
  refine List.nodup_append.mpr ⟨by decide, hfields, ?_⟩
  intro c hc c' hc' heq
  obtain ⟨k, -, hk⟩ := List.mem_map.mp hc'
  rw [heq, ← hk] at hc
  simp at hc

/-- INTERNAL: the column at a place of the cycle, which goes around in both directions. -/
def columnAt (fields : List String) (z : ℤ) : Option ExploreSortColumn :=
  (sortColumns fields)[(z % (sortColumns fields).length).toNat]?

/-- INTERNAL: two columns beside the fields. -/
theorem length_sortColumns (fields : List String) :
    (sortColumns fields).length = fields.length + 2 := by
  unfold sortColumns
  rw [List.length_append, List.length_map]
  exact Nat.add_comm 2 fields.length

/-- INTERNAL: **one key moves one place**, from a column that is among the fields.
SRCLINE: explore.rs:344-359 -/
theorem cycleSort_at (es : ExploreState) (fields : List String) (delta z : ℤ)
    (hnodup : fields.Nodup) (h : columnAt fields z = some es.sort) :
    columnAt fields (z + delta) = some (cycleSort es fields delta).sort := by
  have hpos : (0 : ℤ) < (sortColumns fields).length := by
    rw [length_sortColumns]
    omega
  have hmem : es.sort ∈ sortColumns fields := List.mem_of_getElem? h
  obtain ⟨hlt, hget⟩ := List.getElem?_eq_some_iff.mp h
  have hidx : ((sortColumns fields).idxOf es.sort : ℤ) = z % (sortColumns fields).length := by
    rw [← hget, (sortColumns_nodup fields hnodup).idxOf_getElem]
    exact Int.toNat_of_nonneg (Int.emod_nonneg z hpos.ne')
  have hnext : (z + delta) % (sortColumns fields).length =
      ((sortColumns fields).idxOf es.sort + delta) % (sortColumns fields).length := by
    rw [hidx, Int.emod_add_emod]
  have hbound : ((z + delta) % (sortColumns fields).length).toNat <
      (sortColumns fields).length := by
    have hmod := Int.emod_lt_of_pos (z + delta) hpos
    have hnonneg := Int.emod_nonneg (z + delta) hpos.ne'
    omega
  have hsort : (cycleSort es fields delta).sort = (sortColumns fields).getD
      (((sortColumns fields).idxOf es.sort + delta) % (sortColumns fields).length).toNat
      es.sort := by
    unfold cycleSort
    exact congrArg (fun idx : ℕ => (sortColumns fields).getD
      (((idx : ℤ) + delta) % (sortColumns fields).length).toNat es.sort) (if_pos hmem)
  unfold columnAt
  rw [hsort, ← hnext, List.getD_eq_getElem _ _ hbound, List.getElem?_eq_getElem hbound]

/-- INTERNAL: wherever the key starts from, it ends at a column that is among the fields. -/
theorem cycleSort_mem (es : ExploreState) (fields : List String) (delta : ℤ) :
    (cycleSort es fields delta).sort ∈ sortColumns fields := by
  have hpos : (0 : ℤ) < (sortColumns fields).length := by
    rw [length_sortColumns]
    omega
  have hbound (z : ℤ) : (z % (sortColumns fields).length).toNat <
      (sortColumns fields).length := by
    have hmod := Int.emod_lt_of_pos z hpos
    have hnonneg := Int.emod_nonneg z hpos.ne'
    omega
  have hget (z : ℤ) : (sortColumns fields).getD (z % (sortColumns fields).length).toNat
      es.sort ∈ sortColumns fields := by
    rw [List.getD_eq_getElem _ _ (hbound z)]
    exact List.getElem_mem _
  exact hget _

/-! ## The keys -/

/-- INTERNAL: the key to the right. -/
theorem turn_sortRight (m : ConsoleModel) (es : ExploreState) (now : ℕ)
    (hview : m.view = .explore es) :
    turn m (now, .exploreSortRight) =
      some { m with view := .explore (exploreSort m.agg 1 es) } := by
  have hturn : turn m (now, .exploreSortRight) = some (m.mapExplore (exploreSort m.agg 1)) := rfl
  rw [hturn, mapExplore, hview]

/-- INTERNAL: the key to the left. -/
theorem turn_sortLeft (m : ConsoleModel) (es : ExploreState) (now : ℕ)
    (hview : m.view = .explore es) :
    turn m (now, .exploreSortLeft) =
      some { m with view := .explore (exploreSort m.agg (-1) es) } := by
  have hturn : turn m (now, .exploreSortLeft) = some (m.mapExplore (exploreSort m.agg (-1))) := rfl
  rw [hturn, mapExplore, hview]

/-- INTERNAL: key after key. -/
theorem run_sortRights (m : ConsoleModel) (es : ExploreState) (times : List ℕ)
    (hview : m.view = .explore es) :
    run turn m (times.map fun t => (t, .exploreSortRight)) =
      some { m with view := .explore ((exploreSort m.agg 1)^[times.length] es) } := by
  induction times generalizing m es with
  | nil =>
    rw [List.map_nil, run_nil, List.length_nil, Function.iterate_zero_apply, ← hview]
  | cons t times ih =>
    rw [List.map_cons, run_cons, turn_sortRight m es t hview, Option.bind_some,
      ih { m with view := .explore (exploreSort m.agg 1 es) } _ rfl, List.length_cons,
      Function.iterate_succ_apply]

/-- INTERNAL: the keys leave the search alone. -/
theorem foundSpans_iterate (agg : Aggregator) (es : ExploreState) (n : ℕ) :
    foundSpans agg ((exploreSort agg 1)^[n] es) = foundSpans agg es := by
  induction n with
  | zero => rfl
  | succ n ih =>
    rw [Function.iterate_succ_apply', ← ih]
    rfl

/-- INTERNAL: the keys cycle through the fields of the found spans. -/
theorem exploreSort_eq (agg : Aggregator) (delta : ℤ) (es : ExploreState) :
    exploreSort agg delta es = cycleSort es (distinguishingFields (foundSpans agg es)) delta := by
  rw [exploreSort, distinguishingFields_matching]

/-- INTERNAL: **key after key** the walk is around the columns of the found spans. -/
theorem iterate_sortRight (agg : Aggregator) (es : ExploreState) (z : ℤ)
    (h : columnAt (distinguishingFields (foundSpans agg es)) z = some es.sort) (n : ℕ) :
    columnAt (distinguishingFields (foundSpans agg es)) (z + n) =
      some ((exploreSort agg 1)^[n] es).sort := by
  induction n with
  | zero =>
    rw [Nat.cast_zero, add_zero]
    exact h
  | succ n ih =>
    have hnodup := (distinguishingFields_sorted (foundSpans agg es)).2
    have hnext := cycleSort_at _ _ 1 _ hnodup ih
    rw [Function.iterate_succ_apply', exploreSort_eq, foundSpans_iterate, Nat.cast_succ,
      ← add_assoc]
    exact hnext

/-- INTERNAL: the columns of the header.
SRCLINE: view/explore.rs:94-105 -/
def headerColumns (agg : Aggregator) (es : ExploreState) : List ExploreSortColumn :=
  sortColumns (distinguishingFields (lockedStackSpans agg es))

/-- INTERNAL: **the keys walk the header's columns**: right after right goes through them in
their order, around and around, and left after right comes back. -/
structure WalksColumns (m : ConsoleModel) (es : ExploreState) : Prop where
  around : ∀ times : List ℕ, ∃ m' es',
    run turn m (times.map fun t => (t, .exploreSortRight)) = some m' ∧ m'.view = .explore es' ∧
      (headerColumns m.agg es)[((headerColumns m.agg es).idxOf es.sort + times.length) %
        (headerColumns m.agg es).length]? = some es'.sort
  back : ∀ t t', ∃ m' es',
    run turn m [(t, .exploreSortRight), (t', .exploreSortLeft)] = some m' ∧
      m'.view = .explore es' ∧ es'.sort = es.sort

/-- INTERNAL: the columns come round. -/
theorem columnAt_natCast (fields : List String) (k : ℕ) :
    columnAt fields k = (sortColumns fields)[k % (sortColumns fields).length]? := by
  unfold columnAt
  rw [← Int.natCast_mod, Int.toNat_natCast]

/-- INTERNAL: a column is where it is found. -/
theorem columnAt_idxOf (fields : List String) (c : ExploreSortColumn)
    (hc : c ∈ sortColumns fields) : columnAt fields ((sortColumns fields).idxOf c) = some c := by
  have hlt := List.idxOf_lt_length_iff.mpr hc
  rw [columnAt_natCast, Nat.mod_eq_of_lt hlt, List.getElem?_eq_getElem hlt, List.getElem_idxOf]

/-! ## Exactly when the keys walk the header -/

/-- INTERNAL: with every column among the fields of the found spans, the walk is the header's. -/
theorem walks_of_keeps (m : ConsoleModel) (es : ExploreState) (hview : m.view = .explore es)
    (hcolumn : es.sort ∈ headerColumns m.agg es) (h : SearchKeepsColumns m.agg es) :
    WalksColumns m es := by
  have hfields : distinguishingFields (foundSpans m.agg es) =
      distinguishingFields (lockedStackSpans m.agg es) := by
    rw [← distinguishingFields_matching]
    exact (searchKeepsColumns_iff m.agg es).mp h
  have hstart : columnAt (distinguishingFields (foundSpans m.agg es))
      ((headerColumns m.agg es).idxOf es.sort) = some es.sort := by
    rw [hfields]
    exact columnAt_idxOf _ _ hcolumn
  constructor
  · intro times
    refine ⟨_, _, run_sortRights m es times hview, rfl, ?_⟩
    have hwalk := iterate_sortRight m.agg es _ hstart times.length
    rw [← Nat.cast_add, columnAt_natCast, hfields] at hwalk
    exact hwalk
  · intro t t'
    refine ⟨{ m with view := .explore (exploreSort m.agg (-1) (exploreSort m.agg 1 es)) }, _,
      ?_, rfl, ?_⟩
    · rw [run_cons, turn_sortRight m es t hview, Option.bind_some, run_cons,
        turn_sortLeft { m with view := .explore (exploreSort m.agg 1 es) } _ t' rfl]
      rfl
    · have hnodup := (distinguishingFields_sorted (foundSpans m.agg es)).2
      have hright := cycleSort_at es _ 1 _ hnodup hstart
      have hleft := cycleSort_at _ _ (-1) _ hnodup hright
      rw [add_neg_cancel_right, hstart] at hleft
      have hsame : foundSpans m.agg (exploreSort m.agg 1 es) = foundSpans m.agg es := rfl
      rw [exploreSort_eq, hsame, exploreSort_eq]
      exact (Option.some.inj hleft).symm

/-- INTERNAL: a walk ends at columns of the found spans, so it reaches the header's only if
these are all. -/
theorem keeps_of_walks (m : ConsoleModel) (es : ExploreState) (hview : m.view = .explore es)
    (h : WalksColumns m es) : SearchKeepsColumns m.agg es := by
  intro key hvaries
  have hcolumn : .field key ∈ headerColumns m.agg es := by
    refine List.mem_append_right _ (List.mem_map_of_mem ?_)
    exact (mem_distinguishingFields_iff _ _).mpr hvaries
  -- once around the header from the place the field is at
  set n := (headerColumns m.agg es).length with hn
  set i := (headerColumns m.agg es).idxOf es.sort with hi
  set j := (headerColumns m.agg es).idxOf (.field key) with hj
  have hjn : j < n := List.idxOf_lt_length_iff.mpr hcolumn
  have hin : i ≤ n := List.idxOf_le_length
  obtain ⟨m', es', hrun, hview', hat⟩ := h.around (List.replicate (j + (n - i) + n) 0)
  have hplace : (i + (List.replicate (j + (n - i) + n) 0).length) % n = j := by
    have hsum : i + (j + (n - i) + n) = j + n + n := by omega
    rw [List.length_replicate, hsum, Nat.add_mod_right, Nat.add_mod_right, Nat.mod_eq_of_lt hjn]
  rw [← hi, ← hn, hplace, List.getElem?_eq_getElem hjn, List.getElem_idxOf] at hat
  rw [run_sortRights m es _ hview] at hrun
  have hm' := Option.some.inj hrun
  rw [← hm'] at hview'
  have hes' := ViewMode.explore.inj hview'
  obtain ⟨k, hk⟩ : ∃ k, (List.replicate (j + (n - i) + n) 0).length = k + 1 :=
    ⟨j + (n - i) + n - 1, by rw [List.length_replicate]; omega⟩
  rw [hk, Function.iterate_succ_apply', exploreSort_eq, foundSpans_iterate] at hes'
  have hmem := cycleSort_mem ((exploreSort m.agg 1)^[k] es)
    (distinguishingFields (foundSpans m.agg es)) 1
  rw [hes', ← Option.some.inj hat, sortColumns, List.mem_append] at hmem
  rcases hmem with hfixed | hfield
  · simp at hfixed
  · obtain ⟨key', hkey', heq⟩ := List.mem_map.mp hfield
    rw [ExploreSortColumn.field.inj heq] at hkey'
    exact (mem_distinguishingFields_iff _ _).mp hkey'

/-- CODE: core.rs:937-953, explore.rs:238-264, 321-359, view/explore.rs:94-105 — **the sort
keys walk the columns of the header** if and only if every field in which the spans of the stack
vary has two values among the spans that the search leaves. -/
theorem sort_walks_header_iff (m : ConsoleModel) (es : ExploreState)
    (hview : m.view = .explore es) (hcolumn : es.sort ∈ headerColumns m.agg es) :
    WalksColumns m es ↔ SearchKeepsColumns m.agg es :=
  ⟨keeps_of_walks m es hview, walks_of_keeps m es hview hcolumn⟩

/-- INTERNAL: two spans of one stack that a field tells apart, and the stack explored. -/
def exploreUpdates : List (ℕ × Update) :=
  [(0, .spanReceived { plainSpan 1 none 7 with fields := [("k", .str "x")] }),
    (0, .spanReceived { plainSpan 2 none 7 with fields := [("k", .str "y")] }), (0, .enterExplore)]

/-- INTERNAL: the fields of the header, those of the rows and the sort column. -/
def columnsRead (m : ConsoleModel) : Option (List String × List String × ExploreSortColumn) :=
  match m.view with
  | .explore es =>
    some (distinguishingFields (lockedStackSpans m.agg es),
      distinguishingFields (matchingSpans m.agg es), es.sort)
  | _ => none

/-- INTERNAL: what is read off a list. -/
theorem columnsRead_spec (m : ConsoleModel) (header rows : List String)
    (sort : ExploreSortColumn) (h : columnsRead m = some (header, rows, sort)) :
    ∃ es, m.view = .explore es ∧ distinguishingFields (lockedStackSpans m.agg es) = header ∧
      distinguishingFields (matchingSpans m.agg es) = rows ∧ es.sort = sort := by
  unfold columnsRead at h
  cases hview : m.view with
  | explore es =>
    rw [hview] at h
    obtain ⟨hheader, hrest⟩ := Prod.mk.inj (Option.some.inj h)
    obtain ⟨hrows, hsort⟩ := Prod.mk.inj hrest
    exact ⟨es, rfl, hheader, hrows, hsort⟩
  | _ =>
    rw [hview] at h
    cases h

/-- INTERNAL: three spans of one stack that a field tells apart, and a search for two of them. -/
def searchedUpdates : List (ℕ × Update) :=
  [(0, .spanReceived { plainSpan 1 none 7 with fields := [("k", .str "x")] }),
    (0, .spanReceived { plainSpan 2 none 7 with fields := [("k", .str "xy")] }),
    (0, .spanReceived { plainSpan 3 none 7 with fields := [("k", .str "y")] }), (0, .enterExplore),
    (0, .beginExploreSearch), (0, .exploreSearchChar 'x')]

/-- INTERNAL: the search and the number of rows. -/
def searchRead (m : ConsoleModel) : Option (String × ℕ) :=
  match m.view with
  | .explore es => some (es.effectiveQuery, (matchingSpans m.agg es).length)
  | _ => none

/-- CODE: core.rs:937-943 — a live search that leaves two of three spans which a field tells apart:
the keys walk the header. -/
theorem sort_walks_searched :
    ∃ m es, run turn (ConsoleModel.new 10) searchedUpdates = some m ∧ m.view = .explore es ∧
      es.effectiveQuery = "x" ∧ (matchingSpans m.agg es).length = 2 ∧ WalksColumns m es := by
  have hread : (run turn (ConsoleModel.new 10) searchedUpdates).bind (fun m =>
      (columnsRead m).map fun columns => (columns, searchRead m)) =
        some ((["k"], ["k"], .timestamp), some ("x", 2)) := by
    decide +kernel
  obtain ⟨m, hrun, hread⟩ := Option.bind_eq_some_iff.mp hread
  obtain ⟨columns, hcolumns, hboth⟩ := Option.map_eq_some_iff.mp hread
  obtain ⟨rfl, hsearch⟩ := Prod.mk.inj hboth
  obtain ⟨es, hview, hheader, hrows, hsort⟩ := columnsRead_spec m _ _ _ hcolumns
  rw [searchRead, hview] at hsearch
  obtain ⟨hquery, hcount⟩ := Prod.mk.inj (Option.some.inj hsearch)
  refine ⟨m, es, hrun, hview, hquery, hcount, (sort_walks_header_iff m es hview ?_).mpr ?_⟩
  · rw [hsort]
    exact List.mem_append_left _ (by decide)
  · rw [searchKeepsColumns_iff, hheader, hrows]

/-- CODE: core.rs:937-943 — a live search that leaves one of the two spans: the header keeps the
field, the keys do not reach it. -/
theorem sort_skips_column :
    ∃ m es, run turn (ConsoleModel.new 10) (exploreUpdates ++
        [(0, .beginExploreSearch), (0, .exploreSearchChar 'x')]) = some m ∧
      m.view = .explore es ∧ es.sort ∈ headerColumns m.agg es ∧ ¬ WalksColumns m es := by
  have hread : (run turn (ConsoleModel.new 10) (exploreUpdates ++
      [(0, .beginExploreSearch), (0, .exploreSearchChar 'x')])).bind columnsRead =
      some (["k"], [], .timestamp) := by
    decide +kernel
  obtain ⟨m, hrun, hcolumns⟩ := Option.bind_eq_some_iff.mp hread
  obtain ⟨es, hview, hheader, hrows, hsort⟩ := columnsRead_spec m _ _ _ hcolumns
  refine ⟨m, es, hrun, hview, ?_, fun hwalks => ?_⟩
  · rw [hsort]
    exact List.mem_append_left _ (by decide)
  · have hkeeps := keeps_of_walks m es hview hwalks
    rw [searchKeepsColumns_iff, hheader, hrows] at hkeeps
    cases hkeeps

end TracingConsole.Analysis.Console
