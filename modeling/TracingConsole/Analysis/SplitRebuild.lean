import TracingConsole.Analysis.AggregateStatistics

/-!
# What a change of split keys keeps

`setSplitKeys` (state.rs:147-153) rebuilds the buckets by feeding the ring through the path
of live arrivals, in insertion order, with an empty pool that is thrown away in the end.
The comment on it (state.rs:447-453) relies on every parent appearing before its children in
that order.  This is so (`Linked.parents_first`), as long as the parent is still in the ring:
a span whose parent has been evicted is parked by the rebuild and lost with the pool.

`lossless_iff`: in every state a run reaches, a change of keys keeps the ring, the stacks
and the totals by stack exactly when the keys are the current ones or no span of the ring
has lost its parent.
-/

set_option autoImplicit false

namespace TracingConsole.Analysis

open Std (ExtTreeMap)
open TracingConsole.Library TracingConsole.Model TracingConsole.Model.Aggregator

/-! ## Rows with the splits erased -/

/-- INTERNAL: the count and the total time of the rows with a stack, whatever their splits.
SRCLINE: state.rs:406-425 -/
def stackTotals (a : Aggregator) (stack : List String) : ℕ × ℕ :=
  let rows := a.rows.filter fun row => row.1.stack = stack
  ((rows.map fun row => row.2.count).sum, (rows.map fun row => row.2.totalSumNs).sum)

/-- INTERNAL: the stacks and the totals of the ring, in no order. -/
def stackBag (a : Aggregator) : Multiset (List String × ℕ) :=
  (ring a).map fun e => (e.bucket.stack, e.totalNs)

/-- INTERNAL: summing the entries of a stack bucket by bucket. -/
theorem sum_by_bucket (f : Entry → ℕ) (keys : List BucketKey) (hnodup : keys.Nodup)
    (stack : List String) (m : Multiset Entry) (hmem : ∀ e ∈ m, e.bucket ∈ keys) :
    ((keys.filter fun key => key.stack = stack).map fun key =>
      ((m.filter fun e => e.bucket = key).map f).sum).sum =
        ((m.filter fun e => e.bucket.stack = stack).map f).sum := by
  induction m using Multiset.induction with
  | empty => simp
  | cons e m ih =>
    have hin : e.bucket ∈ keys := hmem e (Multiset.mem_cons_self e m)
    have hrest := ih fun e' he' => hmem e' (Multiset.mem_cons_of_mem he')
    have hsplit : ∀ key, (((e ::ₘ m).filter fun e => e.bucket = key).map f).sum =
        (if key = e.bucket then f e else 0) + ((m.filter fun e => e.bucket = key).map f).sum := by
      intro key
      rw [Multiset.filter_cons]
      by_cases hkey : e.bucket = key
      · rw [if_pos hkey, if_pos hkey.symm, Multiset.singleton_add, Multiset.map_cons,
          Multiset.sum_cons]
      · rw [if_neg hkey, if_neg (Ne.symm hkey), Multiset.zero_add, Nat.zero_add]
    have hone : ((keys.filter fun key => key.stack = stack).map fun key =>
        if key = e.bucket then f e else 0).sum =
          if e.bucket.stack = stack then f e else 0 := by
      rw [← List.sum_toFinset _ (hnodup.filter _), Finset.sum_ite_eq']
      simp [hin]
    simp only [hsplit, List.sum_map_add, hone, hrest]
    rw [Multiset.filter_cons]
    split
    · rw [Multiset.singleton_add, Multiset.map_cons, Multiset.sum_cons]
    · rw [Multiset.zero_add, Nat.zero_add]

/-- INTERNAL: **the rows with the splits erased are those of the ring**, for rings of any
size: counts and sums do not wrap.
SRCLINE: state.rs:406-425 -/
theorem stackTotals_eq (a : Aggregator) (h : Tallied False a) (stack : List String) :
    stackTotals a stack =
      (((stackBag a).filter fun x => x.1 = stack).card,
        (((stackBag a).filter fun x => x.1 = stack).map Prod.snd).sum) := by
  -- the rows of the stack, key by key
  have hrows : ∀ g : StackStats → ℕ,
      ((a.rows.filter fun row => row.1.stack = stack).map fun row => g row.2).sum =
        ((a.buckets.keys.filter fun key => key.stack = stack).map fun key =>
          g ((a.buckets.getD key {}).toStackStats)).sum := by
    intro g
    have hperm : a.rows.Perm (a.buckets.toList.map fun kv => (kv.1, kv.2.toStackStats)) :=
      List.perm_insertionSort _ _
    have hkeys : (a.buckets.toList.map fun kv => (kv.1, kv.2.toStackStats)) =
        a.buckets.keys.map fun key => (key, (a.buckets.getD key {}).toStackStats) := by
      rw [← ExtTreeMap.map_fst_toList_eq_keys, List.map_map]
      apply List.map_congr_left
      intro kv hkv
      have hget := ExtTreeMap.mem_toList_iff_getElem?_eq_some.mp hkv
      simp only [Function.comp, ExtTreeMap.getD_eq_getD_getElem?, hget, Option.getD_some]
    rw [hkeys] at hperm
    have hsum := ((hperm.filter fun row => decide (row.1.stack = stack)).map
      fun row => g row.2).sum_nat
    rw [hsum, List.filter_map, List.map_map]
    rfl
  have hnodup : a.buckets.keys.Nodup := keys_nodup a.buckets
  have hmem : ∀ e ∈ ring a, e.bucket ∈ a.buckets.keys := by
    intro e he
    rw [ExtTreeMap.mem_keys, h.buckets.mem_iff]
    exact ⟨e, he, rfl⟩
  have hholds : ∀ key ∈ a.buckets.keys.filter fun key => key.stack = stack,
      Holds False (a.buckets.getD key {}) (contribution (ring a) key) := by
    intro key hkey
    obtain ⟨st, hget⟩ := Option.isSome_iff_exists.mp
      (ExtTreeMap.isSome_getElem?_iff_mem.mpr
        (ExtTreeMap.mem_keys.mp (List.mem_of_mem_filter hkey)))
    rw [ExtTreeMap.getD_eq_getD_getElem?, hget, Option.getD_some]
    exact (holds_of_get False _ _ h.buckets key st hget).2
  have hbag : ∀ s : Multiset Entry, ((s.map fun e => (e.bucket.stack, e.totalNs)).filter
      fun x => x.1 = stack) =
        (s.filter fun e => e.bucket.stack = stack).map fun e => (e.bucket.stack, e.totalNs) := by
    intro s
    rw [Multiset.filter_map]
    rfl
  unfold stackTotals stackBag
  dsimp only
  rw [hrows StackStats.count, hrows StackStats.totalSumNs, hbag, Multiset.card_map,
    Multiset.map_map]
  refine Prod.ext ?_ ?_
  · have hcount := sum_by_bucket (fun _ => 1) _ hnodup stack (ring a) hmem
    simp only [Multiset.map_const', Multiset.sum_replicate, smul_eq_mul, mul_one] at hcount
    dsimp only
    rw [← hcount]
    congr 1
    apply List.map_congr_left
    intro key hkey
    change (a.buckets.getD key {}).count = _
    rw [(hholds key hkey).count_eq, contribution, Multiset.card_map]
  · have hsum := sum_by_bucket Entry.totalNs _ hnodup stack (ring a) hmem
    dsimp only [Function.comp_def]
    rw [← hsum]
    congr 1
    apply List.map_congr_left
    intro key hkey
    change (a.buckets.getD key {}).totalSumNs = _
    rw [(hholds key hkey).total_sum, contribution, Multiset.map_map]
    rfl

/-! ## What a rebuild should keep -/

/-- INTERNAL: **nothing is lost from `a` to `b`**: the same ids in the same order, each with
the stack it had, and the same counts and total times by stack. -/
structure Lossless (a b : Aggregator) : Prop where
  order_eq : b.order = a.order
  len_eq : b.len = a.len
  stacks_eq : ∀ id ∈ a.order, b.resolvedStack id = a.resolvedStack id
  totals_eq : ∀ stack, stackTotals b stack = stackTotals a stack

/-- INTERNAL: no span of the ring has lost its parent. -/
def ParentsPresent (a : Aggregator) : Prop :=
  ∀ e ∈ a.ringEntries, ∀ p, e.span.parentId = some p → p ∈ a.order

/-! ## Parents come first -/

/-- INTERNAL: **how the spans of a ring hang together**: the stack of a child is that of its
parent with its own name, if the parent is in the ring, and the parent is the older one.
SRCLINE: state.rs:393-404, 447-451 -/
structure Linked (a : Aggregator) : Prop where
  root_stack : ∀ id x, located a id = some x → x.1.parentId = none → x.2.1.stack = [x.1.name]
  child_stack : ∀ id x p y, located a id = some x → x.1.parentId = some p →
    located a p = some y → x.2.1.stack = y.2.1.stack ++ [x.1.name]
  parents_first : a.order.Pairwise fun i j => ∀ x, located a i = some x → x.1.parentId ≠ some j
  no_loop : ∀ id x, located a id = some x → x.1.parentId ≠ some id

/-- INTERNAL: the order and what is located are all there is to it. -/
theorem linked_congr (a a' : Aggregator) (horder : a'.order = a.order)
    (hlocated : ∀ id, located a' id = located a id) (h : Linked a) : Linked a' := by
  refine ⟨?_, ?_, ?_, ?_⟩
  · simpa only [hlocated] using h.root_stack
  · simpa only [hlocated] using h.child_stack
  · simpa only [hlocated, horder] using h.parents_first
  · simpa only [hlocated] using h.no_loop

/-- INTERNAL: a placement keeps the links.
SRCLINE: state.rs:231-298 -/
theorem linked_place (a a' : Aggregator) (w : WireSpan) (b : BucketKey) (r : Bool)
    (h : Linked a) (hlocked : Locked a) (hres : a.resolve w = some (b, r))
    (hplace : a.place w b r = some a')
    (hnew : located a w.id = none) (hchildless : ∀ v ∈ ringSpans a, v.parentId ≠ some w.id)
    (hself : w.parentId ≠ some w.id) : Linked a' := by
  obtain ⟨a₁, hroom, -, -, hloc⟩ := ringSpans_place a a' w b r hplace hnew
  obtain ⟨horder, -⟩ := place_order a a' w b r hplace
  have hfresh : w.id ∉ a.order := by
    rw [hlocked.mem_iff, mem_byId_iff, hnew]
    simp
  -- an entry after the placement is the new one or an old one
  have hcases := located_place_cases a a' w b r hplace hnew
  have hold : ∀ id x, located a id = some x → x.1.parentId ≠ some w.id := by
    intro id x hx
    obtain ⟨e, he, rfl⟩ := Option.map_eq_some_iff.mp hx
    exact hchildless e.span ((mem_ringSpans a e.span).mpr ⟨id, e, he, rfl⟩)
  refine ⟨?_, ?_, ?_, ?_⟩
  · intro id x hx hroot
    rcases hcases id x hx with ⟨-, rfl⟩ | ⟨-, hx⟩
    · rcases resolve_eq_some a w b r hres with ⟨-, rfl, -⟩ | ⟨p, e, hp, -⟩
      · rfl
      · rw [hroot] at hp
        cases hp
    · exact h.root_stack id x hx hroot
  · intro id x p y hx hp hy
    rcases hcases id x hx with ⟨-, rfl⟩ | ⟨-, hx⟩
    · rcases hcases p y hy with ⟨rfl, -⟩ | ⟨-, hy⟩
      · exact absurd hp hself
      · rcases resolve_eq_some a w b r hres with ⟨hroot, -⟩ | ⟨p', e, hp', he, rfl, -⟩
        · rw [hroot] at hp
          cases hp
        · rw [hp] at hp'
          cases hp'
          rw [located, he] at hy
          cases hy
          rfl
    · rcases hcases p y hy with ⟨rfl, -⟩ | ⟨-, hy⟩
      · exact absurd hp (hold id x hx)
      · exact h.child_stack id x p y hx hp hy
  · rw [horder, List.pairwise_append]
    refine ⟨?_, List.pairwise_singleton _ _, ?_⟩
    · refine (h.parents_first.sublist (List.drop_sublist _ _)).imp_of_mem ?_
      intro i j hi _ hij x hx
      rcases hcases i x hx with ⟨rfl, -⟩ | ⟨-, hx⟩
      · exact absurd (List.mem_of_mem_drop hi) hfresh
      · exact hij x hx
    · intro i _ j hj x hx
      rw [List.mem_singleton] at hj
      subst hj
      rcases hcases i x hx with ⟨-, rfl⟩ | ⟨-, hx⟩
      · exact hself
      · exact hold i x hx
  · intro id x hx
    rcases hcases id x hx with ⟨rfl, rfl⟩ | ⟨-, hx⟩
    · exact hself
    · exact h.no_loop id x hx

/-- INTERNAL: in every run the spans of the ring hang together.
SRCLINE: state.rs:147-153, 213-306, 427-462 -/
theorem linked_runInvariant (budget : ℕ) :
    RunInvariant DistinctIds fun seen a work =>
      (Kept budget seen a work ∧ Tallied False a) ∧ Linked a := by
  apply (tallied_runInvariant budget False DistinctIds (fun _ h => h) (fun h => h.elim)).and
  · intro seen c c' hids hold _ h hc
    have hkept := hold.1
    rcases cascadeStep_cases _ _ hc with
      ⟨w, rest, p, -, -, -, rfl⟩ | ⟨w, rest, b, r, a', hwork, hres, hplace, rfl⟩
    · obtain ⟨-, horder, -, -, -⟩ := parkPending_frame c.agg p w
      exact linked_congr c.agg _ horder (fun id => located_parkPending c.agg p id w) h
    · rw [hwork] at hkept
      obtain ⟨hnone, hchildless⟩ := hkept.placeable _ _ _ _ _ hids
      obtain ⟨-, horder, -, -, -⟩ := takeWaiters_frame a' w.id
      apply linked_congr a' _ horder fun id => located_takeWaiters a' w.id id
      apply linked_place c.agg a' w b r h hkept.locked hres hplace hnone hchildless
      intro hself
      exact (hkept.parent_past _ _ _ _ _ hids b r hres w.id hself).1 rfl
  · intro seen a w _ h
    exact h
  · intro seen a keys _
    refine ⟨?_, ?_, List.Pairwise.nil, ?_⟩
    · intro id x hx
      simp [located, cleared] at hx
    · intro id x p y hx
      simp [located, cleared] at hx
    · intro id x hx
      simp [located, cleared] at hx
  · intro seen seen' a b _ h' _
    exact linked_congr b _ rfl (fun _ => rfl) h'

/-- INTERNAL: the aggregator starts linked. -/
theorem linked_new (budget : ℕ) : Linked (Aggregator.new budget) := by
  refine ⟨?_, ?_, List.Pairwise.nil, ?_⟩
  · intro id x hx
    simp [located, Aggregator.new] at hx
  · intro id x p y hx
    simp [located, Aggregator.new] at hx
  · intro id x hx
    simp [located, Aggregator.new] at hx

/-! ## A rebuild in which no parent is missing -/

/-- INTERNAL: `b` holds the first ids `done` of the ring of `a`, each with its span, its
stack and its total, and nobody waits.
SRCLINE: state.rs:434-456 -/
structure Refed (a : Aggregator) (done : List ℕ) (b : Aggregator) : Prop where
  order_eq : b.order = done
  located_eq : ∀ id, (located b id).map (fun x => (x.1, x.2.1.stack, x.2.2)) =
    if id ∈ done then (located a id).map (fun x => (x.1, x.2.1.stack, x.2.2)) else none
  pending_eq : b.pending = ∅
  budget_eq : b.historyBudget = a.historyBudget

/-- INTERNAL: a span whose parent has been fed back is placed with the stack it had.
SRCLINE: state.rs:231-306, 447-456 -/
theorem refed_step (a b : Aggregator) (done : List ℕ) (id : ℕ) (e : Entry) (h : Refed a done b)
    (hlinked : Linked a) (he : a.byId[id]? = some e) (hid : e.span.id = id)
    (htotal : e.totalNs = totalOf e.span) (hfresh : id ∉ done)
    (hroom : done.length < a.historyBudget)
    (hparent : ∀ p, e.span.parentId = some p → p ∈ done ∧ p ∈ a.byId) :
    ∃ b', b.absorbResolvedAll e.span [] = some (b', [id]) ∧ Refed a (done ++ [id]) b' := by
  have hlocated : located a id = some (e.span, e.bucket, e.totalNs) := by
    rw [located, he]
    rfl
  -- the span resolves, to its old stack
  obtain ⟨key, r, hres, hstack⟩ : ∃ key r, b.resolve e.span = some (key, r) ∧
      key.stack = e.bucket.stack := by
    cases hp : e.span.parentId with
    | none =>
      refine ⟨b.resolveRoot e.span, false, ?_, ?_⟩
      · unfold Aggregator.resolve
        simp only [hp]
      · exact (hlinked.root_stack id _ hlocated hp).symm
    | some p =>
      obtain ⟨hdone, hin⟩ := hparent p hp
      obtain ⟨ea, hea⟩ := Option.isSome_iff_exists.mp (ExtTreeMap.isSome_getElem?_iff_mem.mpr hin)
      have hla : located a p = some (ea.span, ea.bucket, ea.totalNs) := by
        rw [located, hea]
        rfl
      have hread := h.located_eq p
      rw [if_pos hdone, hla] at hread
      obtain ⟨x, hx, heq⟩ := Option.map_eq_some_iff.mp hread
      obtain ⟨eb, heb, rfl⟩ := Option.map_eq_some_iff.mp hx
      simp only [Prod.mk.injEq] at heq
      refine ⟨b.resolveWithParent e.span eb, true, ?_, ?_⟩
      · unfold Aggregator.resolve
        simp only [hp, heb]
      · have hold := hlinked.child_stack id _ p _ hlocated hp hla
        change eb.bucket.stack ++ [e.span.name] = e.bucket.stack
        rw [heq.2.1]
        exact hold.symm
  -- it is placed without an eviction, and releases nobody
  have hmake : b.makeRoom = some b := by
    apply makeRoom_of_room
    rw [h.order_eq, h.budget_eq]
    exact hroom
  have hplace : b.place e.span key r =
      some ((b.chargeParent r e.span).insertEntry (b.entryOf e.span key)) := by
    unfold place
    rw [hmake]
    rfl
  set b' := (b.chargeParent r e.span).insertEntry (b.entryOf e.span key) with hb'
  obtain ⟨hconfig, hpool, horder⟩ := placed_frame b r e.span (b.entryOf e.span key)
  rw [← hb'] at hconfig hpool horder
  have hpending : b'.pending = ∅ := (congrArg Prod.fst hpool).trans h.pending_eq
  have htake : b'.takeWaiters id = ([], b') := by
    unfold takeWaiters
    rw [hpending]
    simp
  refine ⟨b', ?_, ?_, ?_, hpending, ?_⟩
  · unfold absorbResolvedAll absorbResolved
    simp only [hres, hplace, hid, htake, List.nil_append, List.foldlM_nil]
    rfl
  · rw [horder, h.order_eq, ← hid]
    rfl
  · intro k
    have hk : located b' k =
        if k = id then some (e.span, key, totalOf e.span) else located b k := by
      rw [hb', located_placed, ← hid]
      rfl
    rw [hk]
    by_cases hki : k = id
    · subst hki
      rw [if_pos rfl, if_pos (by simp), hlocated]
      simp only [Option.map_some, hstack, htotal]
    · rw [if_neg hki, h.located_eq k]
      simp [hki]
  · exact (congrArg (fun c => c.2.2) hconfig).trans h.budget_eq

/-- INTERNAL: a parent in the ring is ahead of its children in the queue. -/
theorem Linked.parent_before {a : Aggregator} (h : Linked a) (done rest : List ℕ) (id : ℕ)
    (horder : a.order = done ++ id :: rest) (x : WireSpan × BucketKey × ℕ)
    (hx : located a id = some x) (p : ℕ) (hp : x.1.parentId = some p) (hin : p ∈ a.order) :
    p ∈ done := by
  rw [horder, List.mem_append, List.mem_cons] at hin
  rcases hin with hdone | hself | hlater
  · exact hdone
  · subst hself
    exact absurd hp (h.no_loop p x hx)
  · -- a parent later in the queue would contradict `parents_first`
    have hfirst := h.parents_first
    rw [horder] at hfirst
    have htail := (List.pairwise_append.mp hfirst).2.1
    exact absurd hp ((List.pairwise_cons.mp htail).1 p hlater x hx)

/-- INTERNAL: **a rebuild in which no parent is missing goes through the whole ring**.
SRCLINE: state.rs:447-456 -/
theorem refed_all (a : Aggregator) (hlinked : Linked a) (hlocked : Locked a)
    (hid : ∀ id x, located a id = some x → x.1.id = id) (htallied : Tallied False a)
    (hroom : a.order.length ≤ a.historyBudget) (hpresent : ParentsPresent a)
    (done rest : List ℕ) (horder : a.order = done ++ rest) (byId : ExtTreeMap ℕ Entry)
    (hbyId : ∀ id ∈ rest, byId[id]? = a.byId[id]?) (b : Aggregator) (h : Refed a done b) :
    ∃ b', refeed rest byId b = some b' ∧ Refed a a.order b' := by
  induction rest generalizing done byId b with
  | nil =>
    rw [List.append_nil] at horder
    exact ⟨b, rfl, horder ▸ h⟩
  | cons id rest ih =>
    have hnodup := hlocked.nodup
    rw [horder] at hnodup
    obtain ⟨-, hrest, hdisjoint⟩ := List.nodup_append.mp hnodup
    have hfresh : id ∉ done := fun hin => hdisjoint id hin id (by simp) rfl
    have hin : id ∈ a.order := by
      rw [horder]
      simp
    obtain ⟨e, he⟩ := Option.isSome_iff_exists.mp
      (ExtTreeMap.isSome_getElem?_iff_mem.mpr ((hlocked.mem_iff id).mp hin))
    have hlocated : located a id = some (e.span, e.bucket, e.totalNs) := by
      rw [located, he]
      rfl
    have hparent : ∀ p, e.span.parentId = some p → p ∈ done ∧ p ∈ a.byId := by
      intro p hp
      have hpin := hpresent e ((mem_ringEntries a e).mpr ⟨id, hin, he⟩) p hp
      exact ⟨hlinked.parent_before done rest id horder _ hlocated p hp hpin,
        (hlocked.mem_iff p).mp hpin⟩
    have hlen : done.length < a.historyBudget := by
      rw [horder, List.length_append, List.length_cons] at hroom
      omega
    obtain ⟨b₁, h₁, hrefed₁⟩ := refed_step a b done id e h hlinked he (hid id _ hlocated)
      (htallied.total_eq id e he) hfresh hlen hparent
    have hread : byId[id]? = some e := by
      rw [hbyId id (by simp), he]
    obtain ⟨b', h', hrefed'⟩ := ih (done ++ [id]) (by rw [horder]; simp) (byId.erase id) (by
      intro k hk
      have hne : k ≠ id := by
        rintro rfl
        exact (List.nodup_cons.mp hrest).1 hk
      rw [getElem?_erase_eq, if_neg hne]
      exact hbyId k (by simp [hk])) b₁ hrefed₁
    refine ⟨b', ?_, hrefed'⟩
    unfold refeed
    simp only [hread, h₁, Option.bind_some]
    exact h'

/-- INTERNAL: what holds the whole ring holds it under every id. -/
theorem Refed.located_all {a b : Aggregator} (h : Refed a a.order b) (hlocked : Locked a) (id : ℕ) :
    (located b id).map (fun x => (x.1, x.2.1.stack, x.2.2)) =
      (located a id).map (fun x => (x.1, x.2.1.stack, x.2.2)) := by
  rw [h.located_eq id]
  split
  · rfl
  · next hout =>
    rw [hlocked.mem_iff, ← ExtTreeMap.isSome_getElem?_iff_mem, Bool.not_eq_true,
      Option.isSome_eq_false_iff, Option.isNone_iff_eq_none] at hout
    rw [(located_eq_none a id).mpr hout]
    rfl

/-- INTERNAL: two rings with the same spans, stacks and totals are merged to the same rows. -/
theorem stackBag_congr (a b : Aggregator) (h : ∀ id,
    (located b id).map (fun x => (x.1, x.2.1.stack, x.2.2)) =
      (located a id).map (fun x => (x.1, x.2.1.stack, x.2.2))) : stackBag b = stackBag a := by
  apply values_map_congr
  intro id
  have := congrArg (Option.map Prod.snd) (h id)
  simpa [located, Option.map_map, Function.comp_def] using this

/-- INTERNAL: **the ring a change of keys gives back when no parent is missing**: the same ids
in the same order, each with its span, its stack and its total.
SRCLINE: state.rs:147-153, 427-462 -/
theorem setSplitKeys_same_ring (a b : Aggregator) (budget : ℕ) (seen : Multiset WireSpan)
    (hkept : Kept budget seen a []) (htallied : Tallied False a) (hlinked : Linked a)
    (hpresent : ParentsPresent a) (keys : Finset String) (h : a.setSplitKeys keys = some b) :
    b.order = a.order ∧ ∀ id, (located b id).map (fun x => (x.1, x.2.1.stack, x.2.2)) =
      (located a id).map (fun x => (x.1, x.2.1.stack, x.2.2)) := by
  unfold setSplitKeys at h
  split at h
  · cases h
    exact ⟨rfl, fun _ => rfl⟩
  · obtain ⟨b', hrefeed, rfl⟩ := Option.map_eq_some_iff.mp h
    have hempty : Refed a [] (cleared a keys) := by
      refine ⟨rfl, ?_, rfl, rfl⟩
      intro id
      simp [located, cleared]
    have hroom : a.order.length ≤ a.historyBudget := by
      rw [hkept.budget_eq]
      exact hkept.room
    obtain ⟨b₁, h₁, hrefed⟩ := refed_all a hlinked hkept.locked hkept.id_eq htallied hroom
      hpresent [] a.order rfl a.byId (fun _ _ => rfl) (cleared a keys) hempty
    have heq : b₁ = b' := Option.some.inj (h₁.symm.trans hrefeed)
    subst heq
    exact ⟨hrefed.order_eq, hrefed.located_all hkept.locked⟩

/-! ## A rebuild in which a parent is missing -/

/-- INTERNAL: **a span whose parent is not in the ring does not come back**.
SRCLINE: state.rs:427-462 -/
theorem orphan_lost (a b : Aggregator) (budget : ℕ) (seen seen' : Multiset WireSpan)
    (hids : DistinctIds seen) (hkept : Kept budget seen a []) (hkept' : Kept budget seen' b [])
    (hle : seen' ≤ ringSpans a) (e : Entry) (he : e ∈ a.ringEntries) (p : ℕ)
    (hp : e.span.parentId = some p) (hmissing : p ∉ a.order) : e.span.id ∉ b.order := by
  have hring : ringSpans a ≤ seen := (Multiset.le_add_right _ _).trans hkept.bag
  have hringb : ringSpans b ≤ seen' := (Multiset.le_add_right _ _).trans hkept'.bag
  obtain ⟨id, hin, hget⟩ := (mem_ringEntries a e).mp he
  have hea : e.span ∈ ringSpans a := (mem_ringSpans a e.span).mpr ⟨id, e, hget, rfl⟩
  intro hinb
  obtain ⟨eb, heb⟩ := Option.isSome_iff_exists.mp
    (ExtTreeMap.isSome_getElem?_iff_mem.mpr ((hkept'.locked.mem_iff _).mp hinb))
  have hidb : eb.span.id = e.span.id := hkept'.id_eq _ _ (by rw [located, heb]; rfl)
  have hmemb : eb.span ∈ ringSpans b := (mem_ringSpans b eb.span).mpr ⟨_, eb, heb, rfl⟩
  -- it would be the same span, and its parent would have been fed back
  have hsame : eb.span = e.span := by
    apply hids.eq_of_id seen
    · exact Multiset.mem_of_le (hringb.trans (hle.trans hring)) hmemb
    · exact Multiset.mem_of_le hring hea
    · exact hidb
  have hseen := (hkept'.past eb.span hmemb p (by rw [hsame]; exact hp)).1
  obtain ⟨v, hv, hvid⟩ := Multiset.mem_map.mp hseen
  obtain ⟨k, ev, hev, hevs⟩ := (mem_ringSpans a v).mp (Multiset.mem_of_le hle hv)
  have hk : ev.span.id = k := hkept.id_eq k _ (by rw [located, hev]; rfl)
  apply hmissing
  rw [hkept.locked.mem_iff, ← hvid, ← hevs, hk]
  exact ExtTreeMap.isSome_getElem?_iff_mem.mp (by rw [hev]; rfl)

/-! ## Exactly when nothing is lost -/

/-- INTERNAL: **a change of keys is lossless exactly when it changes nothing or no parent is
missing**, in a state with the invariants of a run.
SRCLINE: state.rs:147-153, 427-462 -/
theorem setSplitKeys_lossless_iff (a b : Aggregator) (budget : ℕ) (seen : Multiset WireSpan)
    (hids : DistinctIds seen) (hkept : Kept budget seen a []) (htallied : Tallied False a)
    (hlinked : Linked a) (keys : Finset String) (h : a.setSplitKeys keys = some b) :
    Lossless a b ↔ keys = a.splitKeys ∨ ParentsPresent a := by
  have hset := h
  unfold setSplitKeys at h
  split at h
  · next hsame =>
    cases h
    exact ⟨fun _ => Or.inl hsame, fun _ => ⟨rfl, rfl, fun _ _ => rfl, fun _ => rfl⟩⟩
  · next hnew =>
    obtain ⟨b', hrefeed, rfl⟩ := Option.map_eq_some_iff.mp h
    have hring : ringSpans a ≤ seen := (Multiset.le_add_right _ _).trans hkept.bag
    have hstart := (tallied_runInvariant budget False DistinctIds (fun _ h => h)
      (fun h => h.elim)).clear seen a keys ⟨hkept, htallied⟩
    obtain ⟨seen', hle, hkept', htallied'⟩ := refeed_kept DistinctIds _
      (tallied_runInvariant budget False DistinctIds (fun _ h => h) (fun h => h.elim))
      DistinctIds.mono a.order a.byId (cleared a keys) b' 0 (ringSpans a)
      (DistinctIds.mono _ _ hring hids) (zero_add _).le hstart hrefeed
    have htallied₁ : Tallied False { b' with pending := a.pending, pendingLen := a.pendingLen } :=
      tallied_congr False b' _ rfl rfl htallied'
    constructor
    · intro hlossless
      refine Or.inr ?_
      intro e he p hp
      by_contra hmissing
      have hlost := orphan_lost a b' budget seen seen' hids hkept hkept' hle e he p hp hmissing
      obtain ⟨id, hin, hget⟩ := (mem_ringEntries a e).mp he
      have hid : e.span.id = id := hkept.id_eq id _ (by rw [located, hget]; rfl)
      have horder : b'.order = a.order := hlossless.order_eq
      rw [horder, hid] at hlost
      exact hlost hin
    · rintro (hsame | hpresent)
      · exact absurd hsame hnew
      · obtain ⟨horder, hlocated⟩ := setSplitKeys_same_ring a _ budget seen hkept htallied hlinked
          hpresent keys hset
        refine ⟨horder, congrArg List.length horder, ?_, ?_⟩
        · intro id _
          have hstack := congrArg (Option.map fun x => x.2.1) (hlocated id)
          simpa [located, resolvedStack, Option.map_map, Function.comp_def] using hstack
        · intro stack
          rw [stackTotals_eq _ htallied₁ stack, stackTotals_eq a htallied stack]
          rw [stackBag_congr a _ hlocated]

/-- CODE: state.rs:147-153, 427-462 — **exactly when a change of split keys loses nothing**:
in every state a run reaches, when the keys are the current ones or every span of the ring
that has a parent has it in the ring. -/
theorem lossless_iff (budget : ℕ) (ops : List AggregatorOp) (hpos : 1 ≤ budget)
    (hids : ((absorbedSpans ops).map WireSpan.id).Nodup) :
    ∃ a, run AggregatorOp.perform (Aggregator.new budget) ops = some a ∧
      ∀ keys, ∃ b, a.setSplitKeys keys = some b ∧
        (Lossless a b ↔ keys = a.splitKeys ∨ ParentsPresent a) := by
  obtain ⟨a, hrun⟩ := run_total ops (Aggregator.new budget) hpos
  have hdistinct := distinctIds_start (absorbedSpans ops) hids
  obtain ⟨⟨hkept, htallied⟩, hlinked⟩ := run_kept DistinctIds _ (linked_runInvariant budget)
    DistinctIds.mono (fun seen a h => (Multiset.le_add_right _ _).trans h.1.1.bag) ops 0
    (Aggregator.new budget) a hdistinct
    ⟨⟨kept_new budget, tallied_new False budget⟩, linked_new budget⟩ hrun
  refine ⟨a, hrun, fun keys => ?_⟩
  obtain ⟨b, hb, -⟩ := perform_total a (.setSplitKeys keys) (by rw [hkept.budget_eq]; exact hpos)
  exact ⟨b, hb, setSplitKeys_lossless_iff a b budget _ hdistinct hkept htallied hlinked keys hb⟩

/-- CODE: state.rs:147-153, 427-462 — a ring of two, full and with every parent in it. -/
theorem lossless_iff_small :
    ∃ a, run AggregatorOp.perform (Aggregator.new 2)
        [.absorb (plainSpan 1 none 7), .absorb (plainSpan 2 (some 1) 3)] = some a ∧
      ∀ keys, ∃ b, a.setSplitKeys keys = some b ∧
        (Lossless a b ↔ keys = a.splitKeys ∨ ParentsPresent a) :=
  lossless_iff 2 _ (by decide) (by decide)

/-- CODE: state.rs:447-462 — a ring of one span whose parent was evicted is empty after a
change of keys. -/
theorem rebuild_loses_orphan :
    ∃ a b, run AggregatorOp.perform (Aggregator.new 1)
        [.absorb (plainSpan 1 none 7), .absorb (plainSpan 2 (some 1) 3)] = some a ∧
      a.setSplitKeys {"api"} = some b ∧ a.order = [2] ∧ b.order = [] ∧ ¬ Lossless a b := by
  have hafter : ((run AggregatorOp.perform (Aggregator.new 1)
      [.absorb (plainSpan 1 none 7), .absorb (plainSpan 2 (some 1) 3)]).bind fun a =>
        (a.setSplitKeys {"api"}).map fun b => (a.order, b.order)) = some ([2], []) := by
    decide
  obtain ⟨a, ha, hafter⟩ := Option.bind_eq_some_iff.mp hafter
  obtain ⟨b, hb, horders⟩ := Option.map_eq_some_iff.mp hafter
  simp only [Prod.mk.injEq] at horders
  refine ⟨a, b, ha, hb, horders.1, horders.2, ?_⟩
  intro hlossless
  have hsame := hlossless.order_eq
  rw [horders.1, horders.2] at hsame
  cases hsame

end TracingConsole.Analysis
