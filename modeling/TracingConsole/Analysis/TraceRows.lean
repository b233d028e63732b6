import TracingConsole.Analysis.RingWellFormed
import TracingConsole.Analysis.StackTable
import TracingConsole.Library.NestedListing

/-!
# The rows of a trace

The trace view indexes the ring by parent and walks down from a root, a span's events and
children in the order of their times.  In a ring without cycles the walk ends, and its rows are
the tree below the root as far as nothing above is collapsed: each span and each event once,
every subtree in one piece behind its head (`trace_rows_exact`).
-/

set_option autoImplicit false

namespace TracingConsole.Analysis.Trace

open Std (ExtTreeMap)
open Relation
open TracingConsole.Library TracingConsole.Model TracingConsole.Model.Aggregator
open TracingConsole.Analysis

/-! ## The index -/

/-- INTERNAL: the index takes the spans one by one. -/
theorem ofSpans_snoc (spans : List WireSpan) (s : WireSpan) :
    TraceIndex.ofSpans (spans ++ [s]) = (TraceIndex.ofSpans spans).push s := by
  unfold TraceIndex.ofSpans
  rw [List.foldl_append]
  rfl

/-- INTERNAL: a span is found by its id.
SRCLINE: explore.rs:164 -/
theorem spanById_ofSpans (spans : List WireSpan) (hids : (spans.map WireSpan.id).Nodup) (id : ℕ)
    (s : WireSpan) :
    (TraceIndex.ofSpans spans).spanById[id]? = some s ↔ s ∈ spans ∧ s.id = id := by
  induction spans using List.reverseRecOn with
  | nil => simp [TraceIndex.ofSpans]
  | append_singleton spans t ih =>
    rw [List.map_append, List.nodup_append] at hids
    obtain ⟨hids, -, hfresh⟩ := hids
    rw [ofSpans_snoc, TraceIndex.push, getElem?_insert_eq]
    by_cases hid : id = t.id
    · rw [if_pos hid]
      constructor
      · intro hsome
        have hs : t = s := by simpa using hsome
        simp [← hs, hid]
      · intro hs
        rcases List.mem_append.mp hs.1 with hold | hnew
        · have hne := hfresh s.id (List.mem_map_of_mem hold) t.id (by simp)
          exact absurd (hs.2.trans hid) hne
        · rw [List.mem_singleton.mp hnew]
    · rw [if_neg hid, ih hids]
      constructor
      · exact fun hs => ⟨List.mem_append_left _ hs.1, hs.2⟩
      · intro hs
        refine ⟨?_, hs.2⟩
        rcases List.mem_append.mp hs.1 with hold | hnew
        · exact hold
        · rw [List.mem_singleton.mp hnew] at hs
          exact absurd hs.2.symm hid

/-- INTERNAL: the children of a span are listed under it in the order of the ring.
SRCLINE: explore.rs:165-167 -/
theorem byParent_ofSpans (spans : List WireSpan) (p : ℕ) :
    (TraceIndex.ofSpans spans).byParent.getD p [] =
      (spans.filter fun s => s.parentId = some p).map WireSpan.id := by
  induction spans using List.reverseRecOn with
  | nil => simp [TraceIndex.ofSpans]
  | append_singleton spans t ih =>
    rw [ofSpans_snoc, TraceIndex.push, List.filter_append, List.map_append, ← ih]
    cases hparent : t.parentId with
    | none => simp [hparent]
    | some q =>
      dsimp only
      rw [ExtTreeMap.getD_eq_getD_getElem?, getElem?_insert_eq]
      by_cases hpq : p = q
      · rw [if_pos hpq]
        simp [hparent, hpq]
      · have hqp : ¬ q = p := fun h => hpq h.symm
        rw [if_neg hpq, ← ExtTreeMap.getD_eq_getD_getElem?]
        simp [hparent, hqp]

/-- INTERNAL: the index of a ring. -/
def ringIndex (a : Aggregator) : TraceIndex :=
  TraceIndex.ofSpans (a.iterWithStack.map Prod.fst)

section Ring

variable (a : Aggregator)

/-- INTERNAL: the ring is listed without the stacks. -/
theorem map_iterWithStack : a.iterWithStack.map Prod.fst = ringList a := by
  unfold iterWithStack ringList
  rw [List.map_map]
  rfl

/-- INTERNAL: the listed spans are those the ring finds by their ids. -/
theorem mem_ringList (h : Sane a) (s : WireSpan) :
    s ∈ ringList a ↔ a.spanById s.id = some s := by
  unfold ringList spanById
  rw [List.mem_map, Option.map_eq_some_iff]
  constructor
  · intro hs
    obtain ⟨e, he, heq⟩ := hs
    obtain ⟨id, -, hget⟩ := (mem_ringEntries a e).mp he
    have hid : e.span.id = id := h.id_eq id _ (by rw [located, hget]; rfl)
    refine ⟨e, ?_, heq⟩
    rw [← heq, hid]
    exact hget
  · intro hs
    obtain ⟨e, he, heq⟩ := hs
    refine ⟨e, (mem_ringEntries a e).mpr ⟨s.id, ?_, he⟩, heq⟩
    apply (h.locked.mem_iff s.id).mpr
    apply ExtTreeMap.isSome_getElem?_iff_mem.mp
    rw [he]
    rfl

/-- INTERNAL: a span is found by its own id. -/
theorem spanById_id (h : Sane a) (id : ℕ) (s : WireSpan) (hs : a.spanById id = some s) :
    s.id = id := by
  obtain ⟨e, he, heq⟩ := Option.map_eq_some_iff.mp hs
  rw [← heq]
  exact h.id_eq id _ (by rw [located, he]; rfl)

/-- INTERNAL: a link to a parent is one of a span in the ring. -/
theorem parentLink_spanById (x y : ℕ) :
    ParentLink a x y ↔ ∃ s, a.spanById x = some s ∧ s.parentId = some y := by
  unfold ParentLink spanById
  constructor
  · intro hlink
    obtain ⟨e, he, hp⟩ := hlink
    exact ⟨e.span, by rw [he]; rfl, hp⟩
  · intro hspan
    obtain ⟨s, hs, hp⟩ := hspan
    obtain ⟨e, he, heq⟩ := Option.map_eq_some_iff.mp hs
    exact ⟨e, he, by rw [heq]; exact hp⟩

/-- INTERNAL: a span has one parent at most. -/
theorem parentLink_single : SingleLink (ParentLink a) := by
  intro x y z hy hz
  obtain ⟨e, he, hp⟩ := hy
  obtain ⟨e', he', hp'⟩ := hz
  rw [he] at he'
  rw [← Option.some.inj he', hp] at hp'
  exact Option.some.inj hp'

/-- INTERNAL: the index finds what the ring finds. -/
theorem ringIndex_spanById (h : Sane a) (id : ℕ) : (ringIndex a).spanById[id]? = a.spanById id := by
  have hids : ((ringList a).map WireSpan.id).Nodup := by
    rw [ringList_ids a h.locked h.id_eq]
    exact h.locked.nodup
  apply Option.ext
  intro s
  unfold ringIndex
  rw [map_iterWithStack, spanById_ofSpans _ hids, mem_ringList a h]
  constructor
  · intro hs
    rw [← hs.2]
    exact hs.1
  · intro hs
    have hid := spanById_id a h id s hs
    rw [hid]
    exact ⟨hs, rfl⟩

/-- INTERNAL: the children of a span of a ring.
SRCLINE: explore.rs:169-171, 189 -/
theorem mem_kids (h : Sane a) (p c : ℕ) : c ∈ (ringIndex a).kids p ↔ ParentLink a c p := by
  unfold TraceIndex.kids ringIndex
  rw [List.mem_insertionSort, map_iterWithStack, byParent_ofSpans, List.mem_map,
    parentLink_spanById]
  constructor
  · intro hc
    obtain ⟨s, hs, hid⟩ := hc
    obtain ⟨hin, hp⟩ := List.mem_filter.mp hs
    refine ⟨s, ?_, of_decide_eq_true hp⟩
    rw [← hid]
    exact (mem_ringList a h s).mp hin
  · intro hc
    obtain ⟨s, hs, hp⟩ := hc
    have hid := spanById_id a h c s hs
    refine ⟨s, List.mem_filter.mpr ⟨?_, decide_eq_true hp⟩, hid⟩
    apply (mem_ringList a h s).mpr
    rw [hid]
    exact hs

/-- INTERNAL: a child is listed once. -/
theorem kids_nodup (h : Sane a) (p : ℕ) : ((ringIndex a).kids p).Nodup := by
  unfold TraceIndex.kids ringIndex
  rw [(List.perm_insertionSort _ _).nodup_iff, map_iterWithStack, byParent_ofSpans]
  apply List.Nodup.sublist (List.filter_sublist.map WireSpan.id)
  rw [ringList_ids a h.locked h.id_eq]
  exact h.locked.nodup

end Ring

/-! ## The tree -/

/-- INTERNAL: `n` parent links lead from `x` up to `top`. -/
inductive Distance (a : Aggregator) : ℕ → ℕ → ℕ → Prop
  | here (x : ℕ) : Distance a x 0 x
  | deeper (top c n x : ℕ) (hlink : ParentLink a c top) (h : Distance a c n x) :
      Distance a top (n + 1) x

/-- INTERNAL: the span `x`, `n` links below `top`, is shown: nothing above it is collapsed. -/
inductive Shown (a : Aggregator) (collapsed : Finset ℕ) : ℕ → ℕ → ℕ → Prop
  | here (x : ℕ) : Shown a collapsed x 0 x
  | deeper (top c n x : ℕ) (hopen : top ∉ collapsed) (hlink : ParentLink a c top)
      (h : Shown a collapsed c n x) : Shown a collapsed top (n + 1) x

/-- INTERNAL: a proper ancestor of `x`, at `root` or below, is collapsed. -/
def Hidden (a : Aggregator) (root : ℕ) (collapsed : Finset ℕ) (x : ℕ) : Prop :=
  ∃ y ∈ collapsed, TransGen (ParentLink a) x y ∧ ReflTransGen (ParentLink a) y root

section Tree

variable (a : Aggregator) (collapsed : Finset ℕ)

/-- INTERNAL: a span at a distance is below. -/
theorem Distance.reaches (top n x : ℕ) (h : Distance a top n x) :
    ReflTransGen (ParentLink a) x top := by
  induction h with
  | here x => exact ReflTransGen.refl
  | deeper top c n x hlink _ ih => exact ih.tail hlink

/-- INTERNAL: a span below is at some distance. -/
theorem exists_distance (top x : ℕ) (h : ReflTransGen (ParentLink a) x top) :
    ∃ n, Distance a top n x := by
  induction h with
  | refl => exact ⟨0, Distance.here x⟩
  | tail _ hlink ih =>
    obtain ⟨n, hn⟩ := ih
    exact ⟨n + 1, Distance.deeper _ _ n x hlink hn⟩

/-- INTERNAL: what is shown is what has nothing collapsed above it.
SRCLINE: explore.rs:189-199 -/
theorem shown_iff (h : Sane a) (top n x : ℕ) :
    Shown a collapsed top n x ↔ Distance a top n x ∧ ¬ Hidden a top collapsed x := by
  have hright : Relator.RightUnique (ParentLink a) := fun u v w huv huw =>
    parentLink_single a u v w huv huw
  constructor
  · intro hshown
    induction hshown with
    | here x =>
      refine ⟨Distance.here x, fun hhidden => ?_⟩
      obtain ⟨y, -, habove, hback⟩ := hhidden
      exact h.acyclic x (habove.trans_left hback)
    | deeper top c n x hopen hlink _ ih =>
      obtain ⟨hdistance, hclear⟩ := ih
      refine ⟨Distance.deeper top c n x hlink hdistance, fun hhidden => ?_⟩
      obtain ⟨y, hy, habove, hback⟩ := hhidden
      have hxc := hdistance.reaches
      rcases ReflTransGen.total_of_right_unique hright hxc habove.to_reflTransGen with hcy | hyc
      · rcases ReflTransGen.cases_head hcy with heq | ⟨q, hq, hrest⟩
        · rw [heq] at hclear
          exact hclear ⟨y, hy, habove, ReflTransGen.refl⟩
        · -- `y` is above the link from `c`, so it is `top`
          rw [parentLink_single a c q top hq hlink] at hrest
          rcases ReflTransGen.cases_head hrest with heq | ⟨z, hz, hup⟩
          · rw [heq] at hopen
            exact hopen hy
          · exact h.acyclic top (TransGen.head' hz (hup.trans hback))
      · exact hclear ⟨y, hy, habove, hyc⟩
  · intro hboth
    obtain ⟨hdistance, hclear⟩ := hboth
    induction hdistance with
    | here x => exact Shown.here x
    | deeper top c n x hlink hdistance ih =>
      apply Shown.deeper top c n x _ hlink
      · apply ih
        intro hhidden
        obtain ⟨y, hy, habove, hback⟩ := hhidden
        exact hclear ⟨y, hy, habove, hback.tail hlink⟩
      · intro htop
        exact hclear ⟨top, htop, TransGen.tail' hdistance.reaches hlink, ReflTransGen.refl⟩

/-- INTERNAL: below a root whose parent is not in the ring, every ancestor in the ring counts. -/
theorem hidden_iff (h : Sane a) (root x : ℕ) (hin : root ∈ a.order)
    (hx : ReflTransGen (ParentLink a) x root) (hroot : ∀ y ∈ a.order, ¬ ParentLink a root y) :
    Hidden a root collapsed x ↔ ∃ y ∈ collapsed, y ∈ a.order ∧ TransGen (ParentLink a) x y := by
  have hright : Relator.RightUnique (ParentLink a) := fun u v w huv huw =>
    parentLink_single a u v w huv huw
  constructor
  · intro hhidden
    obtain ⟨y, hy, habove, hback⟩ := hhidden
    refine ⟨y, hy, ?_, habove⟩
    rcases ReflTransGen.cases_head hback with heq | ⟨z, hz, -⟩
    · rw [heq]
      exact hin
    · exact h.source a y z hz
  · intro hcollapsed
    obtain ⟨y, hy, hyin, habove⟩ := hcollapsed
    refine ⟨y, hy, habove, ?_⟩
    rcases ReflTransGen.total_of_right_unique hright hx habove.to_reflTransGen with hup | hdown
    · rcases ReflTransGen.cases_head hup with heq | ⟨q, hq, hrest⟩
      · rw [heq]
      · have hqin : q ∈ a.order := by
          rcases ReflTransGen.cases_head hrest with heq | ⟨z, hz, -⟩
          · rw [heq]
            exact hyin
          · exact h.source a q z hz
        exact absurd hq (hroot q hqin)
    · exact hdown

/-- INTERNAL: the parent of what is shown is shown, one link higher. -/
theorem Shown.parent (top n x : ℕ) (h : Shown a collapsed top (n + 1) x) :
    ∃ p, ParentLink a x p ∧ Shown a collapsed top n p := by
  induction n generalizing top with
  | zero =>
    cases h with
    | deeper top c n x hopen hlink hrest =>
      cases hrest
      exact ⟨top, hlink, Shown.here top⟩
  | succ n ih =>
    cases h with
    | deeper top c n x hopen hlink hrest =>
      obtain ⟨p, hp, hshown⟩ := ih c hrest
      exact ⟨p, hp, Shown.deeper top c n p hopen hlink hshown⟩

/-- INTERNAL: at distance zero only the span itself is shown. -/
theorem shown_zero (top x : ℕ) : Shown a collapsed top 0 x ↔ x = top := by
  constructor
  · intro h
    cases h
    rfl
  · intro h
    rw [h]
    exact Shown.here top

/-- INTERNAL: farther down a span is shown through a child, unless the top is folded. -/
theorem shown_succ (top n x : ℕ) : Shown a collapsed top (n + 1) x ↔
    top ∉ collapsed ∧ ∃ c, ParentLink a c top ∧ Shown a collapsed c n x := by
  constructor
  · intro h
    cases h with
    | deeper top c n x hopen hlink hrest => exact ⟨hopen, c, hlink, hrest⟩
  · intro h
    obtain ⟨hopen, c, hlink, hrest⟩ := h
    exact Shown.deeper top c n x hopen hlink hrest

end Tree

/-! ## The rows of one span -/

/-- INTERNAL: the span a row is for, its own or that of the event. -/
def rowOwner : TraceRow → ℕ
  | .span id _ _ _ => id
  | .event parentId _ _ => parentId

/-- INTERNAL: the span a row is the head of. -/
def rowHead : TraceRow → Option ℕ
  | .span id _ _ _ => some id
  | .event _ _ _ => none

/-- INTERNAL: what a row stands for. -/
def rowKey : TraceRow → ℕ × Option ℕ
  | .span id _ _ _ => (id, none)
  | .event parentId idx _ => (parentId, some idx)

/-- INTERNAL: a row of the subtree of the span `x`. -/
def Under (a : Aggregator) (x : ℕ) (r : TraceRow) : Prop :=
  ReflTransGen (ParentLink a) (rowOwner r) x

/-- INTERNAL: a child or an event of the span `p`. -/
def ChildOf (a : Aggregator) (p : ℕ) : TraceRow → Prop
  | .span id _ _ _ => ParentLink a id p
  | .event parentId _ _ => parentId = p

/-- INTERNAL: the events of a span. -/
def eventsOf (a : Aggregator) (id : ℕ) : List WireEvent :=
  ((a.spanById id).map WireSpan.events).getD []

/-- INTERNAL: when the span of a row was opened or its event recorded. -/
def rowTime (a : Aggregator) : TraceRow → ℕ
  | .span id _ _ _ => ((a.spanById id).map WireSpan.openedAtNs).getD 0
  | .event parentId idx _ => ((eventsOf a parentId)[idx]?.map WireEvent.recordedAtNs).getD 0

/-- INTERNAL: which event or child an item is. -/
def itemSlot : TraceItem → ℕ ⊕ ℕ
  | .event idx _ => Sum.inl idx
  | .child id _ => Sum.inr id

/-- INTERNAL: the rows an item brings.
SRCLINE: explore.rs:217-232 -/
def itemRows (index : TraceIndex) (collapsed : Finset ℕ) (fuel id depth : ℕ) :
    TraceItem → List TraceRow
  | .event idx _ => [.event id idx (depth + 1)]
  | .child c _ =>
    (index.spanById[c]?.bind fun child => walkTrace index collapsed fuel child (depth + 1)).getD []

section Items

variable (a : Aggregator) (span : WireSpan)

/-- INTERNAL: the events of a span are its items, at their times. -/
theorem mem_items_event (idx t : ℕ) : TraceItem.event idx t ∈ (ringIndex a).items span ↔
    ∃ e, span.events[idx]? = some e ∧ e.recordedAtNs = t := by
  unfold TraceIndex.items
  rw [List.mem_insertionSort, List.mem_append, List.mem_mapIdx]
  constructor
  · intro hin
    rcases hin with ⟨i, hi, heq⟩ | hchild
    · rw [TraceItem.event.injEq] at heq
      rw [← heq.1, ← heq.2]
      exact ⟨span.events[i], List.getElem?_eq_getElem hi, rfl⟩
    · simp at hchild
  · intro hin
    obtain ⟨e, he, ht⟩ := hin
    obtain ⟨hi, heq⟩ := List.getElem?_eq_some_iff.mp he
    refine Or.inl ⟨idx, hi, ?_⟩
    rw [heq, ht]

/-- INTERNAL: so are its children, at the times they open. -/
theorem mem_items_child (h : Sane a) (c t : ℕ) :
    TraceItem.child c t ∈ (ringIndex a).items span ↔
      ParentLink a c span.id ∧ (ringIndex a).openedAt c = t := by
  unfold TraceIndex.items
  rw [List.mem_insertionSort, List.mem_append, List.mem_mapIdx, List.mem_map]
  constructor
  · intro hin
    rcases hin with ⟨i, hi, heq⟩ | ⟨k, hk, heq⟩
    · cases heq
    · rw [TraceItem.child.injEq] at heq
      rw [← heq.1]
      exact ⟨(mem_kids a h span.id k).mp hk, heq.2⟩
  · intro hin
    exact Or.inr ⟨c, (mem_kids a h span.id c).mpr hin.1, by rw [hin.2]⟩

/-- INTERNAL: the items are in the order of their times, and each is there once.
SRCLINE: explore.rs:206-216 -/
theorem items_ordered (h : Sane a) : ((ringIndex a).items span).Pairwise fun i j =>
    i.time ≤ j.time ∧ itemSlot i ≠ itemSlot j := by
  apply List.Pairwise.and
  · have htotal : Std.Total fun i j : TraceItem => i.time ≤ j.time :=
      ⟨fun i j => Nat.le_total i.time j.time⟩
    have htrans : IsTrans TraceItem fun i j => i.time ≤ j.time :=
      ⟨fun i j k hij hjk => Nat.le_trans hij hjk⟩
    exact List.pairwise_insertionSort _ _
  · rw [← List.pairwise_map (f := itemSlot) (R := fun x y => x ≠ y)]
    show (((ringIndex a).items span).map itemSlot).Nodup
    unfold TraceIndex.items
    rw [((List.perm_insertionSort _ _).map itemSlot).nodup_iff, List.map_append, List.map_map]
    have hevents : (span.events.mapIdx fun i e => TraceItem.event i e.recordedAtNs).map itemSlot =
        (List.range span.events.length).map Sum.inl := by
      apply List.ext_getElem
      · simp
      · intro i hi hi'
        simp [itemSlot]
    rw [hevents, List.nodup_append]
    refine ⟨List.nodup_range.map Sum.inl_injective, ?_, ?_⟩
    · exact (kids_nodup a h span.id).map Sum.inr_injective
    · intro x hx y hy hxy
      obtain ⟨i, -, hi⟩ := List.mem_map.mp hx
      obtain ⟨c, -, hc⟩ := List.mem_map.mp hy
      rw [← hi, ← hc] at hxy
      cases hxy

end Items

/-! ## One level of the walk -/

/-- INTERNAL: a loop that appends what each element brings. -/
theorem foldlM_flatMap {α β : Type} (f : List β → α → Option (List β)) (g : α → List β)
    (l : List α) (out : List β) (h : ∀ x ∈ l, ∀ out, f out x = some (out ++ g x)) :
    l.foldlM f out = some (out ++ l.flatMap g) := by
  induction l generalizing out with
  | nil => simp
  | cons x l ih =>
    rw [List.foldlM_cons, h x List.mem_cons_self out, List.flatMap_cons, ← List.append_assoc]
    exact ih (out ++ g x) fun y hy => h y (List.mem_cons_of_mem x hy)

/-- INTERNAL: the row of a span itself.
SRCLINE: explore.rs:189-196 -/
def headRow (index : TraceIndex) (collapsed : Finset ℕ) (span : WireSpan) (depth : ℕ) :
    TraceRow :=
  .span span.id depth (!(index.kids span.id).isEmpty || !span.events.isEmpty)
    (decide (span.id ∉ collapsed))

/-- INTERNAL: **one level of the walk**: the row of the span, and behind it the rows of its
items unless it is collapsed.
SRCLINE: explore.rs:181-233 -/
theorem walkTrace_eq (index : TraceIndex) (collapsed : Finset ℕ) (fuel : ℕ) (span : WireSpan)
    (depth : ℕ) (hwalks : ∀ c t child, TraceItem.child c t ∈ index.items span →
      index.spanById[c]? = some child →
      (walkTrace index collapsed fuel child (depth + 1)).isSome) :
    walkTrace index collapsed (fuel + 1) span depth =
      some (headRow index collapsed span depth :: if span.id ∈ collapsed then []
        else (index.items span).flatMap (itemRows index collapsed fuel span.id depth)) := by
  unfold walkTrace
  dsimp only
  by_cases hcollapsed : span.id ∈ collapsed
  · simp [hcollapsed, headRow]
  · rw [if_pos (by simp [hcollapsed]), if_neg hcollapsed,
      foldlM_flatMap _ (itemRows index collapsed fuel span.id depth)]
    · rfl
    · intro item hitem out
      cases item with
      | event idx t => rfl
      | child c t =>
        dsimp only [itemRows]
        cases hget : index.spanById[c]? with
        | none => simp
        | some child =>
          obtain ⟨rows, hrows⟩ := Option.isSome_iff_exists.mp (hwalks c t child hitem hget)
          simp [hrows]

/-- INTERNAL: **what the rows from a span down are**: its own first, those of the tree below it
as far as it is shown, each once, nested, and those of one span in the order of their times. -/
structure Walked (a : Aggregator) (collapsed : Finset ℕ) (top depth : ℕ)
    (rows : List TraceRow) : Prop where
  head : ∃ h e rest, rows = .span top depth h e :: rest
  under : ∀ r ∈ rows, Under a top r
  spans : ∀ x d, (∃ h e, TraceRow.span x d h e ∈ rows) ↔
    ∃ n, d = depth + n ∧ Shown a collapsed top n x
  events : ∀ x i d, TraceRow.event x i d ∈ rows ↔
    ∃ n, d = depth + n + 1 ∧ Shown a collapsed top n x ∧ x ∉ collapsed ∧
      i < (eventsOf a x).length
  once : rows.Pairwise fun r s => rowKey r ≠ rowKey s
  nested : Nested rowHead (Under a) rows
  ordered : rows.Pairwise fun r s => ∀ p, ChildOf a p r → ChildOf a p s →
    rowTime a r ≤ rowTime a s

/-- INTERNAL: the rows that one item of the span `id` brings. -/
inductive PartOf (a : Aggregator) (collapsed : Finset ℕ) (id depth : ℕ) :
    TraceItem → List TraceRow → Prop
  | event (i t : ℕ) (htime : rowTime a (.event id i (depth + 1)) = t) :
      PartOf a collapsed id depth (.event i t) [.event id i (depth + 1)]
  | child (c t : ℕ) (rows : List TraceRow) (hlink : ParentLink a c id)
      (htime : ((a.spanById c).map WireSpan.openedAtNs).getD 0 = t)
      (hwalked : Walked a collapsed c (depth + 1) rows) :
      PartOf a collapsed id depth (.child c t) rows

section Parts

variable (a : Aggregator) (collapsed : Finset ℕ) (id depth : ℕ)

/-- INTERNAL: a row of a part is an event of the span, or is under one of its children. -/
theorem PartOf.row (item : TraceItem) (rows : List TraceRow)
    (hpart : PartOf a collapsed id depth item rows) (r : TraceRow) (hr : r ∈ rows) :
    (∃ i, itemSlot item = Sum.inl i ∧ r = .event id i (depth + 1) ∧ rowTime a r = item.time) ∨
    ∃ c, itemSlot item = Sum.inr c ∧ ParentLink a c id ∧ Under a c r ∧
      (rowHead r = some c → rowTime a r = item.time) := by
  cases hpart with
  | event i t htime =>
    have hsame := List.mem_singleton.mp hr
    refine Or.inl ⟨i, rfl, hsame, ?_⟩
    rw [hsame]
    exact htime
  | child c t rows hlink htime hwalked =>
    refine Or.inr ⟨c, rfl, hlink, hwalked.under r hr, fun hhead => ?_⟩
    cases r with
    | span x d hasChildren expanded =>
      have hx : x = c := Option.some.inj hhead
      rw [hx]
      exact htime
    | event x i d => cases hhead

/-- INTERNAL: the rows of a part are under the span. -/
theorem PartOf.under (item : TraceItem) (rows : List TraceRow)
    (hpart : PartOf a collapsed id depth item rows) (r : TraceRow) (hr : r ∈ rows) :
    Under a id r := by
  rcases hpart.row a collapsed id depth item rows r hr with hevent | hchild
  · obtain ⟨i, -, hsame, -⟩ := hevent
    rw [hsame]
    exact ReflTransGen.refl
  · obtain ⟨c, -, hlink, hunder, -⟩ := hchild
    exact hunder.tail hlink

/-- INTERNAL: the rows of a part are nested. -/
theorem PartOf.nested (item : TraceItem) (rows : List TraceRow)
    (hpart : PartOf a collapsed id depth item rows) : Nested rowHead (Under a) rows := by
  cases hpart with
  | event i t htime => exact nested_leaf rowHead (Under a) _ rfl
  | child c t rows hlink htime hwalked => exact hwalked.nested

/-- INTERNAL: no row of a part stands twice. -/
theorem PartOf.once (item : TraceItem) (rows : List TraceRow)
    (hpart : PartOf a collapsed id depth item rows) :
    rows.Pairwise fun r s => rowKey r ≠ rowKey s := by
  cases hpart with
  | event i t htime => exact List.pairwise_singleton _ _
  | child c t rows hlink htime hwalked => exact hwalked.once

/-- INTERNAL: the children within a part come in order of time. -/
theorem PartOf.ordered (item : TraceItem) (rows : List TraceRow)
    (hpart : PartOf a collapsed id depth item rows) :
    rows.Pairwise fun r s => ∀ p, ChildOf a p r → ChildOf a p s →
      rowTime a r ≤ rowTime a s := by
  cases hpart with
  | event i t htime => exact List.pairwise_singleton _ _
  | child c t rows hlink htime hwalked => exact hwalked.ordered

/-- INTERNAL: a row's owner is the first half of its key. -/
theorem rowOwner_eq (r : TraceRow) : rowOwner r = (rowKey r).1 := by cases r <;> rfl

/-- INTERNAL: no span is under its own child. -/
theorem not_under_child (h : Sane a) (c : ℕ) (hlink : ParentLink a c id) :
    ¬ ReflTransGen (ParentLink a) id c := fun hback => h.acyclic id (TransGen.tail' hback hlink)

/-- INTERNAL: a row under the child `c` is its head, or a child or an event of a span under
it. -/
theorem childOf_cases (c p : ℕ) (hlink : ParentLink a c id) (r : TraceRow) (hunder : Under a c r)
    (hchild : ChildOf a p r) :
    rowHead r = some c ∧ p = id ∨ ReflTransGen (ParentLink a) p c := by
  cases r with
  | span x d hasChildren expanded =>
    rcases ReflTransGen.cases_head hunder with heq | ⟨q, hq, hrest⟩
    · have hx : x = c := heq
      refine Or.inl ⟨congrArg some hx, ?_⟩
      rw [hx] at hchild
      exact parentLink_single a c p id hchild hlink
    · rw [parentLink_single a x q p hq hchild] at hrest
      exact Or.inr hrest
  | event x i d =>
    have hx : x = p := hchild
    rw [← hx]
    exact Or.inr hunder

section Cross

variable (i j : TraceItem) (rows rows' : List TraceRow)

/-- INTERNAL: two children whose subtrees share a span are one child. -/
theorem slot_eq (h : Sane a) (c c' x : ℕ) (hlink : ParentLink a c id)
    (hlink' : ParentLink a c' id) (hx : ReflTransGen (ParentLink a) x c)
    (hx' : ReflTransGen (ParentLink a) x c') (hi : itemSlot i = Sum.inr c)
    (hj : itemSlot j = Sum.inr c') : itemSlot i = itemSlot j := by
  rw [hi, hj, siblings_apart _ h.acyclic (parentLink_single a) id c c' x hlink hlink' hx hx']

/-- INTERNAL: two parts share no row. -/
theorem parts_key_ne (h : Sane a) (hi : PartOf a collapsed id depth i rows)
    (hj : PartOf a collapsed id depth j rows') (hne : itemSlot i ≠ itemSlot j) (r s : TraceRow)
    (hr : r ∈ rows) (hs : s ∈ rows') : rowKey r ≠ rowKey s := by
  intro hkey
  have howner : rowOwner r = rowOwner s := by rw [rowOwner_eq, rowOwner_eq, hkey]
  rcases hi.row a collapsed id depth i rows r hr with ⟨k, hk, hsame, -⟩ | ⟨c, hc, hlink, hrc, -⟩
  · rcases hj.row a collapsed id depth j rows' s hs with
      ⟨k', hk', hsame', -⟩ | ⟨c', -, hlink', hsc', -⟩
    · rw [hsame, hsame', rowKey, rowKey, Prod.mk.injEq, Option.some.injEq] at hkey
      rw [hk, hk', hkey.2] at hne
      exact hne rfl
    · unfold Under at hsc'
      rw [← howner, hsame] at hsc'
      exact not_under_child a id h c' hlink' hsc'
  · rcases hj.row a collapsed id depth j rows' s hs with
      ⟨k', -, hsame', -⟩ | ⟨c', hc', hlink', hsc', -⟩
    · unfold Under at hrc
      rw [howner, hsame'] at hrc
      exact not_under_child a id h c hlink hrc
    · unfold Under at hrc
      rw [howner] at hrc
      exact hne (slot_eq a id i j h c c' _ hlink hlink' hrc hsc' hc hc')

/-- INTERNAL: no row of one part is above a row of another. -/
theorem parts_apart (h : Sane a) (hi : PartOf a collapsed id depth i rows)
    (hj : PartOf a collapsed id depth j rows') (hne : itemSlot i ≠ itemSlot j) :
    Apart rowHead (Under a) rows rows' := by
  intro r hr x hhead s hs hxs
  rcases hi.row a collapsed id depth i rows r hr with ⟨k, -, hsame, -⟩ | ⟨c, hc, hlink, hrc, -⟩
  · rw [hsame] at hhead
    cases hhead
  · -- `x` is under the child `c`, and so is `s`
    have hxc : ReflTransGen (ParentLink a) x c := by
      cases r with
      | span y d hasChildren expanded =>
        have hy : y = x := Option.some.inj hhead
        rw [← hy]
        exact hrc
      | event y n d => cases hhead
    have hsc : ReflTransGen (ParentLink a) (rowOwner s) c := hxs.trans hxc
    rcases hj.row a collapsed id depth j rows' s hs with
      ⟨k', -, hsame', -⟩ | ⟨c', hc', hlink', hsc', -⟩
    · rw [hsame'] at hsc
      exact not_under_child a id h c hlink hsc
    · exact hne (slot_eq a id i j h c c' _ hlink hlink' hsc hsc' hc hc')

/-- INTERNAL: of two parts the earlier one's children come first. -/
theorem parts_ordered (h : Sane a) (hi : PartOf a collapsed id depth i rows)
    (hj : PartOf a collapsed id depth j rows') (hne : itemSlot i ≠ itemSlot j)
    (htime : i.time ≤ j.time) (r s : TraceRow) (hr : r ∈ rows) (hs : s ∈ rows') (p : ℕ)
    (hpr : ChildOf a p r) (hps : ChildOf a p s) : rowTime a r ≤ rowTime a s := by
  -- rows of two parts with a common parent are an event or the head of a child each
  have hrow (k k' : TraceItem) (rows rows' : List TraceRow)
      (hk : PartOf a collapsed id depth k rows) (hk' : PartOf a collapsed id depth k' rows')
      (hne : itemSlot k ≠ itemSlot k') (r s : TraceRow) (hr : r ∈ rows) (hs : s ∈ rows')
      (hpr : ChildOf a p r) (hps : ChildOf a p s) : rowTime a r = k.time := by
    rcases hk.row a collapsed id depth k rows r hr with
      ⟨_, -, -, ht⟩ | ⟨c, hc, hlink, hrc, ht⟩
    · exact ht
    · rcases childOf_cases a id c p hlink r hrc hpr with ⟨hhead, -⟩ | hpc
      · exact ht hhead
      · rcases hk'.row a collapsed id depth k' rows' s hs with
          ⟨_, -, hsame, -⟩ | ⟨c', hc', hlink', hsc', -⟩
        · rw [hsame] at hps
          have hp : id = p := hps
          rw [← hp] at hpc
          exact absurd hpc (not_under_child a id h c hlink)
        · rcases childOf_cases a id c' p hlink' s hsc' hps with ⟨-, hp⟩ | hpc'
          · rw [hp] at hpc
            exact absurd hpc (not_under_child a id h c hlink)
          · exact absurd (slot_eq a id k k' h c c' p hlink hlink' hpc hpc' hc hc') hne
  rw [hrow i j rows rows' hi hj hne r s hr hs hpr hps,
    hrow j i rows' rows hj hi (fun heq => hne heq.symm) s r hs hr hps hpr]
  exact htime

end Cross

/-- INTERNAL: the part of an event is its row. -/
theorem PartOf.of_event (i t : ℕ) (rows : List TraceRow)
    (h : PartOf a collapsed id depth (.event i t) rows) : rows = [.event id i (depth + 1)] := by
  cases h
  rfl

/-- INTERNAL: the part of a child is its walk. -/
theorem PartOf.of_child (c t : ℕ) (rows : List TraceRow)
    (h : PartOf a collapsed id depth (.child c t) rows) :
    ParentLink a c id ∧ Walked a collapsed c (depth + 1) rows := by
  cases h with
  | child c t rows hlink htime hwalked => exact ⟨hlink, hwalked⟩

end Parts

/-! ## The rows of a span that is collapsed, and of one that is open -/

section Node

variable (a : Aggregator) (collapsed : Finset ℕ) (top depth : ℕ) (hasChildren expanded : Bool)

/-- INTERNAL: a span has a row if it is the head or has one below. -/
theorem mem_head_iff (rows : List TraceRow) (x d : ℕ) :
    (∃ h e, TraceRow.span x d h e ∈ .span top depth hasChildren expanded :: rows) ↔
      x = top ∧ d = depth ∨ ∃ h e, TraceRow.span x d h e ∈ rows := by
  constructor
  · intro hin
    obtain ⟨h, e, hmem⟩ := hin
    rcases List.mem_cons.mp hmem with hhead | hrest
    · rw [TraceRow.span.injEq] at hhead
      exact Or.inl ⟨hhead.1, hhead.2.1⟩
    · exact Or.inr ⟨h, e, hrest⟩
  · intro hin
    rcases hin with ⟨hx, hd⟩ | ⟨h, e, hrest⟩
    · rw [hx, hd]
      exact ⟨hasChildren, expanded, List.mem_cons_self⟩
    · exact ⟨h, e, List.mem_cons_of_mem _ hrest⟩

/-- INTERNAL: a folded span is its own row alone. -/
theorem walked_collapsed (hcollapsed : top ∈ collapsed) :
    Walked a collapsed top depth [.span top depth hasChildren expanded] where
  head := ⟨hasChildren, expanded, [], rfl⟩
  under r hr := by
    rw [List.mem_singleton.mp hr]
    exact ReflTransGen.refl
  spans x d := by
    rw [mem_head_iff]
    constructor
    · intro hin
      rcases hin with ⟨hx, hd⟩ | ⟨h, e, hnone⟩
      · exact ⟨0, hd, (shown_zero a collapsed top x).mpr hx⟩
      · simp at hnone
    · intro hshown
      obtain ⟨n, hd, hn⟩ := hshown
      cases n with
      | zero => exact Or.inl ⟨(shown_zero a collapsed top x).mp hn, hd⟩
      | succ n => exact absurd hcollapsed ((shown_succ a collapsed top n x).mp hn).1
  events x i d := by
    constructor
    · intro hin
      simp at hin
    · intro hshown
      obtain ⟨n, -, hn, hopen, -⟩ := hshown
      cases n with
      | zero =>
        rw [(shown_zero a collapsed top x).mp hn] at hopen
        exact absurd hcollapsed hopen
      | succ n => exact absurd hcollapsed ((shown_succ a collapsed top n x).mp hn).1
  once := List.pairwise_singleton _ _
  nested := by
    apply Nested.cons rowHead (Under a) _ top [] (nested_nil _ _) rfl
    · intro s hs
      simp at hs
    · intro s hs
      simp at hs
  ordered := List.pairwise_singleton _ _

section Open

variable (items : List TraceItem) (f : TraceItem → List TraceRow)

/-- INTERNAL: the items of an open span are its children and its events, in the order of their
times, each with the rows it brings. -/
structure Items (items : List TraceItem) (f : TraceItem → List TraceRow) : Prop where
  ordered : items.Pairwise fun i j => i.time ≤ j.time ∧ itemSlot i ≠ itemSlot j
  parts : ∀ item ∈ items, PartOf a collapsed top depth item (f item)
  children : ∀ c, ParentLink a c top → ∃ t, TraceItem.child c t ∈ items
  events : ∀ i, (∃ t, TraceItem.event i t ∈ items) ↔ i < (eventsOf a top).length

/-- INTERNAL: the spans below are those shown below a child. -/
theorem Items.span_iff (hitems : Items a collapsed top depth items f) (x d : ℕ) :
    (∃ h e, TraceRow.span x d h e ∈ items.flatMap f) ↔
      ∃ c, ParentLink a c top ∧ ∃ n, d = depth + 1 + n ∧ Shown a collapsed c n x := by
  constructor
  · intro hin
    obtain ⟨h, e, hmem⟩ := hin
    obtain ⟨item, hitem, hrow⟩ := List.mem_flatMap.mp hmem
    cases item with
    | event i t =>
      rw [(hitems.parts _ hitem).of_event] at hrow
      simp at hrow
    | child c t =>
      obtain ⟨hlink, hwalked⟩ := (hitems.parts _ hitem).of_child
      exact ⟨c, hlink, (hwalked.spans x d).mp ⟨h, e, hrow⟩⟩
  · intro hchild
    obtain ⟨c, hlink, hshown⟩ := hchild
    obtain ⟨t, hitem⟩ := hitems.children c hlink
    obtain ⟨-, hwalked⟩ := (hitems.parts _ hitem).of_child
    obtain ⟨h, e, hrow⟩ := (hwalked.spans x d).mpr hshown
    exact ⟨h, e, List.mem_flatMap.mpr ⟨_, hitem, hrow⟩⟩

/-- INTERNAL: the events below are the span's own and those below a child. -/
theorem Items.event_iff (hitems : Items a collapsed top depth items f) (x i d : ℕ) :
    TraceRow.event x i d ∈ items.flatMap f ↔
      x = top ∧ d = depth + 1 ∧ i < (eventsOf a top).length ∨
      ∃ c, ParentLink a c top ∧ ∃ n, d = depth + 1 + n + 1 ∧ Shown a collapsed c n x ∧
        x ∉ collapsed ∧ i < (eventsOf a x).length := by
  constructor
  · intro hin
    obtain ⟨item, hitem, hrow⟩ := List.mem_flatMap.mp hin
    cases item with
    | event k t =>
      rw [(hitems.parts _ hitem).of_event, List.mem_singleton, TraceRow.event.injEq] at hrow
      obtain ⟨hx, hi, hd⟩ := hrow
      rw [hi]
      exact Or.inl ⟨hx, hd, (hitems.events k).mp ⟨t, hitem⟩⟩
    | child c t =>
      obtain ⟨hlink, hwalked⟩ := (hitems.parts _ hitem).of_child
      exact Or.inr ⟨c, hlink, (hwalked.events x i d).mp hrow⟩
  · intro hcases
    rcases hcases with ⟨hx, hd, hi⟩ | ⟨c, hlink, hshown⟩
    · obtain ⟨t, hitem⟩ := (hitems.events i).mpr hi
      refine List.mem_flatMap.mpr ⟨_, hitem, ?_⟩
      rw [(hitems.parts _ hitem).of_event, hx, hd]
      exact List.mem_singleton.mpr rfl
    · obtain ⟨t, hitem⟩ := hitems.children c hlink
      obtain ⟨-, hwalked⟩ := (hitems.parts _ hitem).of_child
      exact List.mem_flatMap.mpr ⟨_, hitem, (hwalked.events x i d).mpr hshown⟩

/-- INTERNAL: the rows of different items have nothing to do with each other. -/
theorem Items.cross (hitems : Items a collapsed top depth items f)
    (P : List TraceRow → List TraceRow → Prop)
    (hP : ∀ i j, PartOf a collapsed top depth i (f i) → PartOf a collapsed top depth j (f j) →
      itemSlot i ≠ itemSlot j → i.time ≤ j.time → P (f i) (f j)) :
    items.Pairwise fun i j => P (f i) (f j) := by
  apply hitems.ordered.imp_of_mem
  intro i j hi hj hij
  exact hP i j (hitems.parts i hi) (hitems.parts j hj) hij.2 hij.1

/-- INTERNAL: every row below is under the span. -/
theorem Items.under (hitems : Items a collapsed top depth items f) (r : TraceRow)
    (hr : r ∈ items.flatMap f) : Under a top r := by
  obtain ⟨item, hitem, hrow⟩ := List.mem_flatMap.mp hr
  exact (hitems.parts item hitem).under a collapsed top depth item _ r hrow

/-- INTERNAL: no row of an item is the head of the span or of one above it. -/
theorem Items.not_above (h : Sane a) (hitems : Items a collapsed top depth items f) (r : TraceRow)
    (hr : r ∈ items.flatMap f) (y : ℕ) (hhead : rowHead r = some y) :
    ¬ ReflTransGen (ParentLink a) top y := by
  intro hback
  obtain ⟨item, hitem, hrow⟩ := List.mem_flatMap.mp hr
  rcases (hitems.parts item hitem).row a collapsed top depth item _ r hrow with
    ⟨i, -, hsame, -⟩ | ⟨c, -, hlink, hrc, -⟩
  · rw [hsame] at hhead
    cases hhead
  · cases r with
    | span x d hasChildren expanded =>
      have hx : x = y := Option.some.inj hhead
      rw [← hx] at hback
      exact not_under_child a top h c hlink (hback.trans hrc)
    | event x i d => cases hhead

/-- INTERNAL: with its head, an unfolded span shows the spans it should. -/
theorem Items.shown_spans (hitems : Items a collapsed top depth items f) (hopen : top ∉ collapsed)
    (x d : ℕ) :
    (∃ h e, TraceRow.span x d h e ∈ .span top depth hasChildren expanded :: items.flatMap f) ↔
      ∃ n, d = depth + n ∧ Shown a collapsed top n x := by
  rw [mem_head_iff, hitems.span_iff]
  constructor
  · intro hin
    rcases hin with ⟨hx, hd⟩ | ⟨c, hlink, n, hd, hshown⟩
    · exact ⟨0, hd, (shown_zero a collapsed top x).mpr hx⟩
    · exact ⟨n + 1, by omega, (shown_succ a collapsed top n x).mpr ⟨hopen, c, hlink, hshown⟩⟩
  · intro hshown
    obtain ⟨n, hd, hn⟩ := hshown
    cases n with
    | zero => exact Or.inl ⟨(shown_zero a collapsed top x).mp hn, hd⟩
    | succ n =>
      obtain ⟨-, c, hlink, hrest⟩ := (shown_succ a collapsed top n x).mp hn
      exact Or.inr ⟨c, hlink, n, by omega, hrest⟩

/-- INTERNAL: and the events it should. -/
theorem Items.shown_events (hitems : Items a collapsed top depth items f) (hopen : top ∉ collapsed)
    (x i d : ℕ) :
    TraceRow.event x i d ∈ .span top depth hasChildren expanded :: items.flatMap f ↔
      ∃ n, d = depth + n + 1 ∧ Shown a collapsed top n x ∧ x ∉ collapsed ∧
        i < (eventsOf a x).length := by
  have hhead : TraceRow.event x i d ≠ .span top depth hasChildren expanded :=
    TraceRow.noConfusion
  rw [List.mem_cons, or_iff_right hhead, hitems.event_iff]
  constructor
  · intro hin
    rcases hin with ⟨hx, hd, hi⟩ | ⟨c, hlink, n, hd, hshown, hrest⟩
    · rw [hx]
      exact ⟨0, hd, Shown.here top, hopen, hi⟩
    · refine ⟨n + 1, by omega, ?_, hrest⟩
      exact (shown_succ a collapsed top n x).mpr ⟨hopen, c, hlink, hshown⟩
  · intro hshown
    obtain ⟨n, hd, hn, hx, hi⟩ := hshown
    cases n with
    | zero =>
      have hsame := (shown_zero a collapsed top x).mp hn
      rw [hsame] at hi
      exact Or.inl ⟨hsame, hd, hi⟩
    | succ n =>
      obtain ⟨-, c, hlink, hrest⟩ := (shown_succ a collapsed top n x).mp hn
      exact Or.inr ⟨c, hlink, n, by omega, hrest, hx, hi⟩

/-- INTERNAL: no child or event of the span's own parent is under the span. -/
theorem Items.no_sibling (h : Sane a) (hitems : Items a collapsed top depth items f) (r : TraceRow)
    (hr : r ∈ items.flatMap f) (p : ℕ) (hlink : ParentLink a top p) : ¬ ChildOf a p r := by
  intro hpr
  obtain ⟨item, hitem, hrow⟩ := List.mem_flatMap.mp hr
  have hpt : ReflTransGen (ParentLink a) p top := by
    rcases (hitems.parts item hitem).row a collapsed top depth item _ r hrow with
      ⟨i, -, hsame, -⟩ | ⟨c, -, hchild, hrc, -⟩
    · rw [hsame] at hpr
      have hpp : top = p := hpr
      rw [← hpp]
    · rcases childOf_cases a top c p hchild r hrc hpr with ⟨-, hpp⟩ | hpc
      · rw [hpp]
      · exact hpc.tail hchild
  exact h.acyclic top (TransGen.head' hlink hpt)

/-- INTERNAL: an unfolded span is its row and those of its items. -/
theorem walked_open (h : Sane a) (hopen : top ∉ collapsed)
    (hitems : Items a collapsed top depth items f) :
    Walked a collapsed top depth (.span top depth hasChildren expanded :: items.flatMap f) where
  head := ⟨hasChildren, expanded, _, rfl⟩
  under r hr := by
    rcases List.mem_cons.mp hr with hhead | hrest
    · rw [hhead]
      exact ReflTransGen.refl
    · exact hitems.under a collapsed top depth items f r hrest
  spans := hitems.shown_spans a collapsed top depth hasChildren expanded items f hopen
  events := hitems.shown_events a collapsed top depth hasChildren expanded items f hopen
  once := by
    rw [List.pairwise_cons, List.pairwise_flatMap]
    refine ⟨?_, ?_, ?_⟩
    · intro r hr hkey
      have hhead : rowHead r = some top := by
        cases r with
        | span x d hasChildren expanded =>
          rw [rowKey, rowKey, Prod.mk.injEq] at hkey
          exact congrArg some hkey.1.symm
        | event x i d => simp [rowKey] at hkey
      exact hitems.not_above a collapsed top depth items f h r hr top hhead ReflTransGen.refl
    · exact fun item hitem => (hitems.parts item hitem).once
    · apply hitems.cross a collapsed top depth items f
        (fun rows rows' => ∀ r ∈ rows, ∀ s ∈ rows', rowKey r ≠ rowKey s)
      intro i j hi hj hne _ r hr s hs
      exact parts_key_ne a collapsed top depth i j _ _ h hi hj hne r s hr hs
  nested := by
    apply Nested.cons rowHead (Under a) _ top _ _ rfl
    · exact hitems.under a collapsed top depth items f
    · exact hitems.not_above a collapsed top depth items f h
    · apply Nested.flatMap
      · exact fun item hitem => (hitems.parts item hitem).nested
      · apply hitems.cross a collapsed top depth items f
          (fun rows rows' => Apart rowHead (Under a) rows rows' ∧
            Apart rowHead (Under a) rows' rows)
        intro i j hi hj hne _
        exact ⟨parts_apart a collapsed top depth i j _ _ h hi hj hne,
          parts_apart a collapsed top depth j i _ _ h hj hi fun heq => hne heq.symm⟩
  ordered := by
    rw [List.pairwise_cons, List.pairwise_flatMap]
    refine ⟨?_, ?_, ?_⟩
    · intro r hr p hp hpr
      exact absurd hpr (hitems.no_sibling a collapsed top depth items f h r hr p hp)
    · exact fun item hitem => (hitems.parts item hitem).ordered
    · apply hitems.cross a collapsed top depth items f
        (fun rows rows' => ∀ r ∈ rows, ∀ s ∈ rows', ∀ p, ChildOf a p r → ChildOf a p s →
          rowTime a r ≤ rowTime a s)
      intro i j hi hj hne htime r hr s hs p hpr hps
      exact parts_ordered a collapsed top depth i j _ _ h hi hj hne htime r s hr hs p hpr hps

end Open

end Node

/-! ## The whole walk -/

/-- INTERNAL: what the walk makes of the items of a span. -/
theorem items_of_span (a : Aggregator) (h : Sane a) (collapsed : Finset ℕ) (depth : ℕ)
    (span : WireSpan) (hspan : a.spanById span.id = some span)
    (f : TraceItem → List TraceRow)
    (hevents : ∀ i t, f (.event i t) = [.event span.id i (depth + 1)])
    (hchildren : ∀ c, ParentLink a c span.id → ∀ t,
      Walked a collapsed c (depth + 1) (f (.child c t))) :
    Items a collapsed span.id depth ((ringIndex a).items span) f := by
  have hevs : eventsOf a span.id = span.events := by
    unfold eventsOf
    rw [hspan]
    rfl
  refine ⟨items_ordered a span h, ?_, ?_, ?_⟩
  · intro item hitem
    cases item with
    | event i t =>
      obtain ⟨e, he, ht⟩ := (mem_items_event a span i t).mp hitem
      rw [hevents]
      apply PartOf.event i t
      rw [rowTime, hevs, he]
      exact ht
    | child c t =>
      obtain ⟨hlink, ht⟩ := (mem_items_child a span h c t).mp hitem
      apply PartOf.child c t _ hlink _ (hchildren c hlink t)
      rw [← ringIndex_spanById a h c]
      exact ht
  · intro c hlink
    exact ⟨_, (mem_items_child a span h c _).mpr ⟨hlink, rfl⟩⟩
  · intro i
    rw [hevs]
    constructor
    · intro hin
      obtain ⟨t, hitem⟩ := hin
      obtain ⟨e, he, -⟩ := (mem_items_event a span i t).mp hitem
      exact (List.getElem?_eq_some_iff.mp he).1
    · intro hi
      exact ⟨_, (mem_items_event a span i _).mpr ⟨_, List.getElem?_eq_getElem hi, rfl⟩⟩

/-- INTERNAL: **the walk ends and lists what it should**, by induction on the depth that is
left, which the spans below a span bound.
SRCLINE: explore.rs:181-233 -/
theorem walkTrace_walked (a : Aggregator) (h : Sane a) (collapsed : Finset ℕ) (fuel : ℕ)
    (span : WireSpan) (depth : ℕ) (hspan : a.spanById span.id = some span)
    (hfuel : below (ParentLink a) a.order span.id < fuel) :
    ∃ rows, walkTrace (ringIndex a) collapsed fuel span depth = some rows ∧
      Walked a collapsed span.id depth rows := by
  induction fuel generalizing span depth with
  | zero => omega
  | succ fuel ih =>
    have hchild (c : ℕ) (hlink : ParentLink a c span.id) : ∃ child rows,
        (ringIndex a).spanById[c]? = some child ∧
        walkTrace (ringIndex a) collapsed fuel child (depth + 1) = some rows ∧
        Walked a collapsed c (depth + 1) rows := by
      obtain ⟨child, hget, -⟩ := (parentLink_spanById a c span.id).mp hlink
      have hid := spanById_id a h c child hget
      have hless := below_lt _ a.order h.acyclic c span.id (h.source a _ _ hlink) hlink
      obtain ⟨rows, hrows, hwalked⟩ := ih child (depth + 1) (by rw [hid]; exact hget)
        (by rw [hid]; omega)
      rw [hid] at hwalked
      exact ⟨child, rows, (ringIndex_spanById a h c).trans hget, hrows, hwalked⟩
    refine ⟨_, walkTrace_eq _ _ _ _ _ ?_, ?_⟩
    · intro c t child hitem hget
      obtain ⟨hlink, -⟩ := (mem_items_child a span h c t).mp hitem
      obtain ⟨child', rows, hget', hrows, -⟩ := hchild c hlink
      rw [hget] at hget'
      rw [Option.some.inj hget', hrows]
      rfl
    · by_cases hcollapsed : span.id ∈ collapsed
      · rw [if_pos hcollapsed]
        exact walked_collapsed a collapsed span.id depth _ _ hcollapsed
      · rw [if_neg hcollapsed]
        apply walked_open a collapsed span.id depth _ _ _ _ h hcollapsed
        apply items_of_span a h collapsed depth span hspan
        · exact fun i t => rfl
        · intro c hlink t
          obtain ⟨child, rows, hget, hrows, hwalked⟩ := hchild c hlink
          simpa [itemRows, hget, hrows] using hwalked

/-! ## Reachable rings -/

/-- INTERNAL: a ring whose spans hang together has no cycles.
SRCLINE: state.rs:231-258 -/
theorem sane_of_linked (a : Aggregator) (hlocked : Locked a)
    (hids : ∀ id x, located a id = some x → x.1.id = id) (hlinked : Linked a) : Sane a := by
  refine ⟨hlocked, hids, fun x hcycle => ?_⟩
  -- a chain of links goes to the front of the ring
  have hfront (x y : ℕ) (hxy : TransGen (ParentLink a) x y) (hy : y ∈ a.order) :
      a.order.idxOf y < a.order.idxOf x := by
    have hlink (u v : ℕ) (huv : ParentLink a u v) (hv : v ∈ a.order) :
        u ∈ a.order ∧ a.order.idxOf v < a.order.idxOf u := by
      obtain ⟨z, hz, hp⟩ := (parentLink_iff a u v).mp huv
      have hu : u ∈ a.order := by
        rw [hlocked.mem_iff, mem_byId_iff, hz]
        rfl
      obtain ⟨done, rest, horder⟩ := List.append_of_mem hu
      have hdone := hlinked.parent_before done rest u horder z hz v hp hv
      have hfresh : u ∉ done := by
        have hnodup := hlocked.nodup
        rw [horder, List.nodup_append] at hnodup
        exact fun hin => hnodup.2.2 u hin u List.mem_cons_self rfl
      refine ⟨hu, ?_⟩
      rw [horder, List.idxOf_append_of_mem hdone, List.idxOf_append_of_notMem hfresh]
      have hlt := List.idxOf_lt_length_of_mem hdone
      omega
    induction hxy with
    | single huv => exact (hlink _ _ huv hy).2
    | tail _ huv ih =>
      obtain ⟨hu, hlt⟩ := hlink _ _ huv hy
      exact Nat.lt_trans hlt (ih hu)
  have hx : x ∈ a.order := by
    obtain ⟨y, hxy, -⟩ := TransGen.head'_iff.mp hcycle
    obtain ⟨z, hz, -⟩ := (parentLink_iff a x y).mp hxy
    rw [hlocked.mem_iff, mem_byId_iff, hz]
    rfl
  exact Nat.lt_irrefl _ (hfront x x hcycle hx)

/-- INTERNAL: so has every ring that a console with distinct ids reaches.
SRCLINE: core.rs:333-1203 -/
theorem sane_run (budget : ℕ) (updates : List (ℕ × Update)) (m : ConsoleModel)
    (hids : ((Console.receivedSpans updates).map WireSpan.id).Nodup)
    (hrun : run Console.turn (ConsoleModel.new budget) updates = some m) : Sane m.agg := by
  obtain ⟨ops, hops, hspans, -⟩ := Console.aggregator_run (fun _ _ => True) (fun _ _ => trivial)
    updates (ConsoleModel.new budget) m hrun
    (runsUnder_of_forall _ _ _ _ fun _ _ _ _ _ => trivial)
  have hdistinct := distinctIds_start (absorbedSpans ops) (hspans ▸ hids)
  have hstart : (Kept budget 0 (Aggregator.new budget) [] ∧
      Tallied False (Aggregator.new budget)) ∧ Linked (Aggregator.new budget) :=
    ⟨⟨kept_new budget, tallied_new False budget⟩, linked_new budget⟩
  obtain ⟨⟨hkept, -⟩, hlinked⟩ := run_kept DistinctIds _ (linked_runInvariant budget)
    DistinctIds.mono (fun _ _ h => (Multiset.le_add_right _ _).trans h.1.1.bag) ops 0
    (Aggregator.new budget) m.agg hdistinct hstart hops
  exact sane_of_linked m.agg hkept.locked hkept.id_eq hlinked

/-! ## What the view lists -/

/-- INTERNAL: **the tree below `root`, as far as nothing is collapsed**: its spans and the events
of those that are open, each once and at its depth; every row behind that of its parent, every
subtree in one piece; what one span has in the order of the times. -/
structure TraceListing (a : Aggregator) (root : ℕ) (collapsed : Finset ℕ)
    (rows : List TraceRow) : Prop where
  spans : ∀ x, (∃ d h e, TraceRow.span x d h e ∈ rows) ↔
    ReflTransGen (ParentLink a) x root ∧ ¬ Hidden a root collapsed x
  events : ∀ x i, (∃ d, TraceRow.event x i d ∈ rows) ↔
    (ReflTransGen (ParentLink a) x root ∧ ¬ Hidden a root collapsed x) ∧ x ∉ collapsed ∧
      i < (eventsOf a x).length
  spanDepth : ∀ x d h e, TraceRow.span x d h e ∈ rows → Distance a root d x
  eventDepth : ∀ x i d, TraceRow.event x i d ∈ rows → ∃ n, d = n + 1 ∧ Distance a root n x
  once : rows.Pairwise fun r s => rowKey r ≠ rowKey s
  follows : ∀ before r after, rows = before ++ r :: after →
    before = [] ∧ rowHead r = some root ∨
      ∃ p, ChildOf a p r ∧ ∃ d h e, TraceRow.span p d h e ∈ before
  nested : Nested rowHead (Under a) rows
  ordered : rows.Pairwise fun r s => ∀ p, ChildOf a p r → ChildOf a p s →
    rowTime a r ≤ rowTime a s

/-- INTERNAL: a listed row other than the first comes behind the row of its parent. -/
theorem Walked.follows (a : Aggregator) (h : Sane a) (collapsed : Finset ℕ) (root : ℕ)
    (before after : List TraceRow) (r : TraceRow)
    (hwalked : Walked a collapsed root 0 (before ++ r :: after)) :
    before = [] ∧ rowHead r = some root ∨
      ∃ p, ChildOf a p r ∧ ∃ d h e, TraceRow.span p d h e ∈ before := by
  have hin : r ∈ before ++ r :: after := by simp
  -- a shown parent has its row before this one
  have hparent (p n : ℕ) (hp : Shown a collapsed root n p) (hunder : Under a p r)
      (hne : rowHead r ≠ some p) : ∃ d h e, TraceRow.span p d h e ∈ before := by
    obtain ⟨hc, e, hmem⟩ := (hwalked.spans p (0 + n)).mpr ⟨n, rfl, hp⟩
    rcases hwalked.nested.head_first _ _ before after _ r p hmem rfl hunder with hsame | hbefore
    · rw [← hsame] at hne
      exact absurd rfl hne
    · exact ⟨_, _, _, hbefore⟩
  cases r with
  | event x i d =>
    obtain ⟨n, -, hshown, -⟩ := (hwalked.events x i d).mp hin
    exact Or.inr ⟨x, rfl, hparent x n hshown ReflTransGen.refl (by simp [rowHead])⟩
  | span x d hc e =>
    obtain ⟨n, -, hshown⟩ := (hwalked.spans x d).mp ⟨hc, e, hin⟩
    cases n with
    | zero =>
      have hx := (shown_zero a collapsed root x).mp hshown
      refine Or.inl ⟨?_, congrArg some hx⟩
      cases before with
      | nil => rfl
      | cons first before =>
        obtain ⟨hc', e', rest, hrows⟩ := hwalked.head
        have hfirst := (List.cons.inj hrows).1
        have honce := (List.pairwise_cons.mp hwalked.once).1 (.span x d hc e) (by simp)
        rw [hfirst, hx] at honce
        exact absurd rfl honce
    | succ n =>
      obtain ⟨p, hlink, hp⟩ := hshown.parent
      refine Or.inr ⟨p, hlink, hparent p n hp (ReflTransGen.single hlink) ?_⟩
      intro hhead
      have hx : x = p := Option.some.inj hhead
      rw [hx] at hlink
      exact h.acyclic p (TransGen.single hlink)

/-- INTERNAL: the walk from the root is the listing of the trace. -/
theorem Walked.listing (a : Aggregator) (h : Sane a) (collapsed : Finset ℕ) (root : ℕ)
    (rows : List TraceRow) (hwalked : Walked a collapsed root 0 rows) :
    TraceListing a root collapsed rows := by
  have hshown (x : ℕ) : (∃ n, Shown a collapsed root n x) ↔
      ReflTransGen (ParentLink a) x root ∧ ¬ Hidden a root collapsed x := by
    constructor
    · intro hex
      obtain ⟨n, hn⟩ := hex
      obtain ⟨hdistance, hclear⟩ := (shown_iff a collapsed h root n x).mp hn
      exact ⟨hdistance.reaches, hclear⟩
    · intro hboth
      obtain ⟨n, hn⟩ := exists_distance a root x hboth.1
      exact ⟨n, (shown_iff a collapsed h root n x).mpr ⟨hn, hboth.2⟩⟩
  refine ⟨?_, ?_, ?_, ?_, hwalked.once, ?_, hwalked.nested, hwalked.ordered⟩
  · intro x
    rw [← hshown]
    constructor
    · intro hin
      obtain ⟨d, hrow⟩ := hin
      obtain ⟨n, -, hn⟩ := (hwalked.spans x d).mp hrow
      exact ⟨n, hn⟩
    · intro hex
      obtain ⟨n, hn⟩ := hex
      exact ⟨0 + n, (hwalked.spans x (0 + n)).mpr ⟨n, rfl, hn⟩⟩
  · intro x i
    rw [← hshown]
    constructor
    · intro hin
      obtain ⟨d, hrow⟩ := hin
      obtain ⟨n, -, hn, hrest⟩ := (hwalked.events x i d).mp hrow
      exact ⟨⟨n, hn⟩, hrest⟩
    · intro hall
      obtain ⟨⟨n, hn⟩, hrest⟩ := hall
      exact ⟨0 + n + 1, (hwalked.events x i _).mpr ⟨n, rfl, hn, hrest⟩⟩
  · intro x d hc e hin
    obtain ⟨n, hd, hn⟩ := (hwalked.spans x d).mp ⟨hc, e, hin⟩
    rw [hd, Nat.zero_add]
    exact ((shown_iff a collapsed h root n x).mp hn).1
  · intro x i d hin
    obtain ⟨n, hd, hn, -⟩ := (hwalked.events x i d).mp hin
    exact ⟨n, by omega, ((shown_iff a collapsed h root n x).mp hn).1⟩
  · intro before r after hsplit
    rw [hsplit] at hwalked
    exact hwalked.follows a h collapsed root before after r

/-- CODE: explore.rs:155-233 — **the trace tree shows everything exactly once**: from any span of
the ring of a console that has received distinct ids, whatever is collapsed, the walk ends, and
it lists the tree below that span as far as nothing above is collapsed. -/
theorem trace_rows_exact (budget : ℕ) (updates : List (ℕ × Update)) (m : ConsoleModel)
    (hids : ((Console.receivedSpans updates).map WireSpan.id).Nodup)
    (hrun : run Console.turn (ConsoleModel.new budget) updates = some m) (rootId : ℕ)
    (hroot : rootId ∈ m.agg.order) (collapsed : Finset ℕ) :
    ∃ rows, visibleTraceRows m.agg rootId collapsed = some rows ∧
      TraceListing m.agg rootId collapsed rows := by
  have hsane := sane_run budget updates m hids hrun
  have hstored : (m.agg.spanById rootId).isSome := by
    rw [hsane.locked.mem_iff] at hroot
    unfold spanById
    rw [Option.isSome_map]
    exact ExtTreeMap.isSome_getElem?_iff_mem.mpr hroot
  obtain ⟨root, hget⟩ := Option.isSome_iff_exists.mp hstored
  have hid := spanById_id m.agg hsane rootId root hget
  have hle := below_le (ParentLink m.agg) m.agg.order root.id
  obtain ⟨rows, hrows, hwalked⟩ := walkTrace_walked m.agg hsane collapsed (m.agg.len + 1) root 0
    (by rw [hid]; exact hget) (Nat.lt_succ_of_le hle)
  rw [hid] at hwalked
  refine ⟨rows, ?_, hwalked.listing m.agg hsane collapsed rootId rows⟩
  have hindex := ringIndex_spanById m.agg hsane rootId
  rw [hget] at hindex
  unfold visibleTraceRows
  dsimp only
  unfold ringIndex at hindex hrows
  rw [hindex]
  exact hrows

/-- INTERNAL: a root with an event, a child that is collapsed, and a child of that one, which
arrives first. -/
def familyUpdates : List (ℕ × Update) :=
  [(0, .spanReceived { plainSpan 1 none 9 with
      events := [{ name := "e", level := .info, fields := [], recordedAtNs := 5 }] }),
    (1, .spanReceived (plainSpan 3 (some 2) 2)), (2, .spanReceived (plainSpan 2 (some 1) 5))]

/-- INTERNAL: the trace of that family. -/
theorem trace_rows_exact_family : ∃ m rows,
    run Console.turn (ConsoleModel.new 10) familyUpdates = some m ∧ m.agg.order = [1, 2, 3] ∧
      visibleTraceRows m.agg 1 {2} = some rows ∧ TraceListing m.agg 1 {2} rows := by
  have hafter : ((run Console.turn (ConsoleModel.new 10) familyUpdates).map fun m =>
      m.agg.order) = some [1, 2, 3] := by
    decide +kernel
  obtain ⟨m, hrun, horder⟩ := Option.map_eq_some_iff.mp hafter
  obtain ⟨rows, hrows, hlisting⟩ := trace_rows_exact 10 familyUpdates m (by decide) hrun 1
    (by rw [horder]; decide) {2}
  exact ⟨m, rows, hrun, horder, hrows, hlisting⟩

end TracingConsole.Analysis.Trace
