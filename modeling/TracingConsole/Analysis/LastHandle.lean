import TracingConsole.Analysis.Sidecar
import TracingConsole.Model.SpanHandles

/-!
# Closing with the last handle

`try_close` empties the slot an id is the address of, whether or not other handles on the
span are left: the cache does not count them.  A step closes right (`ClosesRight`) when it
removes and emits the record of the span whose last handle it drops, and no other.
`closesRight_iff` says when a single step does so, and `closes_with_last_handle_iff` that a
run does so throughout exactly when it never drops one of several handles on a recorded
span.
-/

set_option autoImplicit false

namespace TracingConsole.Analysis

open TracingConsole.Library TracingConsole.Model

variable {T : Type} [DecidableEq T]

/-! ## What a step should close -/

/-- INTERNAL: the span whose last handle a step drops. -/
def lastDropped (s : HandleWorld T) : HandleStep T → Option Returned
  | .drop _ n _ => if s.handles[n]? = some 1 then s.world.spans[n]? else none
  | _ => none

/-- INTERNAL: what a step should hand to the buffer of closed spans. -/
def dueClose (s : HandleWorld T) : HandleStep T → List (T × SpanRecord)
  | .drop t n now => handedOver t now ((lastDropped s (.drop t n now)).bind Returned.record)
  | _ => []

/-- INTERNAL: the slot a step should empty. -/
def dueSlot (s : HandleWorld T) (a : HandleStep T) : Option (ℕ × ℕ) :=
  (lastDropped s a).bind fun sp => s.world.cache.decodeTracingId sp.tracingId

/-- INTERNAL: **a step closes right**: it emits the record of the span whose last handle it
drops and empties that span's slot; it emits nothing else and every other record stays. -/
def ClosesRight (s : HandleWorld T) (a : HandleStep T) : Prop :=
  ∀ s', s.step a = some s' →
    s'.world.closed = s.world.closed ++ dueClose s a ∧
    ∀ slot r, recordAt s.world.cache slot = some r →
      recordAt s'.world.cache slot = if dueSlot s a = some slot then none else some r

/-- INTERNAL: a handle that is dropped is its span's only one, or the span is disabled. -/
def DropsLast (s : HandleWorld T) : HandleStep T → Prop
  | .drop _ n _ => ∀ sp ∈ s.world.spans[n]?, sp.record.isSome → s.handles[n]? = some 1
  | _ => True

/-- INTERNAL: decidable, so that it can be tested on a run. -/
instance (s : HandleWorld T) : ∀ a : HandleStep T, Decidable (DropsLast s a)
  | .drop _ n _ =>
    inferInstanceAs
      (Decidable (∀ sp ∈ s.world.spans[n]?, sp.record.isSome → s.handles[n]? = some 1))
  | .clone _ => inferInstanceAs (Decidable True)
  | .cache _ => inferInstanceAs (Decidable True)

/-! ## Steps that close nothing -/

/-- INTERNAL: the steps other than `try_close`. -/
def Opens : CacheStep T → Prop
  | .tryClose .. => False
  | _ => True

/-- INTERNAL: such a step emits nothing, keeps every record, and gives out at most one id. -/
theorem Move.opens (w w' : World T) (a : CacheStep T) (hmove : Move w a w') (ha : Opens a) :
    w'.closed = w.closed ∧
    (∀ slot r, recordAt w.cache slot = some r → recordAt w'.cache slot = some r) ∧
    (w'.spans = w.spans ∨ ∃ sp, w'.spans = w.spans ++ [sp] ∧ sp.closed = false) := by
  have hsame : ∀ slot r, recordAt w.cache slot = some r → recordAt w.cache slot = some r :=
    fun _ _ h => h
  cases hmove with
  | drop => exact ⟨rfl, hsame, Or.inl rfl⟩
  | reject _ t => exact ⟨rfl, hsame, Or.inr ⟨_, rfl, rfl⟩⟩
  | resolve _ t o => exact ⟨rfl, hsame, Or.inl rfl⟩
  | accept _ t o => exact ⟨rfl, hsame, Or.inl rfl⟩
  | reserve _ t o => exact ⟨rfl, hsame, Or.inl rfl⟩
  | build _ t o id now => exact ⟨rfl, hsame, Or.inl rfl⟩
  | pick _ t o r shard key keys => exact ⟨rfl, hsame, Or.inl rfl⟩
  | insert _ t o r slot c' _ _ _ _ hvacant hrecord =>
    refine ⟨rfl, fun s r' hr' => ?_, Or.inl rfl⟩
    have hne : s ≠ slot := by
      rintro rfl
      rw [hvacant] at hr'
      cases hr'
    show recordAt c' s = some r'
    rw [hrecord, if_neg hne]
    exact hr'
  | store _ t r slot c' _ _ _ hrecord =>
    exact ⟨rfl, fun s r' hr' => (hrecord s).trans hr', Or.inl rfl⟩
  | finish _ t r slot => exact ⟨rfl, hsame, Or.inr ⟨_, rfl, rfl⟩⟩
  | enter _ t sp entry => exact ⟨rfl, hsame, Or.inl rfl⟩
  | exit _ t => exact ⟨rfl, hsame, Or.inl rfl⟩
  | event _ call t msg => exact ⟨rfl, hsame, Or.inl rfl⟩
  | closeDisabled => exact ha.elim
  | close => exact ha.elim

/-- INTERNAL: the steps of a run with handles. -/
theorem step_cases (s s' : HandleWorld T) (a : HandleStep T) (hstep : s.step a = some s') :
    (∃ b, a = .cache b ∧ Opens b ∧ s.world.step b = some s'.world ∧
      s'.handles =
        s.handles ++ List.replicate (s'.world.spans.length - s.world.spans.length) 1) ∨
    (∃ n k, a = .clone n ∧ s.handles[n]? = some (k + 1) ∧ s'.world = s.world ∧
      s'.handles = s.handles.set n (k + 2)) ∨
    ∃ t n now k, a = .drop t n now ∧ s.handles[n]? = some (k + 1) ∧
      s.world.step (.tryClose t n now) = some s'.world ∧ s'.handles = s.handles.set n k := by
  cases a with
  | cache b =>
    have hb : Opens b ∧ (s.world.step b).map (fun w =>
        { world := w
          handles := s.handles ++ List.replicate (w.spans.length - s.world.spans.length) 1 :
          HandleWorld T }) = some s' := by
      cases b with
      | tryClose t n now => cases hstep
      | _ => exact ⟨trivial, hstep⟩
    obtain ⟨w, hw, rfl⟩ := Option.map_eq_some_iff.mp hb.2
    exact Or.inl ⟨b, rfl, hb.1, hw, rfl⟩
  | clone n =>
    simp only [HandleWorld.step] at hstep
    split at hstep
    · next k hk =>
      obtain rfl := Option.some.inj hstep
      exact Or.inr (Or.inl ⟨n, k, rfl, hk, rfl, rfl⟩)
    · cases hstep
  | drop t n now =>
    simp only [HandleWorld.step] at hstep
    split at hstep
    · next k hk =>
      obtain ⟨w, hw, rfl⟩ := Option.map_eq_some_iff.mp hstep
      exact Or.inr (Or.inr ⟨t, n, now, k, rfl, hk, hw, rfl⟩)
    · cases hstep

/-! ## The invariant -/

/-- INTERNAL: sidecar and slab agree, every id has its handle count, and no handle is left
on a recorded span that was closed. -/
structure Handled (s : HandleWorld T) : Prop where
  agrees : Agrees s.world
  length : s.handles.length = s.world.spans.length
  closed : ∀ (n : ℕ) (sp : Returned), s.world.spans[n]? = some sp → sp.record.isSome →
    sp.closed = true → s.handles[n]? = some 0

omit [DecidableEq T] in
/-- INTERNAL: nothing is handled at the start. -/
theorem handled_start (cache : SpanCache) (capacity : ℕ) (config : CacheConfig)
    (hcache : SpanCache.withConfig capacity config = some cache) (key : ℕ) (keys : T → ℕ) :
    Handled (HandleWorld.start cache key keys) where
  agrees := agrees_start capacity config cache hcache key keys
  length := rfl
  closed := fun _ _ h => by cases h

omit [DecidableEq T] in
/-- INTERNAL: the drop of a handle finds its span unclosed. -/
theorem Handled.unclosed (s : HandleWorld T) (h : Handled s) (n k : ℕ) (sp : Returned)
    (hsp : s.world.spans[n]? = some sp) (hr : sp.record.isSome)
    (hk : s.handles[n]? = some (k + 1)) : sp.closed = false := by
  cases hclosed : sp.closed with
  | false => rfl
  | true =>
    rw [h.closed n sp hsp hr hclosed] at hk
    cases hk

/-- INTERNAL: the step `try_close` of a returned id. -/
theorem tryClose_step (w w' : World T) (t : T) (n now : ℕ)
    (hstep : w.step (.tryClose t n now) = some w') :
    ∃ sp, w.spans[n]? = some sp ∧ w' = (w.tryClose t sp.tracingId now).markClosed n := by
  simp only [World.step] at hstep
  split at hstep
  · next sp hcall hsp => exact ⟨sp, hsp, (Option.some.inj hstep).symm⟩
  · cases hstep

/-- INTERNAL: **steps that drop no handle but the last keep the invariant**. -/
theorem Handled.step (s s' : HandleWorld T) (h : Handled s) (a : HandleStep T)
    (hlast : DropsLast s a) (hstep : s.step a = some s') : Handled s' := by
  rcases step_cases s s' a hstep with
    ⟨b, rfl, hb, hworld, hhandles⟩ | ⟨n, k, rfl, hk, hworld, hhandles⟩ |
    ⟨t, n, now, k, rfl, hk, hworld, hhandles⟩
  · have hmove := step_moves s.world s'.world h.agrees.placed b hworld
    have honce : ClosesOnce s.world b := by
      cases b with
      | tryClose t n now => exact hb.elim
      | _ => trivial
    obtain ⟨-, -, hspans⟩ := hmove.opens s.world s'.world b hb
    refine ⟨h.agrees.move s.world s'.world b honce hmove, ?_, ?_⟩
    · rw [hhandles, List.length_append, List.length_replicate, h.length]
      rcases hspans with hsame | ⟨sp, hone, -⟩
      · rw [hsame]
        omega
      · rw [hone, List.length_append]
        omega
    · intro n sp hsp hr hclosed
      have hold : s.world.spans[n]? = some sp := by
        rcases hspans with hsame | ⟨new, hone, hopen⟩
        · rw [← hsame]
          exact hsp
        · rw [hone] at hsp
          by_cases hn : n < s.world.spans.length
          · rw [List.getElem?_append_left hn] at hsp
            exact hsp
          · have hlen := (List.getElem?_eq_some_iff.mp hsp).1
            rw [List.length_append, List.length_singleton] at hlen
            have hlast : n = s.world.spans.length := by omega
            rw [hlast, List.getElem?_concat_length] at hsp
            rw [← Option.some.inj hsp, hopen] at hclosed
            cases hclosed
      have hn : n < s.handles.length := by
        rw [h.length]
        exact (List.getElem?_eq_some_iff.mp hold).1
      rw [hhandles, List.getElem?_append_left hn]
      exact h.closed n sp hold hr hclosed
  · refine ⟨by rw [hworld]; exact h.agrees, ?_, ?_⟩
    · rw [hhandles, hworld, List.length_set]
      exact h.length
    · intro m sp hsp hr hclosed
      rw [hworld] at hsp
      have hzero := h.closed m sp hsp hr hclosed
      have hne : n ≠ m := by
        rintro rfl
        rw [hk] at hzero
        cases hzero
      rw [hhandles, List.getElem?_set_ne hne]
      exact hzero
  · have hmove := step_moves s.world s'.world h.agrees.placed _ hworld
    obtain ⟨sp, hsp, hw'⟩ := tryClose_step s.world s'.world t n now hworld
    have honce : ClosesOnce s.world (.tryClose t n now) := by
      intro sp' hsp' hr
      exact h.unclosed s n k sp' hsp' hr hk
    have hspans : s'.world.spans = (s.world.markClosed n).spans := by
      rw [hw']
      rcases tryClose_effect s.world h.agrees.placed t n now sp hsp with
        ⟨-, hsame⟩ | ⟨slot, c', -, -, -, -, -, -, heffect⟩
      · rw [hsame]
      · rw [heffect]
        rfl
    refine ⟨h.agrees.move s.world s'.world _ honce hmove, ?_, ?_⟩
    · rw [hhandles, hspans, List.length_set, h.length]
      exact (List.length_modify ..).symm
    · intro m sp' hsp' hr hclosed
      rw [hspans, getElem?_markClosed] at hsp'
      by_cases hm : m = n
      · subst hm
        have hr' : sp.record.isSome := by
          rw [if_pos rfl, hsp] at hsp'
          rw [← Option.some.inj hsp'] at hr
          exact hr
        have hone := hlast sp hsp hr'
        rw [hk] at hone
        have hzero : k = 0 := Nat.succ.inj (Option.some.inj hone)
        rw [hhandles, List.getElem?_set_self (by
          rw [h.length]; exact (List.getElem?_eq_some_iff.mp hsp).1), hzero]
      · rw [if_neg hm] at hsp'
        rw [hhandles, List.getElem?_set_ne fun heq => hm heq.symm]
        exact h.closed m sp' hsp' hr hclosed

/-! ## Single steps -/

/-- INTERNAL: what the drop of a handle on a recorded span does: it takes the span's own
record out of its slot, last handle or not. -/
theorem drop_effect (s : HandleWorld T) (h : Handled s) (t : T) (n now k : ℕ) (sp : Returned)
    (r : SpanRecord) (hsp : s.world.spans[n]? = some sp) (hr : sp.record = some r)
    (hk : s.handles[n]? = some (k + 1)) :
    ∃ slot, s.world.cache.decodeTracingId sp.tracingId = some slot ∧
      recordAt s.world.cache slot = some r ∧
      (s.world.tryClose t sp.tracingId now).closed =
        s.world.closed ++ handedOver t now (some r) ∧
      ∀ other, recordAt (s.world.tryClose t sp.tracingId now).cache other =
        if other = slot then none else recordAt s.world.cache other := by
  have hopen := h.unclosed s n k sp hsp (by rw [hr]; rfl) hk
  obtain ⟨slot, hdecode, -, hholds⟩ :=
    Live.holding s.world h.agrees.placed n sp r ⟨hsp, hr, hopen⟩
  have hrecord := h.agrees.sound.occupied (.inr n) slot r (hholds true)
  change recordAt s.world.cache slot = some r at hrecord
  refine ⟨slot, hdecode, hrecord, ?_⟩
  rcases tryClose_effect s.world h.agrees.placed t n now sp hsp with
    ⟨hdis, -⟩ | ⟨slot', c', -, hdecode', -, -, hrecords, -, heffect⟩
  · rw [hdis, SpanCache.decodeTracingId, if_pos rfl] at hdecode
    cases hdecode
  · rw [hdecode] at hdecode'
    obtain rfl := Option.some.inj hdecode'
    rw [heffect, hrecord]
    exact ⟨rfl, hrecords⟩

/-- INTERNAL: the drop of a handle on a disabled span does nothing. -/
theorem dropDisabled_effect (s : HandleWorld T) (h : Handled s) (t : T) (n now : ℕ)
    (sp : Returned) (hsp : s.world.spans[n]? = some sp) (hr : sp.record = none) :
    s.world.tryClose t sp.tracingId now = s.world ∧
      s.world.cache.decodeTracingId sp.tracingId = none := by
  have hissued := h.agrees.placed.spans sp (List.mem_of_getElem? hsp)
  rw [Issued, hr] at hissued
  have hdecode : s.world.cache.decodeTracingId sp.tracingId = none := by
    rw [hissued, SpanCache.decodeTracingId, if_pos rfl]
  refine ⟨?_, hdecode⟩
  rcases tryClose_effect s.world h.agrees.placed t n now sp hsp with
    ⟨-, hsame⟩ | ⟨slot, c', hne, -⟩
  · exact hsame
  · exact absurd hissued hne

omit [DecidableEq T] in
/-- INTERNAL: a drop is the last of its span or not. -/
theorem lastDropped_drop (s : HandleWorld T) (t : T) (n now k : ℕ) (sp : Returned)
    (hsp : s.world.spans[n]? = some sp) (hk : s.handles[n]? = some (k + 1)) :
    lastDropped s (.drop t n now) = if k = 0 then some sp else none := by
  rw [lastDropped, hk, hsp]
  by_cases hzero : k = 0
  · simp [hzero]
  · simp [hzero]

omit [DecidableEq T] in
/-- INTERNAL: what is due when a handle is dropped. -/
theorem due_drop (s : HandleWorld T) (t : T) (n now k : ℕ) (sp : Returned)
    (hsp : s.world.spans[n]? = some sp) (hk : s.handles[n]? = some (k + 1)) :
    dueClose s (.drop t n now) = (if k = 0 then handedOver t now sp.record else []) ∧
      dueSlot s (.drop t n now) =
        if k = 0 then s.world.cache.decodeTracingId sp.tracingId else none := by
  rw [dueClose, dueSlot, lastDropped_drop s t n now k sp hsp hk]
  by_cases hzero : k = 0
  · simp only [if_pos hzero, Option.bind_some, and_self]
  · simp only [if_neg hzero]
    exact ⟨rfl, rfl⟩

/-- INTERNAL: **a step closes right exactly when it drops no handle but the last one**, or
one on a disabled span. -/
theorem closesRight_iff (s s' : HandleWorld T) (h : Handled s) (a : HandleStep T)
    (hstep : s.step a = some s') : ClosesRight s a ↔ DropsLast s a := by
  have hunfold : ClosesRight s a ↔
      s'.world.closed = s.world.closed ++ dueClose s a ∧
      ∀ slot r, recordAt s.world.cache slot = some r →
        recordAt s'.world.cache slot = if dueSlot s a = some slot then none else some r := by
    constructor
    · intro hright
      exact hright s' hstep
    · intro hright s₂ hs₂
      rw [hstep] at hs₂
      cases hs₂
      exact hright
  rw [hunfold]
  rcases step_cases s s' a hstep with
    ⟨b, rfl, hb, hworld, -⟩ | ⟨n, k, rfl, hk, hworld, -⟩ | ⟨t, n, now, k, rfl, hk, hworld, -⟩
  · have hmove := step_moves s.world s'.world h.agrees.placed b hworld
    obtain ⟨hclosed, hrecords, -⟩ := hmove.opens s.world s'.world b hb
    refine ⟨fun _ => trivial, fun _ => ⟨?_, ?_⟩⟩
    · rw [hclosed]
      exact (List.append_nil _).symm
    · intro slot r hr
      exact hrecords slot r hr
  · refine ⟨fun _ => trivial, fun _ => ⟨?_, ?_⟩⟩
    · rw [hworld]
      exact (List.append_nil _).symm
    · intro slot r hr
      rw [hworld]
      exact hr
  · obtain ⟨sp, hsp, hw'⟩ := tryClose_step s.world s'.world t n now hworld
    have hclosed' : s'.world.closed = (s.world.tryClose t sp.tracingId now).closed := by
      rw [hw']
      rfl
    have hcache' : s'.world.cache = (s.world.tryClose t sp.tracingId now).cache := by
      rw [hw']
      rfl
    obtain ⟨hdue, hslot⟩ := due_drop s t n now k sp hsp hk
    rw [hclosed', hcache', hdue, hslot]
    cases hr : sp.record with
    | none =>
      -- nothing is due, and nothing happens
      obtain ⟨hsame, hdecode⟩ := dropDisabled_effect s h t n now sp hsp hr
      rw [hsame, hdecode, ite_self]
      refine ⟨fun _ sp' hsp' hr' => ?_, fun _ => ⟨?_, ?_⟩⟩
      · rw [hsp] at hsp'
        rw [← Option.some.inj hsp', hr] at hr'
        cases hr'
      · split <;> exact (List.append_nil _).symm
      · intro slot r hrecord
        exact hrecord
    | some r =>
      obtain ⟨slot, hdecode, hrecord, hclosed, hrecords⟩ :=
        drop_effect s h t n now k sp r hsp hr hk
      rw [hclosed, hdecode]
      constructor
      · rintro ⟨hemitted, -⟩ sp' - -
        by_cases hzero : k = 0
        · rw [hk, hzero]
        · -- the record is emitted although other handles are left
          rw [if_neg hzero] at hemitted
          have hempty := List.append_cancel_left hemitted
          cases hempty
      · intro hlast
        have hone := hlast sp hsp (by rw [hr]; rfl)
        rw [hk] at hone
        have hzero : k = 0 := Nat.succ.inj (Option.some.inj hone)
        rw [if_pos hzero, if_pos hzero]
        refine ⟨rfl, fun other r' hr' => ?_⟩
        rw [hrecords, hr']
        by_cases hother : other = slot
        · rw [if_pos hother, if_pos (by rw [hother])]
        · rw [if_neg hother, if_neg fun heq => hother (Option.some.inj heq).symm]

/-! ## Runs -/

/-- CODE: cache.rs:341-366, cache.rs:542-567 — **a span closes once, with its last handle**,
in exactly the runs in which every handle dropped is the only one on its span or is on a
disabled span.  In any other run the first drop of one of several handles removes and
emits a span that is still in use. -/
theorem closes_with_last_handle_iff (cache : SpanCache) (capacity : ℕ) (config : CacheConfig)
    (hcache : SpanCache.withConfig capacity config = some cache) (key : ℕ) (keys : T → ℕ)
    (steps : List (HandleStep T)) (s : HandleWorld T)
    (hrun : run HandleWorld.step (HandleWorld.start cache key keys) steps = some s) :
    RunsUnder HandleWorld.step ClosesRight (HandleWorld.start cache key keys) steps ↔
      RunsUnder HandleWorld.step DropsLast (HandleWorld.start cache key keys) steps :=
  runsUnder_iff HandleWorld.step ClosesRight DropsLast Handled
    (fun s a s' h hstep => closesRight_iff s s' h a hstep)
    (fun s a s' h hlast hstep => h.step s s' a hlast hstep)
    (HandleWorld.start cache key keys) steps s
    (handled_start cache capacity config hcache key keys) hrun

/-- INTERNAL: a root span is opened and its handle cloned, one of the two handles is
dropped, a second root takes the free slot, and the other handle of the first is dropped. -/
def cloneThenReuse : List (HandleStep Bool) :=
  (openRoot false).map .cache ++ [.clone 0] ++ .drop false 0 5 ::
    ((openRoot true).map .cache ++ [.drop false 0 9])

/-- CODE: cache.rs:542-567 — the single handle on a span is dropped, and the run closes
right. -/
theorem closes_with_last_handle_single :
    RunsUnder HandleWorld.step ClosesRight (HandleWorld.start oneSlot 0 fun _ => 0)
      ((openRoot false).map HandleStep.cache ++ [.drop false 0 5]) :=
  (closes_with_last_handle_iff oneSlot 1 { laneCount := 1, pendingBatch := 8 } (by decide) 0
    (fun _ => 0) ((openRoot false).map HandleStep.cache ++ [.drop false 0 5]) _ rfl).mpr
    (by decide)

/-- CODE: cache.rs:542-567 — the first drop emits the first span while a handle is left on
it, and the second drop emits the second span (id 2048), whose only handle is still there. -/
theorem clone_closes_other_span :
    (∃ s, run HandleWorld.step (HandleWorld.start oneSlot 0 fun _ => 0) cloneThenReuse = some s ∧
      s.world.closed.map (fun e => e.2.id) = [1024, 2048] ∧ s.handles = [0, 1]) ∧
    ¬ RunsUnder HandleWorld.step ClosesRight (HandleWorld.start oneSlot 0 fun _ => 0)
      cloneThenReuse := by
  refine ⟨⟨_, rfl, rfl, rfl⟩, ?_⟩
  intro hright
  have hdrop := RunsUnder.at_step HandleWorld.step ClosesRight _ _
    ((openRoot false).map .cache ++ [.clone 0]) _ (.drop false 0 5) hright rfl
  exact absurd (hdrop _ rfl).1 (by decide)

end TracingConsole.Analysis
