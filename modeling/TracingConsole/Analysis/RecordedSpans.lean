import TracingConsole.Analysis.CacheMoves
import TracingConsole.Analysis.Sidecar

/-!
# No recorded span dangles

A span is rejected when its parent is, when the predicate says so, or when its shard is
full; the disabled id then stands for it on stacks and as an explicit parent.  `Recorded`
says where ids of inserted records can turn up: in the sidecar words of the slots whose ids
were returned, on the stacks, and in the calls under way.  So the parent of a record was
inserted before it, and nothing is recorded under a disabled span
(`recorded_spans_rooted`).  Ids may be closed any number of times here.
-/

set_option autoImplicit false

namespace TracingConsole.Analysis

open TracingConsole.Library TracingConsole.Model

variable {T : Type} [DecidableEq T]

/-! ## Spans under a disabled span -/

/-- INTERNAL: the innermost span of a thread is disabled.
SRCLINE: thread_state.rs:104-107 -/
def TopDisabled (top : Option StackedSpan) : Prop :=
  top.map StackedSpan.tracingId = some disabledId

/-- INTERNAL: a new span is created under a disabled one: the top of the stack is disabled, or
the explicit parent it names is. -/
def UnderDisabled (parent : ParentKind) (top : Option StackedSpan) : Prop :=
  parent = .explicit disabledId ∨ TopDisabled top

/-- INTERNAL: the same of an event. -/
def EventUnderDisabled (call : EventCall) : Prop :=
  call.parent = some disabledId ∨ TopDisabled call.top

/-- INTERNAL: the parent `new_span` looks at is disabled: the explicit one, or, when there is
none, the top of the stack.
SRCLINE: cache.rs:369-402 -/
def ParentDisabled (parent : ParentKind) (top : Option StackedSpan) : Prop :=
  match parent with
  | .explicit id => id = disabledId
  | _ => TopDisabled top

/-- INTERNAL: the same of an event.
SRCLINE: cache.rs:471-498 -/
def EventParentDisabled (call : EventCall) : Prop :=
  match call.parent with
  | some id => id = disabledId
  | none => TopDisabled call.top

/-- INTERNAL: an explicit parent that is enabled hides the disabled top of the stack.
SRCLINE: cache.rs:385-402 -/
def Overrides (parent : ParentKind) (top : Option StackedSpan) : Prop :=
  match parent with
  | .explicit id => id ≠ disabledId ∧ TopDisabled top
  | _ => False

/-- INTERNAL: the same of an event.
SRCLINE: cache.rs:476-485 -/
def EventOverrides (call : EventCall) : Prop :=
  match call.parent with
  | some id => id ≠ disabledId ∧ TopDisabled call.top
  | none => False

/-- INTERNAL: a span under a disabled one is refused for the parent looked at, or hides the
disabled one behind an explicit parent. -/
theorem underDisabled_iff (parent : ParentKind) (top : Option StackedSpan) :
    UnderDisabled parent top ↔ ParentDisabled parent top ∨ Overrides parent top := by
  unfold UnderDisabled ParentDisabled Overrides
  cases parent with
  | contextual => simp
  | root => simp
  | explicit id =>
    by_cases hid : id = disabledId
    · simp [hid]
    · simp [hid]

/-- INTERNAL: the same of an event. -/
theorem eventUnderDisabled_iff (call : EventCall) :
    EventUnderDisabled call ↔ EventParentDisabled call ∨ EventOverrides call := by
  unfold EventUnderDisabled EventParentDisabled EventOverrides
  cases call.parent with
  | none => simp
  | some id =>
    by_cases hid : id = disabledId
    · simp [hid]
    · simp [hid]

/-- INTERNAL: what has been checked of a span whose parent is resolved; `ids` are the ids of
the records inserted by then. -/
structure WellRooted (ids : List ℕ) (o : Opening) : Prop where
  root : o.parentActualId = none → o.attrs.parent = .root ∧ o.top = none
  child : ∀ p, o.parentActualId = some p → p ∈ ids
  enabled : ¬ ParentDisabled o.attrs.parent o.top

/-- INTERNAL: more ids leave an opening rooted. -/
theorem WellRooted.mono (ids ids' : List ℕ) (o : Opening) (h : WellRooted ids o)
    (hsub : ∀ id ∈ ids, id ∈ ids') : WellRooted ids' o :=
  ⟨h.root, fun p hp => hsub p (h.child p hp), h.enabled⟩

/-! ## The invariant -/

/-- INTERNAL: the ids of a list of insertions. -/
def idsOf (log : List (Opening × SpanRecord)) : List ℕ := log.map fun e => e.2.id

/-- INTERNAL: the sidecar word of a slot is the id of an inserted record. -/
def Stocked (ids : List ℕ) (c : SpanCache) (slot : ℕ × ℕ) : Prop :=
  ∃ id ∈ ids, idAt c slot = some id

/-- INTERNAL: what a `new_span` call has established. -/
def CallRecorded (ids : List ℕ) (c : SpanCache) : Call → Prop
  | .resolved o => WellRooted ids o
  | .enabled o => WellRooted ids o
  | .built o r => WellRooted ids o ∧ r.parentId = o.parentActualId
  | .picked o r _ => WellRooted ids o ∧ r.parentId = o.parentActualId
  | .inserted r _ _ => r.id ∈ ids
  | .stored _ shard slabIdx => Stocked ids c (shard, slabIdx)
  | _ => True

/-- INTERNAL: an id is disabled or the address of a slot with the id of an inserted record. -/
def IdRecorded (ids : List ℕ) (c : SpanCache) (id : ℕ) : Prop :=
  id = disabledId ∨ ∃ slot, c.decodeTracingId id = some slot ∧ Stocked ids c slot

/-- INTERNAL: ids of inserted records are all that is ever used as a parent, and every
insertion and every event so far had one, or was a root. -/
structure Recorded (w : World T) : Prop where
  placed : Placed w
  calls : ∀ t, CallRecorded (idsOf w.inserted) w.cache (w.call t)
  onStack : ∀ t, ∀ entry ∈ w.spanStack t,
    entry.tracingId = disabledId ∨ entry.actualId ∈ idsOf w.inserted
  spans : ∀ sp ∈ w.spans, IdRecorded (idsOf w.inserted) w.cache sp.tracingId
  log : ∀ k o r, w.inserted[k]? = some (o, r) →
    WellRooted (idsOf (w.inserted.take k)) o ∧ r.parentId = o.parentActualId
  events : ∀ call msg, (call, msg) ∈ w.events →
    msg.parentActualId ∈ idsOf w.inserted ∧ ¬ EventParentDisabled call

omit [DecidableEq T] in
/-- INTERNAL: nothing is recorded at the start. -/
theorem recorded_start (capacity : ℕ) (config : CacheConfig) (c : SpanCache)
    (hcache : SpanCache.withConfig capacity config = some c) (key : ℕ) (keys : T → ℕ) :
    Recorded (World.start c key keys) where
  placed := placed_start capacity config c hcache key keys
  calls := fun _ => trivial
  onStack := fun _ _ h => by cases h
  spans := fun _ h => by cases h
  log := fun _ _ _ h => by cases h
  events := fun _ _ h => by cases h

/-- INTERNAL: more ids and more slots leave a call recorded. -/
theorem CallRecorded.mono (ids ids' : List ℕ) (c c' : SpanCache) (call : Call)
    (h : CallRecorded ids c call) (hids : ∀ id ∈ ids, id ∈ ids')
    (hstocked : ∀ slot, Stocked ids c slot → Stocked ids' c' slot) :
    CallRecorded ids' c' call := by
  cases call with
  | idle => trivial
  | resolved o => exact WellRooted.mono ids ids' o h hids
  | enabled o => exact WellRooted.mono ids ids' o h hids
  | built o r => exact ⟨WellRooted.mono ids ids' o h.1 hids, h.2⟩
  | picked o r shard => exact ⟨WellRooted.mono ids ids' o h.1 hids, h.2⟩
  | inserted r shard slabIdx => exact hids r.id h
  | stored r shard slabIdx => exact hstocked (shard, slabIdx) h
  | panicked => trivial

omit [DecidableEq T] in
/-- INTERNAL: insertions only add ids, sidecar words keep to ids, and what is new in a
thread, on a stack or among the ids is as it should be. -/
theorem Recorded.of_frame (w w' : World T) (h : Recorded w) (hplaced : Placed w')
    (hlayout : SameLayout w.cache w'.cache)
    (hids : ∀ id ∈ idsOf w.inserted, id ∈ idsOf w'.inserted)
    (hstocked : ∀ slot, Stocked (idsOf w.inserted) w.cache slot →
      Stocked (idsOf w'.inserted) w'.cache slot)
    (hcalls : ∀ t, w'.call t = w.call t ∨
      CallRecorded (idsOf w'.inserted) w'.cache (w'.call t))
    (hstacks : ∀ t, ∀ entry ∈ w'.spanStack t, entry ∈ w.spanStack t ∨
      entry.tracingId = disabledId ∨ entry.actualId ∈ idsOf w'.inserted)
    (hspans : ∀ sp ∈ w'.spans, (∃ old ∈ w.spans, old.tracingId = sp.tracingId) ∨
      IdRecorded (idsOf w'.inserted) w'.cache sp.tracingId)
    (hlog : ∀ k o r, w'.inserted[k]? = some (o, r) → w.inserted[k]? ≠ some (o, r) →
      WellRooted (idsOf (w'.inserted.take k)) o ∧ r.parentId = o.parentActualId)
    (htake : ∀ k < w.inserted.length, w'.inserted.take k = w.inserted.take k)
    (hevents : ∀ e ∈ w'.events, e ∈ w.events ∨
      (e.2.parentActualId ∈ idsOf w'.inserted ∧ ¬ EventParentDisabled e.1)) : Recorded w' where
  placed := hplaced
  calls := by
    intro t
    rcases hcalls t with heq | hnew
    · rw [heq]
      exact (h.calls t).mono _ _ _ _ _ hids hstocked
    · exact hnew
  onStack := by
    intro t entry hentry
    rcases hstacks t entry hentry with hold | hnew
    · exact (h.onStack t entry hold).imp_right (hids _)
    · exact hnew
  spans := by
    intro sp hsp
    rcases hspans sp hsp with ⟨old, hold, heq⟩ | hnew
    · rw [← heq]
      rcases h.spans old hold with hdis | ⟨slot, hdecode, hstock⟩
      · exact Or.inl hdis
      · exact Or.inr ⟨slot, (hlayout.decode_eq w.cache w'.cache _).trans hdecode,
          hstocked slot hstock⟩
    · exact hnew
  log := by
    intro k o r hk
    by_cases hold : w.inserted[k]? = some (o, r)
    · rw [htake k (List.getElem?_eq_some_iff.mp hold).1]
      exact h.log k o r hold
    · exact hlog k o r hk hold
  events := by
    intro call msg hmem
    rcases hevents (call, msg) hmem with hold | hnew
    · have hbefore := h.events call msg hold
      exact ⟨hids _ hbefore.1, hbefore.2⟩
    · exact hnew

omit [DecidableEq T] in
/-- INTERNAL: nothing is inserted and no sidecar word is written. -/
theorem Recorded.of_same (w w' : World T) (h : Recorded w) (hplaced : Placed w')
    (hlayout : SameLayout w.cache w'.cache) (hinserted : w'.inserted = w.inserted)
    (hwords : ∀ slot, idAt w'.cache slot = idAt w.cache slot)
    (hcalls : ∀ t, w'.call t = w.call t ∨
      CallRecorded (idsOf w.inserted) w.cache (w'.call t))
    (hstacks : ∀ t, ∀ entry ∈ w'.spanStack t, entry ∈ w.spanStack t ∨
      entry.tracingId = disabledId ∨ entry.actualId ∈ idsOf w.inserted)
    (hspans : ∀ sp ∈ w'.spans, (∃ old ∈ w.spans, old.tracingId = sp.tracingId) ∨
      IdRecorded (idsOf w.inserted) w.cache sp.tracingId)
    (hevents : ∀ e ∈ w'.events, e ∈ w.events ∨
      (e.2.parentActualId ∈ idsOf w.inserted ∧ ¬ EventParentDisabled e.1)) : Recorded w' := by
  have hstocked : ∀ slot, Stocked (idsOf w.inserted) w.cache slot →
      Stocked (idsOf w.inserted) w'.cache slot := by
    rintro slot ⟨id, hid, hword⟩
    exact ⟨id, hid, (hwords slot).trans hword⟩
  apply h.of_frame w w' hplaced hlayout
  · rw [hinserted]
    exact fun id hid => hid
  · rw [hinserted]
    exact hstocked
  · intro t
    rw [hinserted]
    exact (hcalls t).imp_right fun hc => hc.mono _ _ _ _ _ (fun id hid => hid) hstocked
  · rw [hinserted]
    exact hstacks
  · intro sp hsp
    rw [hinserted]
    refine (hspans sp hsp).imp_right fun hid => hid.imp_right ?_
    rintro ⟨slot, hdecode, hstock⟩
    exact ⟨slot, (hlayout.decode_eq w.cache w'.cache _).trans hdecode, hstocked slot hstock⟩
  · intro k o r hk hne
    rw [hinserted] at hk
    exact absurd hk hne
  · intro k _
    rw [hinserted]
  · rw [hinserted]
    exact hevents

omit [DecidableEq T] in
/-- INTERNAL: the ids given out were given out before. -/
theorem sameSpans (w : World T) (sp : Returned) (hsp : sp ∈ w.spans) :
    (∃ old ∈ w.spans, old.tracingId = sp.tracingId) ∨
      IdRecorded (idsOf w.inserted) w.cache sp.tracingId := Or.inl ⟨sp, hsp, rfl⟩

omit [DecidableEq T] in
/-- INTERNAL: the ids given out with one more. -/
theorem oneMoreSpan (w : World T) (new : Returned)
    (hnew : IdRecorded (idsOf w.inserted) w.cache new.tracingId) :
    ∀ sp ∈ w.spans ++ [new], (∃ old ∈ w.spans, old.tracingId = sp.tracingId) ∨
      IdRecorded (idsOf w.inserted) w.cache sp.tracingId := by
  intro sp hsp
  rcases List.mem_append.mp hsp with hold | hlast
  · exact sameSpans w sp hold
  · rw [List.mem_singleton.mp hlast]
    exact Or.inr hnew

/-- INTERNAL: the stacks with another one for a thread. -/
theorem oneStack (w : World T) (t : T) (stack : List StackedSpan)
    (hstack : ∀ entry ∈ stack, entry ∈ w.spanStack t ∨ entry.tracingId = disabledId ∨
      entry.actualId ∈ idsOf w.inserted) :
    ∀ u, ∀ entry ∈ Function.update w.spanStack t stack u, entry ∈ w.spanStack u ∨
      entry.tracingId = disabledId ∨ entry.actualId ∈ idsOf w.inserted := by
  intro u entry hentry
  by_cases hu : u = t
  · subst hu
    rw [Function.update_self] at hentry
    exact hstack entry hentry
  · rw [Function.update_of_ne hu] at hentry
    exact Or.inl hentry

/-- INTERNAL: one thread goes on. -/
theorem setCall_recorded (w : World T) (t : T) (call : Call) (ids : List ℕ) (c : SpanCache)
    (hcall : CallRecorded ids c call) (u : T) :
    (w.setCall t call).call u = w.call u ∨ CallRecorded ids c ((w.setCall t call).call u) := by
  rw [setCall_call]
  by_cases hu : u = t
  · rw [if_pos hu]
    exact Or.inr hcall
  · rw [if_neg hu]
    exact Or.inl rfl

/-! ## The resolutions -/

omit [DecidableEq T] in
/-- INTERNAL: an id resolves to the id of an inserted record. -/
theorem Recorded.word (w : World T) (h : Recorded w) (sp : Returned) (hsp : sp ∈ w.spans)
    (slot : ℕ × ℕ) (word : ℕ) (hdecode : w.cache.decodeTracingId sp.tracingId = some slot)
    (hword : idAt w.cache slot = some word) : word ∈ idsOf w.inserted := by
  rcases h.spans sp hsp with hdis | ⟨slot', hdecode', id, hid, hword'⟩
  · rw [hdis, SpanCache.decodeTracingId, if_pos rfl] at hdecode
    cases hdecode
  · rw [hdecode'] at hdecode
    obtain rfl := Option.some.inj hdecode
    rw [hword'] at hword
    rw [← Option.some.inj hword]
    exact hid

omit [DecidableEq T] in
/-- INTERNAL: the top of a stack is disabled or names an inserted record. -/
theorem Recorded.top (w : World T) (h : Recorded w) (t : T) (entry : StackedSpan)
    (htop : w.stackTop t = some entry) :
    entry.tracingId = disabledId ∨ entry.actualId ∈ idsOf w.inserted :=
  h.onStack t entry (List.mem_of_mem_head? htop)

omit [DecidableEq T] in
/-- INTERNAL: a parent that resolves is a recorded one. -/
theorem Recorded.resolve (w : World T) (h : Recorded w) (t : T) (o : Opening)
    (htop : o.top = w.stackTop t)
    (hparent : w.cache.resolveParent o.attrs o.top = .value o.parentActualId)
    (hissued : ∀ id, o.attrs.parent = .explicit id → ∃ sp ∈ w.spans, sp.tracingId = id) :
    WellRooted (idsOf w.inserted) o := by
  cases hkind : o.attrs.parent with
  | contextual =>
    simp only [SpanCache.resolveParent, hkind] at hparent
    cases hstack : o.top with
    | none =>
      rw [hstack] at hparent
      cases hparent
    | some entry =>
      simp only [hstack] at hparent
      split at hparent
      · cases hparent
      · next hne =>
        have hactual := Outcome.value.inj hparent
        have hentry := h.top w t entry (by rw [← htop, hstack])
        refine ⟨fun hnone => ?_, fun p hp => ?_, ?_⟩
        · rw [hnone] at hactual
          cases hactual
        · rw [hp] at hactual
          rw [← Option.some.inj hactual]
          exact hentry.resolve_left hne
        · rw [hkind, hstack]
          exact fun hdis => hne (Option.some.inj hdis)
  | root =>
    simp only [SpanCache.resolveParent, hkind] at hparent
    split at hparent
    · cases hparent
    · next hempty =>
      have hactual := Outcome.value.inj hparent
      have hnone : o.top = none := by simpa using hempty
      refine ⟨fun _ => ⟨hkind, hnone⟩, fun p hp => ?_, ?_⟩
      · rw [hp] at hactual
        cases hactual
      · rw [hkind, hnone]
        intro hdis
        cases hdis
  | explicit id =>
    obtain ⟨sp, hsp, rfl⟩ := hissued id hkind
    rcases explicitParent_cases w.cache h.placed.shape o.attrs o.top sp.tracingId hkind
      (h.placed.addressed w sp hsp) with ⟨-, hdis⟩ | ⟨slot, word, -, hdecode, hword, hvalue⟩
    · rw [hdis] at hparent
      cases hparent
    · rw [hvalue] at hparent
      have hactual := Outcome.value.inj hparent
      refine ⟨fun hnone => ?_, fun p hp => ?_, ?_⟩
      · rw [hnone] at hactual
        cases hactual
      · rw [hp] at hactual
        rw [← Option.some.inj hactual]
        exact h.word w sp hsp slot word hdecode hword
      · rw [hkind]
        intro hdis
        change sp.tracingId = disabledId at hdis
        rw [hdis, SpanCache.decodeTracingId, if_pos rfl] at hdecode
        cases hdecode

omit [DecidableEq T] in
/-- INTERNAL: an entered span is disabled or recorded. -/
theorem Recorded.entered (w : World T) (h : Recorded w) (sp : Returned) (hsp : sp ∈ w.spans)
    (entry : StackedSpan) (hentry : w.cache.enteredSpan sp.tracingId = .value entry) :
    entry.tracingId = disabledId ∨ entry.actualId ∈ idsOf w.inserted := by
  rcases enteredSpan_cases w.cache h.placed.shape sp.tracingId (h.placed.addressed w sp hsp) with
    ⟨hdis, hvalue⟩ | ⟨slot, word, -, hdecode, hword, hvalue⟩
  · rw [hvalue] at hentry
    rw [← Outcome.value.inj hentry]
    exact Or.inl hdis
  · rw [hvalue] at hentry
    rw [← Outcome.value.inj hentry]
    exact Or.inr (h.word w sp hsp slot word hdecode hword)

omit [DecidableEq T] in
/-- INTERNAL: an event that goes through belongs to a recorded span. -/
theorem Recorded.event (w : World T) (h : Recorded w) (call : EventCall) (t : T) (p : ℕ)
    (htop : call.top = w.stackTop t)
    (hparent : w.cache.eventParent call.parent call.top = .value p)
    (hissued : ∀ id, call.parent = some id → ∃ sp ∈ w.spans, sp.tracingId = id) :
    p ∈ idsOf w.inserted ∧ ¬ EventParentDisabled call := by
  unfold EventParentDisabled
  cases hkind : call.parent with
  | none =>
    rw [hkind] at hparent
    simp only [SpanCache.eventParent] at hparent
    cases hstack : call.top with
    | none =>
      rw [hstack] at hparent
      cases hparent
    | some entry =>
      simp only [hstack] at hparent
      split at hparent
      · cases hparent
      · next hne =>
        have hentry := h.top w t entry (by rw [← htop, hstack])
        refine ⟨?_, ?_⟩
        · rw [← Outcome.value.inj hparent]
          exact hentry.resolve_left hne
        · exact fun hdis => hne (Option.some.inj hdis)
  | some id =>
    obtain ⟨sp, hsp, rfl⟩ := hissued id hkind
    rw [hkind] at hparent
    rcases eventParent_cases w.cache h.placed.shape call.top sp.tracingId
      (h.placed.addressed w sp hsp) with ⟨-, hdis⟩ | ⟨slot, word, -, hdecode, hword, hvalue⟩
    · rw [hdis] at hparent
      cases hparent
    · rw [hvalue] at hparent
      refine ⟨?_, ?_⟩
      · rw [← Outcome.value.inj hparent]
        exact h.word w sp hsp slot word hdecode hword
      · intro hdis
        change sp.tracingId = disabledId at hdis
        rw [hdis, SpanCache.decodeTracingId, if_pos rfl] at hdecode
        cases hdecode

/-! ## Every move -/

/-- INTERNAL: an insertion adds one entry to the log. -/
theorem Recorded.insert (w w' : World T) (h : Recorded w) (hplaced : Placed w') (t : T)
    (o : Opening) (r : SpanRecord) (slot : ℕ × ℕ) (hcall : w.call t = .picked o r slot.1)
    (hcall' : w'.call = (w.setCall t (.inserted r slot.1 slot.2)).call)
    (hinserted : w'.inserted = w.inserted ++ [(o, r)]) (hstack : w'.spanStack = w.spanStack)
    (hspans : w'.spans = w.spans) (hevents : w'.events = w.events)
    (hlayout : SameLayout w.cache w'.cache)
    (hwords : ∀ s, idAt w'.cache s = idAt w.cache s) : Recorded w' := by
  have hopening : WellRooted (idsOf w.inserted) o ∧ r.parentId = o.parentActualId := by
    have hbefore := h.calls t
    rw [hcall] at hbefore
    exact hbefore
  have hids : idsOf w'.inserted = idsOf w.inserted ++ [r.id] := by
    rw [idsOf, hinserted, List.map_append]
    rfl
  apply h.of_frame w w' hplaced hlayout
  · intro id hid
    rw [hids]
    exact List.mem_append_left _ hid
  · rintro s ⟨id, hid, hword⟩
    refine ⟨id, ?_, (hwords s).trans hword⟩
    rw [hids]
    exact List.mem_append_left _ hid
  · intro u
    rw [hcall']
    apply setCall_recorded
    show r.id ∈ idsOf w'.inserted
    simp [hids]
  · intro u entry hentry
    rw [hstack] at hentry
    exact Or.inl hentry
  · intro sp hsp
    rw [hspans] at hsp
    exact Or.inl ⟨sp, hsp, rfl⟩
  · intro k o' r' hk hne
    rw [hinserted] at hk ⊢
    by_cases hlt : k < w.inserted.length
    · rw [List.getElem?_append_left hlt] at hk
      exact absurd hk hne
    · have hlen := (List.getElem?_eq_some_iff.mp hk).1
      have hlast : k = w.inserted.length := by
        rw [List.length_append, List.length_singleton] at hlen
        omega
      subst hlast
      rw [List.getElem?_concat_length] at hk
      obtain ⟨rfl, rfl⟩ := Prod.mk.inj (Option.some.inj hk)
      rw [List.take_left]
      exact hopening
  · intro k hk
    rw [hinserted, List.take_append_of_le_length (le_of_lt hk)]
  · intro e he
    rw [hevents] at he
    exact Or.inl he

/-- INTERNAL: a sidecar store writes the id of an inserted record. -/
theorem Recorded.store (w w' : World T) (h : Recorded w) (hplaced : Placed w') (t : T)
    (r : SpanRecord) (slot : ℕ × ℕ) (hcall : w.call t = .inserted r slot.1 slot.2)
    (hcall' : w'.call = (w.setCall t (.stored r slot.1 slot.2)).call)
    (hinserted : w'.inserted = w.inserted) (hstack : w'.spanStack = w.spanStack)
    (hspans : w'.spans = w.spans) (hevents : w'.events = w.events)
    (hlayout : SameLayout w.cache w'.cache)
    (hwords : ∀ s, idAt w'.cache s = if s = slot then some r.id else idAt w.cache s) :
    Recorded w' := by
  have hmem : r.id ∈ idsOf w.inserted := by
    have hbefore := h.calls t
    rw [hcall] at hbefore
    exact hbefore
  apply h.of_frame w w' hplaced hlayout
  · rw [hinserted]
    exact fun id hid => hid
  · rintro s ⟨id, hid, hword⟩
    rw [hinserted]
    by_cases hs : s = slot
    · exact ⟨r.id, hmem, by rw [hwords, if_pos hs]⟩
    · exact ⟨id, hid, by rw [hwords, if_neg hs]; exact hword⟩
  · intro u
    rw [hcall', hinserted]
    apply setCall_recorded
    exact ⟨r.id, hmem, by rw [hwords, if_pos rfl]⟩
  · intro u entry hentry
    rw [hstack] at hentry
    exact Or.inl hentry
  · intro sp hsp
    rw [hspans] at hsp
    exact Or.inl ⟨sp, hsp, rfl⟩
  · intro k o' r' hk hne
    rw [hinserted] at hk
    exact absurd hk hne
  · intro k _
    rw [hinserted]
  · intro e he
    rw [hevents] at he
    exact Or.inl he

/-- INTERNAL: **moves keep parents recorded**. -/
theorem Recorded.move (w w' : World T) (h : Recorded w) (a : CacheStep T)
    (hmove : Move w a w') : Recorded w' := by
  have hplaced := h.placed.move w w' a hmove
  have hrefl := sameLayout_refl w.cache
  have hsame : ∀ t, w.call t = w.call t ∨
      CallRecorded (idsOf w.inserted) w.cache (w.call t) := fun _ => Or.inl rfl
  have hstacks : ∀ t, ∀ entry ∈ w.spanStack t, entry ∈ w.spanStack t ∨
      entry.tracingId = disabledId ∨ entry.actualId ∈ idsOf w.inserted :=
    fun _ _ hentry => Or.inl hentry
  have hevents : ∀ e ∈ w.events, e ∈ w.events ∨
      (e.2.parentActualId ∈ idsOf w.inserted ∧ ¬ EventParentDisabled e.1) :=
    fun _ he => Or.inl he
  have hclosed : ∀ n, ∀ sp ∈ (w.markClosed n).spans,
      (∃ old ∈ w.spans, old.tracingId = sp.tracingId) ∨
        IdRecorded (idsOf w.inserted) w.cache sp.tracingId := by
    intro n sp hsp
    obtain ⟨old, hold, heq, -⟩ := mem_modify_closed w.spans n sp hsp
    exact Or.inl ⟨old, hold, heq⟩
  cases hmove with
  | drop => exact h
  | reject _ t hcall =>
    exact h.of_same w _ hplaced hrefl rfl (fun _ => rfl)
      (setCall_recorded w t .idle _ _ trivial) hstacks (oneMoreSpan w _ (Or.inl rfl)) hevents
  | resolve _ t o _ htop hparent hissued =>
    exact h.of_same w _ hplaced hrefl rfl (fun _ => rfl)
      (setCall_recorded w t (.resolved o) _ _ (h.resolve w t o htop hparent hissued)) hstacks
      (sameSpans w) hevents
  | accept _ t o hcall =>
    have hopening := h.calls t
    rw [hcall] at hopening
    exact h.of_same w _ hplaced hrefl rfl (fun _ => rfl)
      (setCall_recorded w t (.enabled o) _ _ hopening) hstacks (sameSpans w) hevents
  | reserve _ t o =>
    exact h.of_same w _ hplaced hrefl rfl (fun _ => rfl) hsame hstacks (sameSpans w) hevents
  | build _ t o id now hcall =>
    have hopening := h.calls t
    rw [hcall] at hopening
    exact h.of_same w _ hplaced hrefl rfl (fun _ => rfl)
      (setCall_recorded w t (.built o _) _ _ ⟨hopening, rfl⟩) hstacks (sameSpans w) hevents
  | pick _ t o r shard key keys hcall =>
    have hopening := h.calls t
    rw [hcall] at hopening
    exact h.of_same w _ hplaced hrefl rfl (fun _ => rfl)
      (setCall_recorded w t (.picked o r shard) _ _ hopening) hstacks (sameSpans w) hevents
  | insert _ t o r slot c' hcall _ hlayout _ _ _ hids =>
    exact h.insert w _ hplaced t o r slot hcall rfl rfl rfl rfl rfl hlayout hids
  | store _ t r slot c' hcall _ hlayout _ hids =>
    exact h.store w _ hplaced t r slot hcall rfl rfl rfl rfl rfl hlayout hids
  | finish _ t r slot hcall =>
    have hstock := h.calls t
    have hslot := h.placed.calls t
    rw [hcall] at hstock hslot
    exact h.of_same w _ hplaced hrefl rfl (fun _ => rfl)
      (setCall_recorded w t .idle _ _ trivial) hstacks
      (oneMoreSpan w _ (Or.inr ⟨slot, h.placed.shape.decode_encode w.cache slot hslot, hstock⟩))
      hevents
  | enter _ t sp entry hsp hentry =>
    have hpushed : ∀ e ∈ entry :: w.spanStack t, e ∈ w.spanStack t ∨
        e.tracingId = disabledId ∨ e.actualId ∈ idsOf w.inserted := by
      intro e he
      rcases List.mem_cons.mp he with rfl | hold
      · exact Or.inr (h.entered w sp hsp e hentry)
      · exact Or.inl hold
    exact h.of_same w _ hplaced hrefl rfl (fun _ => rfl) hsame (oneStack w t _ hpushed)
      (sameSpans w) hevents
  | exit _ t =>
    exact h.of_same w _ hplaced hrefl rfl (fun _ => rfl) hsame
      (oneStack w t _ fun e he => Or.inl (List.mem_of_mem_tail he)) (sameSpans w) hevents
  | event _ call t msg htop hparent hissued =>
    refine h.of_same w _ hplaced hrefl rfl (fun _ => rfl) hsame hstacks (sameSpans w)
      (fun e he => ?_)
    rcases List.mem_append.mp he with hold | hnew
    · exact Or.inl hold
    · rw [List.mem_singleton.mp hnew]
      exact Or.inr (h.event w call t msg.parentActualId htop hparent hissued)
  | closeDisabled t n now sp hsp =>
    exact h.of_same w _ hplaced hrefl rfl (fun _ => rfl) hsame hstacks (hclosed n) hevents
  | close t n now sp slot c' _ _ _ hlayout _ hids =>
    exact h.of_same w _ hplaced hlayout rfl hids hsame hstacks (hclosed n) hevents

/-! ## Every run -/

/-- INTERNAL: following parents from entry `k` of the log meets entries inserted earlier and
ends at a root. -/
inductive EndsAtRoot (log : List (Opening × SpanRecord)) : ℕ → Prop
  | root (k : ℕ) (o : Opening) (r : SpanRecord) (hk : log[k]? = some (o, r))
      (hparent : r.parentId = none) (hroot : o.attrs.parent = .root) : EndsAtRoot log k
  | child (k j : ℕ) (o o' : Opening) (r r' : SpanRecord) (hk : log[k]? = some (o, r))
      (hj : log[j]? = some (o', r')) (hlt : j < k) (hparent : r.parentId = some r'.id)
      (hchain : EndsAtRoot log j) : EndsAtRoot log k

omit [DecidableEq T] in
/-- INTERNAL: the parent of an entry is an earlier one. -/
theorem Recorded.parent (w : World T) (h : Recorded w) (k : ℕ) (o : Opening) (r : SpanRecord)
    (p : ℕ) (hk : w.inserted[k]? = some (o, r)) (hp : r.parentId = some p) :
    ∃ j < k, ∃ o' r', w.inserted[j]? = some (o', r') ∧ r'.id = p := by
  obtain ⟨hrooted, hparent⟩ := h.log k o r hk
  have hmem := hrooted.child p (by rw [← hparent, hp])
  obtain ⟨e, he, hid⟩ := List.mem_map.mp hmem
  obtain ⟨j, hj⟩ := List.mem_iff_getElem?.mp he
  have hlt : j < k := by
    have hlen := (List.getElem?_eq_some_iff.mp hj).1
    rw [List.length_take] at hlen
    omega
  rw [List.getElem?_take_of_lt hlt] at hj
  exact ⟨j, hlt, e.1, e.2, hj, hid⟩

omit [DecidableEq T] in
/-- INTERNAL: every chain of parents ends at a root. -/
theorem Recorded.endsAtRoot (w : World T) (h : Recorded w) (k : ℕ) (hk : k < w.inserted.length) :
    EndsAtRoot w.inserted k := by
  -- a parent was inserted earlier, so the position decreases
  induction k using Nat.strong_induction_on with
  | _ k ih =>
    have hget := List.getElem?_eq_getElem hk
    generalize w.inserted[k] = e at hget
    obtain ⟨o, r⟩ := e
    cases hp : r.parentId with
    | none =>
      obtain ⟨hrooted, hparent⟩ := h.log k o r hget
      exact .root k o r hget hp (hrooted.root (by rw [← hparent, hp])).1
    | some p =>
      obtain ⟨j, hlt, o', r', hj, rfl⟩ := h.parent w k o r p hget hp
      exact .child k j o o' r r' hget hj hlt hp
        (ih j hlt (List.getElem?_eq_some_iff.mp hj).1)

/-! ## Disabled subtrees -/

/-- INTERNAL: no recorded span or event hid a disabled one behind an explicit parent. -/
def Heeded (w : World T) : Prop :=
  (∀ e ∈ w.inserted, ¬ Overrides e.1.attrs.parent e.1.top) ∧
  ∀ e ∈ w.events, ¬ EventOverrides e.1

/-- INTERNAL: a call about to insert its record into a shard with room is not that of a span
that hides a disabled top.
SRCLINE: cache.rs:385-402, cache.rs:433-446 -/
def CallHeedsTop (w : World T) : Call → Prop
  | .picked o _ shard =>
    (∃ lane ∈ w.cache.inFlight[shard]?, lane.slab.len < w.cache.shardCapacity) →
      ¬ Overrides o.attrs.parent o.top
  | _ => True

/-- INTERNAL: a step does not record what names an enabled parent over a disabled top.
SRCLINE: cache.rs:385-402, cache.rs:433-446, cache.rs:476-485 -/
def HeedsTop (w : World T) : CacheStep T → Prop
  | .insert t _ => CallHeedsTop w (w.call t)
  | .event t (some n) _ _ _ =>
    ∀ sp ∈ w.spans[n]?, sp.tracingId ≠ disabledId → ¬ TopDisabled (w.stackTop t)
  | _ => True

omit [DecidableEq T] in
/-- INTERNAL: what was recorded stays as it was. -/
theorem heeded_congr (w w' : World T) (hinserted : w'.inserted = w.inserted)
    (hevents : w'.events = w.events) : Heeded w' ↔ Heeded w := by
  unfold Heeded
  rw [hinserted, hevents]

/-- INTERNAL: an insertion records a span when the shard has room. -/
theorem insert_heeded (w : World T) (h : Placed w) (t : T) (o : Opening) (r : SpanRecord)
    (shard slabIdx : ℕ) (hcall : w.call t = .picked o r shard) :
    Heeded (w.insert t o r shard slabIdx) ↔ Heeded w ∧ HeedsTop w (.insert t slabIdx) := by
  have hshard : shard < w.cache.inFlight.length := by
    have hrange := h.calls t
    rw [hcall] at hrange
    exact hrange
  have hlane := List.getElem?_eq_getElem hshard
  simp only [HeedsTop, CallHeedsTop, hcall, hlane, Option.mem_def, Option.some.injEq, exists_eq_left']
  by_cases hroom : w.cache.shardCapacity ≤ (w.cache.inFlight[shard]).slab.len
  · have hfull : w.cache.insertRecord shard slabIdx r = .disabled := by
      simp only [SpanCache.insertRecord, hlane, if_pos hroom]
    have hsame : Heeded (w.insert t o r shard slabIdx) ↔ Heeded w := by
      apply heeded_congr
      · simp only [World.insert, hfull, World.reject, World.giveOut, World.setCall]
      · simp only [World.insert, hfull, World.reject, World.giveOut, World.setCall]
    simp [hsame, Nat.not_lt_of_le hroom]
  · have hadded : ∃ c, w.cache.insertRecord shard slabIdx r = .value c := by
      simp only [SpanCache.insertRecord, hlane, if_neg hroom]
      exact ⟨_, rfl⟩
    obtain ⟨c, hins⟩ := hadded
    have hafter : Heeded (w.insert t o r shard slabIdx) ↔
        Heeded w ∧ ¬ Overrides o.attrs.parent o.top := by
      simp only [Heeded, World.insert, hins, World.setCall, List.mem_append, List.mem_singleton]
      constructor
      · rintro ⟨hspans, hevents⟩
        exact ⟨⟨fun e he => hspans e (Or.inl he), hevents⟩, hspans (o, r) (Or.inr rfl)⟩
      · rintro ⟨⟨hspans, hevents⟩, hnew⟩
        refine ⟨fun e he => ?_, hevents⟩
        rcases he with hold | rfl
        · exact hspans e hold
        · exact hnew
    rw [hafter]
    simp [Nat.lt_of_not_le hroom]

/-- INTERNAL: an event is recorded when the parent it names is enabled. -/
theorem event_heeded (w : World T) (h : Placed w) (t : T) (parent : Option ℕ)
    (record : EventRecord)
    (hissued : ∀ id, parent = some id → ∃ sp ∈ w.spans, sp.tracingId = id) :
    Heeded (w.event t parent record) ↔
      Heeded w ∧ ¬ EventOverrides { parent := parent, top := w.stackTop t } := by
  have haddressed : ∀ id, parent = some id → Addressed w.cache id := by
    intro id hid
    obtain ⟨sp, hsp, rfl⟩ := hissued id hid
    exact h.addressed w sp hsp
  cases hparent : w.cache.eventParent parent (w.stackTop t) with
  | value p =>
    simp only [Heeded, World.event, hparent, List.mem_append, List.mem_singleton]
    constructor
    · rintro ⟨hspans, hevents⟩
      exact ⟨⟨hspans, fun e he => hevents e (Or.inl he)⟩, hevents _ (Or.inr rfl)⟩
    · rintro ⟨⟨hspans, hevents⟩, hnew⟩
      refine ⟨hspans, fun e he => ?_⟩
      rcases he with hold | rfl
      · exact hevents e hold
      · exact hnew
  | disabled =>
    have hrefused : ¬ EventOverrides { parent := parent, top := w.stackTop t } := by
      cases hnamed : parent with
      | none => exact fun hover => hover
      | some id =>
        rw [hnamed] at hparent
        rcases eventParent_cases w.cache h.shape (w.stackTop t) id (haddressed id hnamed) with
          ⟨hdis, -⟩ | ⟨_, _, -, -, -, hvalue⟩
        · exact fun hover => hover.1 hdis
        · rw [hvalue] at hparent
          cases hparent
    have hsame : w.event t parent record = w := by
      simp only [World.event, hparent]
    rw [hsame]
    simp [hrefused]
  | panicked =>
    exact absurd hparent (eventParent_ne_panicked w.cache h.shape parent _ haddressed)

/-- INTERNAL: the steps of a call before and after the insertion record nothing. -/
theorem newSpan_heeded (w : World T) (t : T) (attrs : Attributes) :
    Heeded (w.newSpan t attrs) ↔ Heeded w := by
  unfold World.newSpan
  cases w.cache.resolveParent attrs (w.stackTop t) <;> exact heeded_congr _ _ rfl rfl

/-- INTERNAL: reserving an id changes no stack top. -/
theorem allocate_heeded (w : World T) (t : T) (o : Opening) (now : ℕ) :
    Heeded (w.allocate t o now) ↔ Heeded w := by
  unfold World.allocate
  cases (w.ids.ids.advance t).2 <;> exact heeded_congr _ _ rfl rfl

/-- INTERNAL: nor does picking a lane. -/
theorem pickShard_heeded (w : World T) (t : T) (o : Opening) (r : SpanRecord) :
    Heeded (w.pickShard t o r) ↔ Heeded w := by
  unfold World.pickShard
  split <;> exact heeded_congr _ _ rfl rfl

/-- INTERNAL: nor does publishing the id. -/
theorem store_heeded (w : World T) (t : T) (r : SpanRecord) (shard slabIdx : ℕ) :
    Heeded (w.store t r shard slabIdx) ↔ Heeded w := by
  unfold World.store
  cases w.cache.storeActualId shard slabIdx r.id <;> exact heeded_congr _ _ rfl rfl

/-- INTERNAL: nor does entering, for what is already recorded. -/
theorem enter_heeded (w : World T) (t : T) (id : ℕ) : Heeded (w.enter t id) ↔ Heeded w := by
  unfold World.enter
  cases w.cache.enteredSpan id <;> exact heeded_congr _ _ rfl rfl

/-- INTERNAL: nor does dropping a handle. -/
theorem tryClose_heeded (w : World T) (t : T) (id n now : ℕ) :
    Heeded ((w.tryClose t id now).markClosed n) ↔ Heeded w := by
  unfold World.tryClose
  cases w.cache.tryClose id now <;> exact heeded_congr _ _ rfl rfl

/-- INTERNAL: **a step loses it exactly when it records over a disabled top**. -/
theorem step_heeded (w : World T) (a : CacheStep T) (w' : World T) (h : Placed w)
    (hstep : w.step a = some w') : Heeded w' ↔ Heeded w ∧ HeedsTop w a := by
  cases a with
  | newSpan t parent metadata values =>
    simp only [World.step] at hstep
    split at hstep
    · obtain rfl := Option.some.inj hstep
      simp [newSpan_heeded, HeedsTop]
    · cases hstep
  | predicate t accepts =>
    simp only [World.step] at hstep
    split at hstep
    · obtain rfl := Option.some.inj hstep
      cases accepts with
      | true => simp [HeedsTop, heeded_congr w (w.setCall t _) rfl rfl]
      | false => simp [HeedsTop, heeded_congr w (w.reject t) rfl rfl]
    · cases hstep
  | allocate t now =>
    simp only [World.step] at hstep
    split at hstep
    · obtain rfl := Option.some.inj hstep
      simp [allocate_heeded, HeedsTop]
    · cases hstep
  | pickShard t =>
    simp only [World.step] at hstep
    split at hstep
    · obtain rfl := Option.some.inj hstep
      simp [pickShard_heeded, HeedsTop]
    · cases hstep
  | insert t slabIdx =>
    simp only [World.step] at hstep
    split at hstep
    · next o r shard hcall =>
      simp only [Option.ite_none_right_eq_some, Option.some.injEq] at hstep
      obtain ⟨-, rfl⟩ := hstep
      exact insert_heeded w h t o r shard slabIdx hcall
    · cases hstep
  | store t =>
    simp only [World.step] at hstep
    split at hstep
    · obtain rfl := Option.some.inj hstep
      simp [store_heeded, HeedsTop]
    · cases hstep
  | finish t =>
    simp only [World.step] at hstep
    split at hstep
    · obtain rfl := Option.some.inj hstep
      simp [HeedsTop, heeded_congr w (w.giveOut t _ _) rfl rfl]
    · cases hstep
  | enter t n =>
    simp only [World.step] at hstep
    split at hstep
    · obtain rfl := Option.some.inj hstep
      simp [enter_heeded, HeedsTop]
    · cases hstep
  | exit t =>
    simp only [World.step] at hstep
    split at hstep
    · obtain rfl := Option.some.inj hstep
      simp [HeedsTop, heeded_congr w (w.exit t) rfl rfl]
    · cases hstep
  | event t parent metadata values now =>
    cases parent with
    | none =>
      simp only [World.step] at hstep
      split at hstep
      · obtain rfl := Option.some.inj hstep
        rw [event_heeded w h t none _ fun id hid => by cases hid]
        simp [EventOverrides, HeedsTop]
      · cases hstep
    | some n =>
      simp only [World.step] at hstep
      split at hstep
      · next sp hcall hsp =>
        obtain rfl := Option.some.inj hstep
        rw [event_heeded w h t (some sp.tracingId) _ fun id hid =>
          ⟨sp, List.mem_of_getElem? hsp, Option.some.inj hid⟩]
        simp [EventOverrides, HeedsTop, hsp]
      · cases hstep
  | tryClose t n now =>
    simp only [World.step] at hstep
    split at hstep
    · obtain rfl := Option.some.inj hstep
      simp [tryClose_heeded, HeedsTop]
    · cases hstep

/-! ## The ancestors and the disabled subtrees of a run -/

/-- INTERNAL: a record without a parent was created as a root on an empty stack, any other
names the id of a record inserted earlier, and its chain of parents ends at a root. -/
def NothingDangles (w : World T) : Prop :=
  ∀ k o r, w.inserted[k]? = some (o, r) →
    (r.parentId = none → o.attrs.parent = .root ∧ o.top = none) ∧
    (∀ p, r.parentId = some p →
      ∃ j < k, ∃ o' r', w.inserted[j]? = some (o', r') ∧ r'.id = p) ∧
    EndsAtRoot w.inserted k

/-- INTERNAL: no span and no event created under a disabled span is recorded, and an event is
attached to a recorded span. -/
def DisabledStay (w : World T) : Prop :=
  (∀ e ∈ w.inserted, ¬ UnderDisabled e.1.attrs.parent e.1.top) ∧
  ∀ e ∈ w.events, (∃ r ∈ w.inserted, r.2.id = e.2.parentActualId) ∧ ¬ EventUnderDisabled e.1

omit [DecidableEq T] in
/-- INTERNAL: recorded parents leave no record dangling. -/
theorem Recorded.nothingDangles (w : World T) (h : Recorded w) : NothingDangles w := by
  intro k o r hk
  obtain ⟨hrooted, hparent⟩ := h.log k o r hk
  exact ⟨fun hnone => hrooted.root (by rw [← hparent, hnone]),
    fun p hp => h.parent w k o r p hk hp,
    h.endsAtRoot w k (List.getElem?_eq_some_iff.mp hk).1⟩

omit [DecidableEq T] in
/-- INTERNAL: the parent looked at is never disabled, so what is recorded under a disabled span
hid it. -/
theorem Recorded.disabledStay_iff (w : World T) (h : Recorded w) :
    DisabledStay w ↔ Heeded w := by
  have hspan : ∀ e ∈ w.inserted, ¬ ParentDisabled e.1.attrs.parent e.1.top := by
    intro e he
    obtain ⟨k, hk⟩ := List.mem_iff_getElem?.mp he
    exact (h.log k e.1 e.2 hk).1.enabled
  unfold DisabledStay Heeded
  apply and_congr
  · refine forall₂_congr fun e he => ?_
    rw [underDisabled_iff]
    simp [hspan e he]
  · refine forall₂_congr fun e he => ?_
    obtain ⟨hid, henabled⟩ := h.events e.1 e.2 he
    rw [eventUnderDisabled_iff]
    simp only [henabled, false_or, and_iff_right_iff_imp]
    exact fun _ => List.mem_map.mp hid

/-- CODE: cache.rs:368-450, cache.rs:471-540 — **no recorded span dangles, and disabled
subtrees stay disabled exactly when no step records over a disabled top**: in every run, a
record without a parent was created as an explicit root on an empty stack, any other names the
id of a record inserted earlier, and its ancestors are recorded up to a root; and neither a
span nor an event created under a disabled span is recorded exactly when no step of the run
inserts, or takes an event, whose explicit parent is enabled while the top of its thread's
stack was disabled. -/
theorem recorded_spans_rooted (cache : SpanCache) (capacity : ℕ) (config : CacheConfig)
    (hcache : SpanCache.withConfig capacity config = some cache) (key : ℕ) (keys : T → ℕ)
    (steps : List (CacheStep T)) (w : World T)
    (hrun : run World.step (World.start cache key keys) steps = some w) :
    NothingDangles w ∧
    (DisabledStay w ↔ RunsUnder World.step HeedsTop (World.start cache key keys) steps) := by
  have hstep : ∀ (w : World T) (a : CacheStep T) (w' : World T), Recorded w →
      w.step a = some w' → Recorded w' := by
    intro w a w' h hstep
    exact h.move w w' a (step_moves w w' h.placed a hstep)
  have hstart : Recorded (World.start cache key keys) :=
    recorded_start capacity config cache hcache key keys
  have hrecorded := run_invariant World.step Recorded hstep _ steps w hstart hrun
  have hheeded : Heeded (World.start cache key keys) := by
    simp [Heeded, World.start]
  refine ⟨hrecorded.nothingDangles w, ?_⟩
  rw [hrecorded.disabledStay_iff w, runsUnder_iff_last World.step HeedsTop Recorded Heeded hstep
    (fun w a w' h hstep => step_heeded w a w' h.placed hstep) _ steps w hstart hrun]
  simp [hheeded]

/-- INTERNAL: decidable. -/
instance (top : Option StackedSpan) : Decidable (TopDisabled top) :=
  inferInstanceAs (Decidable (top.map StackedSpan.tracingId = some disabledId))

/-- INTERNAL: decidable. -/
instance : (parent : ParentKind) → (top : Option StackedSpan) → Decidable (Overrides parent top)
  | .contextual, _ => inferInstanceAs (Decidable False)
  | .root, _ => inferInstanceAs (Decidable False)
  | .explicit id, top => inferInstanceAs (Decidable (id ≠ disabledId ∧ TopDisabled top))

/-- INTERNAL: decidable, so that it can be tested on a run. -/
instance (w : World T) : (call : Call) → Decidable (CallHeedsTop w call)
  | .picked o _ shard => inferInstanceAs (Decidable
      ((∃ lane ∈ w.cache.inFlight[shard]?, lane.slab.len < w.cache.shardCapacity) →
        ¬ Overrides o.attrs.parent o.top))
  | .idle | .resolved _ | .enabled _ | .built .. | .inserted .. | .stored .. | .panicked =>
    inferInstanceAs (Decidable True)

/-- INTERNAL: decidable, so that it can be tested on a run. -/
instance (w : World T) : (a : CacheStep T) → Decidable (HeedsTop w a)
  | .insert t _ => inferInstanceAs (Decidable (CallHeedsTop w (w.call t)))
  | .event t (some n) _ _ _ => inferInstanceAs (Decidable
      (∀ sp ∈ w.spans[n]?, sp.tracingId ≠ disabledId → ¬ TopDisabled (w.stackTop t)))
  | .newSpan .. | .predicate .. | .allocate .. | .pickShard .. | .store .. | .finish ..
  | .enter .. | .exit .. | .event _ none _ _ _ | .tryClose .. => inferInstanceAs (Decidable True)

/-! Two slots and two threads: a child the predicate rejects, a grandchild and an event under
it, a span of the other thread under the root, and two more under that one when the shard is
full. -/

/-- INTERNAL: the callsite of the runs below. -/
def callsite : Metadata := { name := "span", target := "app", level := .info }

/-- INTERNAL: the run. -/
def rejections : List (CacheStep Bool) :=
  [.newSpan false .root callsite [], .predicate false true, .allocate false 0, .allocate false 0,
    .pickShard false, .insert false 0, .store false, .finish false, .enter false 0,
    .newSpan false .contextual callsite [], .predicate false false, .enter false 1,
    .newSpan false .contextual callsite [], .event false none callsite [] 1,
    .newSpan true (.span 0) callsite [], .predicate true true, .allocate true 2, .allocate true 2,
    .pickShard true, .insert true 1, .store true, .finish true,
    .newSpan true (.span 3) callsite [], .predicate true true, .allocate true 3, .pickShard true,
    .insert true 2, .newSpan true (.span 4) callsite [], .event true (some 3) callsite [] 4]

/-- CODE: cache.rs:368-450 — two records and one event come of this run, the second record is a
child of the first, and nothing under the disabled span is recorded. -/
theorem recorded_spans_rooted_rejections :
    ∃ w, run World.step (World.start twoSlots 0 fun _ => 0) rejections = some w ∧
      w.spans.map Returned.tracingId = [2, 1, 1, 3, 1, 1] ∧
      w.events.map (fun e => e.2.parentActualId) = [2048] ∧ EndsAtRoot w.inserted 1 ∧
      DisabledStay w := by
  have hboth := recorded_spans_rooted twoSlots 2 { laneCount := 1, pendingBatch := 8 } (by decide)
    0 (fun _ => 0) rejections _ rfl
  exact ⟨_, rfl, rfl, rfl, (hboth.1 1 _ _ rfl).2.2, hboth.2.mpr (by decide)⟩

/-- CODE: cache.rs:385-402, cache.rs:476-485 — a thread enters a span the predicate refused, and
names the enabled one it entered before as the explicit parent of another span and of an event:
both are recorded. -/
theorem disabled_top_overridden :
    ∃ w, run World.step (World.start twoSlots 0 fun _ => 0)
        [.newSpan false .root callsite [], .predicate false true, .allocate false 0,
          .allocate false 0, .pickShard false, .insert false 0, .store false, .finish false,
          .enter false 0, .newSpan false .contextual callsite [], .predicate false false,
          .enter false 1, .newSpan false (.span 0) callsite [], .predicate false true,
          .allocate false 1, .pickShard false, .insert false 1, .store false, .finish false,
          .event false (some 0) callsite [] 2] = some w ∧
      (w.inserted.map fun e => (e.2.id, e.2.parentId)) = [(1024, none), (1025, some 1024)] ∧
      (w.events.map fun e => e.2.parentActualId) = [1024] ∧
      (w.inserted.map fun e => e.1.top.map StackedSpan.tracingId) = [none, some disabledId] ∧
      ¬ DisabledStay w := by
  refine ⟨_, rfl, rfl, rfl, rfl, fun hstay => ?_⟩
  exact hstay.1 _ (List.mem_cons_of_mem _ (List.mem_singleton.mpr rfl)) (Or.inr rfl)

end TracingConsole.Analysis
