import TracingConsole.Analysis.CacheMoves

/-!
# Records are those of the calls that opened them

A record is built by one call of `new_span` from what the call was given, goes into the slab, and
the id of its slot is returned.  Every record on this way is the one its call has built, and what
was returned was inserted.
-/

set_option autoImplicit false

namespace TracingConsole.Analysis

open TracingConsole.Library TracingConsole.Model

variable {T : Type} [DecidableEq T]

/-- INTERNAL: the record is the one that the call of `new_span` builds.
SRCLINE: cache.rs:409-424 -/
def OpenedAs (o : Opening) (r : SpanRecord) : Prop :=
  ∃ id now, r = SpanCache.buildRecord o.attrs id o.parentActualId now

/-- INTERNAL: the record a call has built and not inserted yet.
SRCLINE: cache.rs:409-432 -/
def builtBy : Call → Option (Opening × SpanRecord)
  | .built o r => some (o, r)
  | .picked o r _ => some (o, r)
  | _ => none

/-- INTERNAL: the record a call has inserted and not returned yet.
SRCLINE: cache.rs:433-450 -/
def insertedBy : Call → Option SpanRecord
  | .inserted r _ _ => some r
  | .stored r _ _ => some r
  | _ => none

/-- INTERNAL: **the invariant**: all records are those of their calls, and are in the log once they
are inserted. -/
structure Opened (w : World T) : Prop where
  calls : ∀ t x, builtBy (w.call t) = some x → OpenedAs x.1 x.2
  log : ∀ o r, (o, r) ∈ w.inserted → OpenedAs o r
  kept : ∀ t r, insertedBy (w.call t) = some r → ∃ o, (o, r) ∈ w.inserted
  spans : ∀ sp ∈ w.spans, ∀ r, sp.record = some r → ∃ o, (o, r) ∈ w.inserted

omit [DecidableEq T] in
/-- INTERNAL: nothing is opened at the start. -/
theorem opened_start (c : SpanCache) (key : ℕ) (keys : T → ℕ) :
    Opened (World.start c key keys) where
  calls _ _ h := by cases h
  log _ _ h := by cases h
  kept _ _ h := by cases h
  spans _ h := by cases h

omit [DecidableEq T] in
/-- INTERNAL: steps that insert nothing. -/
theorem Opened.of_same (w w' : World T) (h : Opened w)
    (hcalls : ∀ t, w'.call t = w.call t ∨
      (∀ x, builtBy (w'.call t) = some x → OpenedAs x.1 x.2) ∧
        ∀ r, insertedBy (w'.call t) = some r → ∃ o, (o, r) ∈ w.inserted)
    (hinserted : w'.inserted = w.inserted)
    (hspans : ∀ sp ∈ w'.spans, ∀ r, sp.record = some r → ∃ o, (o, r) ∈ w.inserted) :
    Opened w' where
  calls t x hx := by
    cases hcalls t with
    | inl hsame => exact h.calls t x (by rw [← hsame]; exact hx)
    | inr hnew => exact hnew.1 x hx
  log o r hin := h.log o r (by rw [← hinserted]; exact hin)
  kept t r hr := by
    rw [hinserted]
    cases hcalls t with
    | inl hsame => exact h.kept t r (by rw [← hsame]; exact hr)
    | inr hnew => exact hnew.2 r hr
  spans sp hsp r hr := by
    rw [hinserted]
    exact hspans sp hsp r hr

/-- INTERNAL: one thread goes on to another call, and the others stay where they are. -/
theorem call_update (w : World T) (t : T) (call : Call) (u : T)
    {P : Call → Prop} (hcall : P call) :
    Function.update w.call t call u = w.call u ∨ P (Function.update w.call t call u) := by
  by_cases hu : u = t
  · subst hu
    rw [Function.update_self]
    exact Or.inr hcall
  · rw [Function.update_of_ne hu]
    exact Or.inl rfl

/-- INTERNAL: a thread goes on, with the record it had if it has one. -/
theorem Opened.setCall (w w' : World T) (h : Opened w) (t : T) (call : Call)
    (hcall : w'.call = Function.update w.call t call)
    (hbuilt : ∀ x, builtBy call = some x → OpenedAs x.1 x.2)
    (hkept : ∀ r, insertedBy call = some r → ∃ o, (o, r) ∈ w.inserted)
    (hinserted : w'.inserted = w.inserted)
    (hspans : ∀ sp ∈ w'.spans, ∀ r, sp.record = some r → ∃ o, (o, r) ∈ w.inserted) :
    Opened w' := by
  refine h.of_same w w' (fun u => ?_) hinserted hspans
  rw [hcall]
  exact call_update w t call u (P := fun call => (∀ x, builtBy call = some x → OpenedAs x.1 x.2) ∧
    ∀ r, insertedBy call = some r → ∃ o, (o, r) ∈ w.inserted) ⟨hbuilt, hkept⟩

omit [DecidableEq T] in
/-- INTERNAL: one more id is returned. -/
theorem Opened.returned (w : World T) (h : Opened w) (new : Returned)
    (hnew : ∀ r, new.record = some r → ∃ o, (o, r) ∈ w.inserted) :
    ∀ sp ∈ w.spans ++ [new], ∀ r, sp.record = some r → ∃ o, (o, r) ∈ w.inserted := by
  intro sp hsp r hr
  cases List.mem_append.mp hsp with
  | inl hold => exact h.spans sp hold r hr
  | inr hlast =>
    rw [List.mem_singleton.mp hlast] at hr
    exact hnew r hr

omit [DecidableEq T] in
/-- INTERNAL: a close leaves the record of an id alone. -/
theorem Opened.marked (w w' : World T) (h : Opened w) (n : ℕ)
    (hspans : w'.spans = (w.markClosed n).spans) :
    ∀ sp ∈ w'.spans, ∀ r, sp.record = some r → ∃ o, (o, r) ∈ w.inserted := by
  intro sp hsp r hr
  rw [hspans] at hsp
  obtain ⟨old, hold, -, hrecord⟩ := mem_modify_closed w.spans n sp hsp
  exact h.spans old hold r (by rw [hrecord, hr])

/-- INTERNAL: **a step of the cache keeps the invariant**.
SRCLINE: cache.rs:368-567 -/
theorem Opened.move (w w' : World T) (h : Opened w) (a : CacheStep T) (hmove : Move w a w') :
    Opened w' := by
  have hidle (call : Call) (hbuilt : builtBy call = none) (hkept : insertedBy call = none) :
      (∀ x, builtBy call = some x → OpenedAs x.1 x.2) ∧
        ∀ r, insertedBy call = some r → ∃ o, (o, r) ∈ w.inserted := by
    simp [hbuilt, hkept]
  have hstays (w' : World T) (hcall : w'.call = w.call) (hinserted : w'.inserted = w.inserted)
      (hspans : w'.spans = w.spans) : Opened w' :=
    h.of_same w w' (fun t => Or.inl (by rw [hcall])) hinserted (by rw [hspans]; exact h.spans)
  cases hmove with
  | drop => exact h
  | reject _ t hcall =>
    exact h.setCall w _ t .idle rfl (hidle _ rfl rfl).1 (hidle _ rfl rfl).2 rfl
      (h.returned w _ fun r hr => by cases hr)
  | resolve _ t o =>
    exact h.setCall w _ t (.resolved o) rfl (hidle _ rfl rfl).1 (hidle _ rfl rfl).2 rfl h.spans
  | accept _ t o =>
    exact h.setCall w _ t (.enabled o) rfl (hidle _ rfl rfl).1 (hidle _ rfl rfl).2 rfl h.spans
  | reserve _ t o => exact hstays _ rfl rfl rfl
  | build _ t o id now =>
    refine h.setCall w _ t (.built o _) rfl (fun x hx => ?_) (fun r hr => by cases hr) rfl h.spans
    cases hx
    exact ⟨id, now, rfl⟩
  | pick _ t o r shard key keys hcall =>
    refine h.setCall w _ t (.picked o r shard) rfl (fun x hx => ?_) (fun r hr => by cases hr) rfl
      h.spans
    exact h.calls t x (by rw [hcall]; exact hx)
  | insert _ t o r slot c' hcall =>
    have hopened : OpenedAs o r := h.calls t (o, r) (by rw [hcall]; rfl)
    refine ⟨fun u x hx => ?_, fun o' r' hin => ?_, fun u r' hr => ?_, fun sp hsp r' hr => ?_⟩
    · cases call_update w t (.inserted r slot.1 slot.2) u
        (P := fun call => builtBy call = none) rfl with
      | inl hsame => exact h.calls u x (by rw [← hsame]; exact hx)
      | inr hnone =>
        have hx' : builtBy (Function.update w.call t (.inserted r slot.1 slot.2) u) = some x := hx
        rw [hnone] at hx'
        cases hx'
    · cases List.mem_append.mp hin with
      | inl hold => exact h.log o' r' hold
      | inr hnew =>
        cases List.mem_singleton.mp hnew
        exact hopened
    · cases call_update w t (.inserted r slot.1 slot.2) u
        (P := fun call => insertedBy call = some r) rfl with
      | inl hsame =>
        obtain ⟨o', hin⟩ := h.kept u r' (by rw [← hsame]; exact hr)
        exact ⟨o', List.mem_append_left _ hin⟩
      | inr hmine =>
        have hr' : insertedBy (Function.update w.call t (.inserted r slot.1 slot.2) u) =
            some r' := hr
        rw [hmine] at hr'
        cases hr'
        exact ⟨o, List.mem_append_right _ (List.mem_singleton.mpr rfl)⟩
    · obtain ⟨o', hin⟩ := h.spans sp hsp r' hr
      exact ⟨o', List.mem_append_left _ hin⟩
  | store _ t r slot c' hcall =>
    refine h.setCall w _ t (.stored r slot.1 slot.2) rfl (fun x hx => by cases hx) (fun r' hr => ?_)
      rfl h.spans
    exact h.kept t r' (by rw [hcall]; exact hr)
  | finish _ t r slot hcall =>
    refine h.setCall w _ t .idle rfl (hidle _ rfl rfl).1 (hidle _ rfl rfl).2 rfl
      (h.returned w _ fun r' hr => ?_)
    exact h.kept t r' (by rw [hcall]; exact hr)
  | enter _ t sp entry => exact hstays _ rfl rfl rfl
  | exit _ t => exact hstays _ rfl rfl rfl
  | event _ call t msg => exact hstays _ rfl rfl rfl
  | closeDisabled t n now sp =>
    exact h.of_same w _ (fun _ => Or.inl rfl) rfl (h.marked w _ n rfl)
  | close t n now sp slot c' =>
    exact h.of_same w _ (fun _ => Or.inl rfl) rfl (h.marked w _ n rfl)

end TracingConsole.Analysis
