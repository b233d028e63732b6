import TracingConsole.Analysis.CacheMoves
import TracingConsole.Analysis.UniqueIds
import TracingConsole.Library.Tenancy

/-!
# The ids of records are distinct

The cache takes an id from the allocator of `UniqueIds` for each record it builds.  The
records of the threads and of the ids returned are tenants of the ids: while the ids last,
an id just allocated is vacant, so no two of them share one (`Numbered`).
-/

set_option autoImplicit false

namespace TracingConsole.Analysis

open TracingConsole.Library TracingConsole.Model

variable {T : Type} [DecidableEq T]

/-- INTERNAL: the id of the record a `new_span` call has built.
SRCLINE: cache.rs:412-424 -/
def builtId : Call → Option (ℕ × Unit)
  | .built _ r => some (r.id, ())
  | .picked _ r _ => some (r.id, ())
  | .inserted r _ _ => some (r.id, ())
  | .stored r _ _ => some (r.id, ())
  | _ => none

/-- INTERNAL: the id of the record behind an id returned. -/
def returnedId (sp : Returned) : Option (ℕ × Unit) := sp.record.map fun r => (r.id, ())

/-- INTERNAL: the ids allocated. -/
def allocated (a : Allocation T) (id : ℕ) : Option Unit :=
  if id ∈ a.returned.map Prod.snd then some () else none

/-- INTERNAL: threads and ids returned as tenants of the ids allocated. -/
def numbering (w : World T) : Tenancy (T ⊕ ℕ) ℕ Unit where
  holds := perOwner builtId returnedId w
  memory := allocated w.ids

/-- INTERNAL: the ids come from a run of the allocator, and while they last no two records
share one. -/
structure Numbered (w : World T) : Prop where
  schedule : ∃ threads, w.ids = Allocation.interleave threads
  sound : w.ids.reserved < u64Size → (numbering w).Sound

/-- INTERNAL: no record has an id at the start. -/
theorem numbered_start (c : SpanCache) (key : ℕ) (keys : T → ℕ) :
    Numbered (World.start c key keys) := by
  refine ⟨⟨[], rfl⟩, fun _ => ?_⟩
  have hnone : perOwner builtId returnedId (World.start c key keys) = fun _ => none := by
    funext o
    cases o with
    | inl t => rfl
    | inr n => rfl
  rw [numbering, hnone]
  exact Tenancy.sound_empty _

omit [DecidableEq T] in
/-- INTERNAL: the records and the ids are as they were. -/
theorem Numbered.of_same [DecidableEq T] (w w' : World T) (h : Numbered w) (hids : w'.ids = w.ids)
    (howner : perOwner builtId returnedId w' = perOwner builtId returnedId w) : Numbered w' := by
  refine ⟨by rw [hids]; exact h.schedule, fun hlast => ?_⟩
  rw [hids] at hlast
  rw [numbering, howner, hids]
  exact h.sound hlast

/-- INTERNAL: an allocation step that returns nothing. -/
theorem allocated_of_none (a : Allocation T) (t : T) (hid : (a.ids.advance t).2 = none) :
    allocated (a.advance t) = allocated a := by
  have hreturned : (a.advance t).returned = a.returned := by
    unfold Allocation.advance
    split
    · next ids id heq =>
      rw [heq] at hid
      cases hid
    · rfl
  funext id
  rw [allocated, allocated, hreturned]

/-- INTERNAL: while the ids last, the id an allocation returns was vacant. -/
theorem allocated_of_some (a : Allocation T) (t : T) (id : ℕ)
    (hid : (a.ids.advance t).2 = some id) (hrun : ∃ threads, a = Allocation.interleave threads)
    (hlast : (a.advance t).reserved < u64Size) :
    allocated a id = none ∧
      allocated (a.advance t) = Function.update (allocated a) id (some ()) := by
  have hreturned : (a.advance t).returned = a.returned ++ [(t, id)] := by
    unfold Allocation.advance
    split
    · next ids id' heq =>
      rw [heq] at hid
      rw [Option.some.inj hid]
    · next ids heq =>
      rw [heq] at hid
      cases hid
  have hfresh : id ∉ a.returned.map Prod.snd := by
    obtain ⟨threads, rfl⟩ := hrun
    have hstep : (Allocation.interleave threads).advance t =
        Allocation.interleave (threads ++ [t]) := by
      simp [Allocation.interleave]
    rw [hstep] at hlast hreturned
    have hdistinct := (interleave_sound (threads ++ [t]) hlast).2.distinct
    change ((Allocation.interleave (threads ++ [t])).returned.map Prod.snd).Nodup at hdistinct
    rw [hreturned, List.map_append, List.nodup_append] at hdistinct
    intro hmem
    exact hdistinct.2.2 id hmem id (by simp) rfl
  refine ⟨if_neg hfresh, ?_⟩
  funext i
  rw [allocated, hreturned, Function.update_apply, List.map_append, List.map_singleton]
  simp only [List.mem_append, List.mem_singleton]
  by_cases hi : i = id
  · simp [hi]
  · simp only [hi, or_false, if_false]
    rfl

/-- INTERNAL: one more id is asked for. -/
theorem interleave_advance (a : Allocation T) (t : T)
    (hrun : ∃ threads, a = Allocation.interleave threads) :
    ∃ threads, a.advance t = Allocation.interleave threads := by
  obtain ⟨threads, rfl⟩ := hrun
  exact ⟨threads ++ [t], by simp [Allocation.interleave]⟩

/-- INTERNAL: a close leaves every id with the one who holds it. -/
theorem perOwner_closed (w : World T) (n : ℕ) (sp : Returned) (hsp : w.spans[n]? = some sp) :
    perOwner builtId returnedId (w.markClosed n) = perOwner builtId returnedId w := by
  have hn := (List.getElem?_eq_some_iff.mp hsp).1
  have howner : returnedId sp = perOwner builtId returnedId w (.inr n) := by
    rw [perOwner, hsp, Option.bind_some]
  rw [perOwner_markClosed _ _ w n (returnedId sp) (fun _ hmem => by
    rw [hsp] at hmem; cases hmem; rfl) hn, howner]
  exact Function.update_eq_self _ _

/-- INTERNAL: **moves keep the ids of records distinct**. -/
theorem Numbered.move (w w' : World T) (h : Numbered w) (a : CacheStep T)
    (hmove : Move w a w') : Numbered w' := by
  cases hmove with
  | drop => exact h
  | reject _ t hcall =>
    refine ⟨h.schedule, fun hlast => ?_⟩
    have hsound := (h.sound hlast).abandon _ (.inl t)
    have howner : perOwner builtId returnedId (w.reject t) =
        Function.update (perOwner builtId returnedId w) (.inl t) none := by
      have hnone : Function.update (perOwner builtId returnedId w) (.inl t) none
          (.inr w.spans.length) = none := by
        rw [Function.update_of_ne Sum.inr_ne_inl, perOwner_length]
      have hself := Function.update_eq_self (.inr w.spans.length)
        (Function.update (perOwner builtId returnedId w) (.inl t) none)
      rw [hnone] at hself
      rw [World.reject, perOwner_giveOut]
      exact hself
    rw [numbering, howner]
    exact hsound
  | resolve _ t o hcall =>
    exact h.of_same w _ rfl (perOwner_setCall_same _ _ w t _ (by rw [hcall]; rfl))
  | accept _ t o hcall =>
    exact h.of_same w _ rfl (perOwner_setCall_same _ _ w t _ (by rw [hcall]; rfl))
  | reserve _ t o hcall hid =>
    refine ⟨interleave_advance w.ids t h.schedule, fun hlast => ?_⟩
    have hsound := h.sound (lt_of_le_of_lt (reserved_advance w.ids t) hlast)
    have howner : perOwner builtId returnedId { w with ids := w.ids.advance t } =
        perOwner builtId returnedId w := perOwner_congr _ _ w _ rfl rfl
    have hmemory := allocated_of_none w.ids t hid
    rw [numbering, ← hmemory] at hsound
    rw [numbering, howner]
    exact hsound
  | build _ t o id now hcall hid =>
    refine ⟨interleave_advance w.ids t h.schedule, fun hlast => ?_⟩
    have hsound := h.sound (lt_of_le_of_lt (reserved_advance w.ids t) hlast)
    obtain ⟨hvacant, hmemory⟩ := allocated_of_some w.ids t id hid h.schedule hlast
    have htake := hsound.take _ (.inl t) id () hvacant
    have howner : perOwner builtId returnedId ({ w with ids := w.ids.advance t }.setCall t
        (.built o (SpanCache.buildRecord o.attrs id o.parentActualId now))) =
        Function.update (perOwner builtId returnedId w) (.inl t) (some (id, ())) := by
      rw [perOwner_setCall, perOwner_congr _ _ w { w with ids := w.ids.advance t } rfl rfl]
      rfl
    rw [numbering, howner]
    rw [numbering, ← hmemory] at htake
    exact htake
  | pick _ t o r shard key keys hcall =>
    refine h.of_same w _ rfl ?_
    rw [perOwner_setCall_same _ _ _ t _ (by rw [hcall]; rfl)]
    exact perOwner_congr _ _ w _ rfl rfl
  | insert _ t o r slot c' hcall =>
    refine h.of_same w _ rfl ?_
    rw [← perOwner_setCall_same builtId returnedId w t (.inserted r slot.1 slot.2)
      (by rw [hcall]; rfl)]
    exact perOwner_congr _ _ _ _ rfl rfl
  | store _ t r slot c' hcall =>
    refine h.of_same w _ rfl ?_
    rw [← perOwner_setCall_same builtId returnedId w t (.stored r slot.1 slot.2)
      (by rw [hcall]; rfl)]
    exact perOwner_congr _ _ _ _ rfl rfl
  | finish _ t r slot hcall =>
    refine ⟨h.schedule, fun hlast => ?_⟩
    have howns : (numbering w).holds (.inl t) = some (r.id, ()) := by
      show builtId (w.call t) = _
      rw [hcall]
      rfl
    have htransfer := (h.sound hlast).transfer _ (.inl t) (.inr w.spans.length) r.id () howns
    rw [numbering, perOwner_giveOut]
    exact htransfer
  | enter _ t sp entry => exact h.of_same w _ rfl (perOwner_congr _ _ w _ rfl rfl)
  | exit _ t => exact h.of_same w _ rfl (perOwner_congr _ _ w _ rfl rfl)
  | event _ call t msg => exact h.of_same w _ rfl (perOwner_congr _ _ w _ rfl rfl)
  | closeDisabled t n now sp hsp =>
    exact h.of_same w _ rfl (perOwner_closed w n sp hsp)
  | close t n now sp slot c' hsp =>
    refine h.of_same w _ rfl ?_
    rw [← perOwner_closed w n sp hsp]
    exact perOwner_congr _ _ _ _ rfl rfl

end TracingConsole.Analysis
