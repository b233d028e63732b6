import TracingConsole.Analysis.OpenedRecords
import TracingConsole.Analysis.Sidecar
import TracingConsole.Library.Since
import TracingConsole.Model.LateFields
import TracingConsole.Model.WireRecord

/-!
# Which fields a span is delivered with

A call of `record` finds its span by the address in its id, so it may only hit the span it means
as long as that one is open.  Then the slot of an open id holds its record with the fields of all
calls so far (`FieldsHeld`), whoever made them and whatever the other threads did in between, and
the record leaves with them when the id is closed.
-/

set_option autoImplicit false

namespace TracingConsole.Analysis

open TracingConsole.Library TracingConsole.Model

variable {T : Type} [DecidableEq T]

/-! ## Fields -/

/-- INTERNAL: the fields after some values. -/
def setAll (fields : FieldList) (values : List (String × FieldValue)) : FieldList :=
  values.foldl (fun fields v => fields.set v.1 v.2) fields

/-- INTERNAL: fields are set one after the other. -/
theorem setAll_append (fields : FieldList) (l₁ l₂ : List (String × FieldValue)) :
    setAll fields (l₁ ++ l₂) = setAll (setAll fields l₁) l₂ := List.foldl_append

/-- INTERNAL: SRCLINE: record.rs:203-214 -/
theorem fieldGet_set (fields : FieldList) (name other : String) (value : FieldValue) :
    fieldGet (fields.set name value) other =
      if name = other then some value else fieldGet fields other := by
  induction fields with
  | nil => by_cases h : name = other <;> simp [FieldList.set, fieldGet, h]
  | cons kv rest ih =>
    obtain ⟨k, old⟩ := kv
    simp only [fieldGet] at ih
    by_cases hk : k = name
    · by_cases h : name = other <;> simp [FieldList.set, fieldGet, hk, h]
    · by_cases h : k = other
      · have hother : ¬ name = k := fun heq => hk heq.symm
        subst h
        simp [FieldList.set, fieldGet, hk, hother]
      · simp [FieldList.set, fieldGet, hk, h, ih]

/-- INTERNAL: a name that is there stays where it is, a new one comes last.
SRCLINE: record.rs:203-214 -/
theorem names_set (fields : FieldList) (name : String) (value : FieldValue) :
    (fields.set name value).map Prod.fst =
      if name ∈ fields.map Prod.fst then fields.map Prod.fst
      else fields.map Prod.fst ++ [name] := by
  induction fields with
  | nil => rfl
  | cons kv rest ih =>
    obtain ⟨k, old⟩ := kv
    by_cases hk : k = name
    · simp [FieldList.set, hk]
    · simp only [FieldList.set, if_neg hk, List.map_cons, ih, List.mem_cons,
        show ¬ name = k from fun heq => hk heq.symm, false_or]
      split <;> simp

/-- INTERNAL: **each field has the last value it was given, and no name comes twice**. -/
theorem setAll_spec (fields : FieldList) (values : List (String × FieldValue)) :
    ((fields.map Prod.fst).Nodup → ((setAll fields values).map Prod.fst).Nodup) ∧
      ∀ name, fieldGet (setAll fields values) name =
        ((values.reverse.find? fun v => v.1 = name).map Prod.snd).or (fieldGet fields name) := by
  induction values generalizing fields with
  | nil => exact ⟨fun h => h, fun name => rfl⟩
  | cons v values ih =>
    obtain ⟨hnodup, hget⟩ := ih (fields.set v.1 v.2)
    refine ⟨fun h => hnodup ?_, fun name => ?_⟩
    · rw [names_set]
      split
      · exact h
      · next hnew =>
        rw [List.nodup_append]
        exact ⟨h, List.nodup_singleton _, by rintro a ha b hb rfl; simp_all⟩
    · have hlast := hget name
      rw [fieldGet_set] at hlast
      rw [List.reverse_cons, List.find?_append]
      refine hlast.trans ?_
      cases values.reverse.find? fun v => v.1 = name with
      | some last => rfl
      | none => by_cases hname : v.1 = name <;> simp [hname]

/-- INTERNAL: a record with the values of some calls. -/
def withValues (r : SpanRecord) (values : List (String × FieldValue)) : SpanRecord :=
  { r with fields := setAll r.fields values }

/-! ## One call of `record` -/

/-- INTERNAL: it changes the record in the slot of its id, if there is one.
SRCLINE: cache.rs:452-467 -/
theorem record_spec (c : SpanCache) (h : Shape c) (id : ℕ) (values : List (String × FieldValue))
    (slot : ℕ × ℕ) (hdecode : c.decodeTracingId id = some slot) :
    ∃ c', c.record id values = .value c' ∧ Shape c' ∧ SameLayout c c' ∧
      (∀ s, recordAt c' s =
        if s = slot then (recordAt c s).map fun r => withValues r values else recordAt c s) ∧
      ∀ s, idAt c' s = idAt c s := by
  have hshard := h.decode_lt c id slot hdecode
  have hlane := List.getElem?_eq_getElem hshard
  have hmem := List.getElem_mem hshard
  generalize c.inFlight[slot.1] = lane at hlane hmem
  refine ⟨c.setLane slot.1
      { lane with slab := lane.slab.modify slot.2 fun r => withValues r values }, ?_,
    h.setLane c slot.1 _ (by rw [Slab.length_modify]; exact h.slots lane hmem) (h.sidecar lane hmem),
    sameLayout_setLane c slot.1 _, fun s => ?_, fun s => ?_⟩
  · simp only [SpanCache.record, hdecode, hlane]
    rfl
  · rw [recordAt_setLane c slot.1 _ s hshard, Slab.get_modify]
    by_cases hs : s.1 = slot.1
    · have hread : recordAt c s = lane.slab.get s.2 := by
        rw [recordAt, hs, hlane, Option.bind_some]
      by_cases hi : s.2 = slot.2
      · rw [if_pos hs, if_pos hi, if_pos (Prod.ext hs hi), hread]
      · rw [if_pos hs, if_neg hi, if_neg fun heq => hi (congrArg Prod.snd heq), hread]
    · rw [if_neg hs, if_neg fun heq => hs (congrArg Prod.fst heq)]
  · rw [idAt_setLane c slot.1 _ s hshard]
    by_cases hs : s.1 = slot.1
    · rw [if_pos hs, idAt, hs, hlane, Option.bind_some]
    · rw [if_neg hs]

/-! ## Leases -/

/-- INTERNAL: what a step does to the slots: nothing, or a thread takes one, a thread passes it on
to the id it returns, or an id leaves it with its record. -/
inductive Lease (w w' : World T) : Prop
  | same (hholding : holding true w' = holding true w)
      (hmemory : recordAt w'.cache = recordAt w.cache)
      (hgrows : w.spans.length ≤ w'.spans.length)
      (hspans : ∀ (n : ℕ) (sp : Returned) r, w'.spans[n]? = some sp → sp.record = some r → w.spans[n]? = some sp)
      (hclosed : w'.closed = w.closed)
  | taken (t : T) (slot : ℕ × ℕ) (r : SpanRecord) (hvacant : recordAt w.cache slot = none)
      (hholding : holding true w' = Function.update (holding true w) (.inl t) (some (slot, r)))
      (hmemory : recordAt w'.cache = Function.update (recordAt w.cache) slot (some r))
      (hspans : w'.spans = w.spans) (hclosed : w'.closed = w.closed)
  | passed (t : T) (slot : ℕ × ℕ) (r : SpanRecord) (new : Returned)
      (howner : holding true w (.inl t) = some (slot, r))
      (hholding : holding true w' = Function.update
        (Function.update (holding true w) (.inl t) none) (.inr w.spans.length) (some (slot, r)))
      (hmemory : recordAt w'.cache = recordAt w.cache) (hopen : new.closed = false)
      (hspans : w'.spans = w.spans ++ [new]) (hclosed : w'.closed = w.closed)
  | left (t : T) (n now : ℕ) (sp : Returned) (slot : ℕ × ℕ) (r : SpanRecord)
      (hsp : w.spans[n]? = some sp) (hrecord : sp.record = some r)
      (howner : holding true w (.inr n) = some (slot, r))
      (hholding : holding true w' = Function.update (holding true w) (.inr n) none)
      (hmemory : recordAt w'.cache = Function.update (recordAt w.cache) slot none)
      (hspans : w'.spans = (w.markClosed n).spans)
      (hclosed : w'.closed = w.closed ++ handedOver t now (recordAt w.cache slot))

/-- INTERNAL: SRCLINE: cache.rs:425-446 -/
theorem lease_insert (w w' : World T) (t : T) (r : SpanRecord) (slot : ℕ × ℕ)
    (hcall : w'.call = (w.setCall t (.inserted r slot.1 slot.2)).call)
    (hspans : w'.spans = w.spans) (hclosed : w'.closed = w.closed)
    (hlayout : SameLayout w.cache w'.cache) (hvacant : recordAt w.cache slot = none)
    (hrecord : ∀ s, recordAt w'.cache s = if s = slot then some r else recordAt w.cache s) :
    Lease w w' := by
  refine .taken t slot r hvacant ?_ (funext fun s => ?_) hspans hclosed
  · rw [holding_congr true (w.setCall t (.inserted r slot.1 slot.2)) w' hcall hspans
      (SameLayout.decode_eq w.cache w'.cache hlayout)]
    exact perOwner_setCall _ _ w t _
  · rw [Function.update_apply]
    exact hrecord s

/-- INTERNAL: the sidecar is no slot.
SRCLINE: cache.rs:447-449 -/
theorem lease_store (w w' : World T) (t : T) (r : SpanRecord) (slot : ℕ × ℕ)
    (hbefore : w.call t = .inserted r slot.1 slot.2)
    (hcall : w'.call = (w.setCall t (.stored r slot.1 slot.2)).call)
    (hspans : w'.spans = w.spans) (hclosed : w'.closed = w.closed)
    (hlayout : SameLayout w.cache w'.cache)
    (hrecord : ∀ s, recordAt w'.cache s = recordAt w.cache s) : Lease w w' := by
  refine .same ?_ (funext hrecord) (by rw [hspans]) (fun n sp r' hsp _ => ?_) hclosed
  · rw [holding_congr true (w.setCall t (.stored r slot.1 slot.2)) w' hcall hspans
      (SameLayout.decode_eq w.cache w'.cache hlayout)]
    exact holding_setCall_same true w t _ (by rw [hbefore]; rfl)
  · rw [← hspans]
    exact hsp

/-- INTERNAL: the id of a record is closed.
SRCLINE: cache.rs:542-567 -/
theorem lease_close (w w' : World T) (hplaced : Placed w) (t : T) (n now : ℕ) (sp : Returned)
    (slot : ℕ × ℕ) (hsp : w.spans[n]? = some sp)
    (hopen : sp.record.isSome → sp.closed = false)
    (hdecode : w.cache.decodeTracingId sp.tracingId = some slot)
    (hcall : w'.call = w.call) (hspans : w'.spans = (w.markClosed n).spans)
    (hclosed : w'.closed = w.closed ++ handedOver t now (recordAt w.cache slot))
    (hlayout : SameLayout w.cache w'.cache)
    (hrecord : ∀ s, recordAt w'.cache s = if s = slot then none else recordAt w.cache s) :
    Lease w w' := by
  have hissued := hplaced.spans sp (List.mem_of_getElem? hsp)
  obtain ⟨r, hr⟩ : ∃ r, sp.record = some r := by
    cases hr : sp.record with
    | some r => exact ⟨r, rfl⟩
    | none =>
      -- the disabled id is no address
      rw [Issued, hr] at hissued
      rw [hissued, SpanCache.decodeTracingId, if_pos rfl] at hdecode
      cases hdecode
  refine .left t n now sp slot r hsp hr ?_ ?_ (funext fun s => ?_) hspans hclosed
  · rw [holding, perOwner, hsp, Option.bind_some, heldById, hopen (by rw [hr]; rfl), hr]
    simp [hdecode]
  · rw [holding_congr true (w.markClosed n) w' hcall hspans
      (SameLayout.decode_eq w.cache w'.cache hlayout)]
    exact holding_markClosed true w n (List.getElem?_eq_some_iff.mp hsp).1
  · rw [Function.update_apply]
    exact hrecord s

/-- INTERNAL: **the leases of a step**, as long as no id is closed twice.
SRCLINE: cache.rs:368-567 -/
theorem move_lease (w w' : World T) (hplaced : Placed w) (a : CacheStep T)
    (honce : ClosesOnce w a) (hmove : Move w a w') : Lease w w' := by
  have hsame (w' : World T) (hholding : holding true w' = holding true w)
      (hcache : w'.cache = w.cache) (hspans : w'.spans = w.spans)
      (hclosed : w'.closed = w.closed) : Lease w w' :=
    .same hholding (by rw [hcache]) (by rw [hspans]) (fun n sp r hsp _ => by rw [← hspans]; exact hsp)
      hclosed
  cases hmove with
  | drop => exact hsame w rfl rfl rfl rfl
  | reject _ t hcall =>
    refine .same (holding_reject true w t hcall) rfl ?_ (fun n sp r hsp hr => ?_) rfl
    · show w.spans.length ≤ (w.spans ++ [_]).length
      simp
    · have hget : (w.spans ++ [{ tracingId := disabledId, record := none, closed := false }])[n]? =
          some sp := hsp
      rw [List.getElem?_append] at hget
      split at hget
      · exact hget
      · rw [List.getElem?_singleton] at hget
        split at hget
        · cases hget
          cases hr
        · cases hget
  | resolve _ t o hcall =>
    exact hsame _ (holding_setCall_same true w t _ (by rw [hcall]; rfl)) rfl rfl rfl
  | accept _ t o hcall =>
    exact hsame _ (holding_setCall_same true w t _ (by rw [hcall]; rfl)) rfl rfl rfl
  | reserve _ t o hcall => exact hsame _ (holding_congr true w _ rfl rfl fun _ => rfl) rfl rfl rfl
  | build _ t o id now hcall =>
    refine hsame _ ?_ rfl rfl rfl
    rw [← holding_setCall_same true w t (.built o _) (by rw [hcall]; rfl)]
    exact holding_congr true _ _ rfl rfl fun _ => rfl
  | pick _ t o r shard key keys hcall =>
    refine hsame _ ?_ rfl rfl rfl
    rw [← holding_setCall_same true w t (.picked o r shard) (by rw [hcall]; rfl)]
    exact holding_congr true _ _ rfl rfl fun _ => rfl
  | insert _ t o r slot c' hcall hshape hlayout hslot hvacant hrecord hids =>
    exact lease_insert w _ t r slot rfl rfl rfl hlayout hvacant hrecord
  | store _ t r slot c' hcall hshape hlayout hrecord hids =>
    exact lease_store w _ t r slot hcall rfl rfl rfl hlayout hrecord
  | finish _ t r slot hcall =>
    have hslot : InRange w.cache slot := by
      have hrange := hplaced.calls t
      rw [hcall] at hrange
      exact hrange
    have hheld : heldById w.cache
        { tracingId := w.cache.encodeTracingId slot.1 slot.2, record := some r, closed := false } =
        some (slot, r) := by
      simp [heldById, hplaced.shape.decode_encode w.cache slot hslot]
    refine .passed t slot r _ ?_ ?_ rfl rfl rfl rfl
    · rw [holding, perOwner, hcall]
      rfl
    · rw [← hheld]
      exact perOwner_giveOut _ _ w t _ _
  | enter _ t sp entry => exact hsame _ (holding_congr true w _ rfl rfl fun _ => rfl) rfl rfl rfl
  | exit _ t => exact hsame _ (holding_congr true w _ rfl rfl fun _ => rfl) rfl rfl rfl
  | event _ call t msg => exact hsame _ (holding_congr true w _ rfl rfl fun _ => rfl) rfl rfl rfl
  | closeDisabled t n now sp hsp hdisabled =>
    have hissued := hplaced.spans sp (List.mem_of_getElem? hsp)
    have hnone : sp.record = none := by
      cases hr : sp.record with
      | none => rfl
      | some r =>
        rw [Issued, hr] at hissued
        obtain ⟨slot, hslot, hid⟩ := hissued
        exact absurd (hid.symm.trans hdisabled) (hplaced.shape.encode_ne_disabled w.cache slot hslot)
    refine .same ?_ rfl ?_ (fun m sp' r hsp' hr => ?_) rfl
    · have hfree : holding true w (.inr n) = none := by
        rw [holding, perOwner, hsp, Option.bind_some, heldById, hnone]
        simp
      rw [holding_markClosed true w n (List.getElem?_eq_some_iff.mp hsp).1, ← hfree]
      exact Function.update_eq_self (.inr n) (holding true w)
    · show w.spans.length ≤ (w.spans.modify n _).length
      simp
    · rw [getElem?_markClosed] at hsp'
      split at hsp'
      · next hm =>
        rw [hm, hsp, Option.map_some, Option.some.injEq] at hsp'
        rw [← hsp', hnone] at hr
        cases hr
      · exact hsp'
  | close t n now sp slot c' hsp hdecode hshape hlayout hrecord hids =>
    exact lease_close w _ hplaced t n now sp slot hsp (honce sp hsp) hdecode rfl rfl rfl hlayout
      hrecord

/-! ## The invariant -/

/-- INTERNAL: what an owner's slot should hold: the record of an id with the values of the calls of
`record` for it. -/
def latest (told : ℕ → List (String × FieldValue)) : T ⊕ ℕ → SpanRecord → SpanRecord
  | .inl _, r => r
  | .inr n, r => withValues r (told n)

/-- INTERNAL: the owners of slots with what these should hold. -/
def carrying (told : ℕ → List (String × FieldValue)) (w : World T) :
    Tenancy (T ⊕ ℕ) (ℕ × ℕ) SpanRecord where
  holds o := (holding true w o).map fun x => (x.1, latest told o x.2)
  memory := recordAt w.cache

/-- INTERNAL: **the invariant**; `told` are the values recorded for each id so far. -/
structure FieldsHeld (told : ℕ → List (String × FieldValue)) (w : World T) : Prop where
  placed : Placed w
  opened : Opened w
  sound : (carrying told w).Sound
  fresh : ∀ n, w.spans.length ≤ n → told n = []
  closed : ∀ n sp r, w.spans[n]? = some sp → sp.record = some r → sp.closed = true →
    ∃ t now, (t, { withValues r (told n) with closedAt := some now }) ∈ w.closed

omit [DecidableEq T] in
/-- INTERNAL: nothing is recorded for at the start. -/
theorem fieldsHeld_start (capacity : ℕ) (config : CacheConfig) (c : SpanCache)
    (hcache : SpanCache.withConfig capacity config = some c) (key : ℕ) (keys : T → ℕ) :
    FieldsHeld (fun _ => []) (World.start c key keys) where
  placed := placed_start capacity config c hcache key keys
  opened := opened_start c key keys
  sound := by
    have hnone : (carrying (fun _ => []) (World.start c key keys)).holds = fun _ => none := by
      funext o
      cases o with
      | inl t => rfl
      | inr n => rfl
    have hempty := Tenancy.sound_empty (O := T ⊕ ℕ) (recordAt c)
    rw [← hnone] at hempty
    exact hempty
  fresh _ _ := rfl
  closed n sp r hsp := by cases hsp

/-- INTERNAL: one owner's holding has changed. -/
theorem carrying_update (told : ℕ → List (String × FieldValue))
    (h : T ⊕ ℕ → Option ((ℕ × ℕ) × SpanRecord)) (o : T ⊕ ℕ) (x : Option ((ℕ × ℕ) × SpanRecord)) :
    (fun p => (Function.update h o x p).map fun y => (y.1, latest told p y.2)) =
      Function.update (fun p => (h p).map fun y => (y.1, latest told p y.2)) o
        (x.map fun y => (y.1, latest told o y.2)) := by
  funext p
  by_cases hp : p = o
  · subst hp
    rw [Function.update_self, Function.update_self]
  · rw [Function.update_of_ne hp, Function.update_of_ne hp]

/-- INTERNAL: **a step of the cache keeps the invariant**, as long as no id is closed twice. -/
theorem FieldsHeld.call (told : ℕ → List (String × FieldValue)) (w w' : World T)
    (h : FieldsHeld told w) (a : CacheStep T) (honce : ClosesOnce w a) (hmove : Move w a w') :
    FieldsHeld told w' := by
  have hplaced := h.placed.move w w' a hmove
  have hopened := h.opened.move w w' a hmove
  cases move_lease w w' h.placed a honce hmove with
  | same hholding hmemory hgrows hspans hclosed =>
    refine ⟨hplaced, hopened, ?_, fun n hn => h.fresh n (by omega), fun n sp r hsp hr hmark => ?_⟩
    · have hsame : carrying told w' = carrying told w := by
        rw [carrying, carrying, hholding, hmemory]
      rw [hsame]
      exact h.sound
    · rw [hclosed]
      exact h.closed n sp r (hspans n sp r hsp hr) hr hmark
  | taken t slot r hvacant hholding hmemory hspans hclosed =>
    refine ⟨hplaced, hopened, ?_, by rw [hspans]; exact h.fresh, ?_⟩
    · have htaken := h.sound.take _ (.inl t) slot r hvacant
      rw [carrying, hholding, hmemory, carrying_update]
      exact htaken
    · rw [hspans, hclosed]
      exact h.closed
  | passed t slot r new howner hholding hmemory hopen hspans hclosed =>
    have hunused := h.fresh w.spans.length (Nat.le_refl _)
    refine ⟨hplaced, hopened, ?_, fun n hn => h.fresh n ?_, fun n sp r' hsp hr hmark => ?_⟩
    · have hheld : (carrying told w).holds (.inl t) = some (slot, r) := by
        simp only [carrying, howner]
        rfl
      have hpassed := h.sound.transfer _ (.inl t) (.inr w.spans.length) slot r hheld
      have hsame : withValues r (told w.spans.length) = r := by
        rw [hunused]
        rfl
      rw [carrying, hholding, hmemory, carrying_update, carrying_update]
      simp only [Option.map_none, Option.map_some, latest, hsame]
      exact hpassed
    · rw [hspans, List.length_append] at hn
      omega
    · rw [hclosed]
      rw [hspans, List.getElem?_append] at hsp
      split at hsp
      · exact h.closed n sp r' hsp hr hmark
      · rw [List.getElem?_singleton] at hsp
        split at hsp
        · cases hsp
          rw [hopen] at hmark
          cases hmark
        · cases hsp
  | left t n now sp slot r hsp hrecord howner hholding hmemory hspans hclosed =>
    have hheld : (carrying told w).holds (.inr n) = some (slot, withValues r (told n)) := by
      simp only [carrying, howner]
      rfl
    refine ⟨hplaced, hopened, ?_, fun m hm => h.fresh m ?_, fun m sp' r' hsp' hr hmark => ?_⟩
    · have hleft := h.sound.leave _ (.inr n) slot _ hheld
      rw [carrying, hholding, hmemory, carrying_update]
      exact hleft
    · rw [hspans, World.markClosed, List.length_modify] at hm
      exact hm
    · rw [hspans, getElem?_markClosed] at hsp'
      rw [hclosed]
      by_cases hm : m = n
      · subst hm
        have hmemory := h.sound.occupied (.inr m) slot _ hheld
        have hslot : recordAt w.cache slot = some (withValues r (told m)) := hmemory
        rw [if_pos rfl, hsp, Option.map_some, Option.some.injEq] at hsp'
        have hsame : r = r' := by
          rw [← hsp'] at hr
          exact Option.some.inj (hrecord.symm.trans hr)
        rw [← hsame]
        refine ⟨t, now, List.mem_append_right _ ?_⟩
        rw [hslot]
        exact List.mem_singleton.mpr rfl
      · rw [if_neg hm] at hsp'
        obtain ⟨t', now', hin⟩ := h.closed m sp' r' hsp' hr hmark
        exact ⟨t', now', List.mem_append_left _ hin⟩

/-- INTERNAL: the values recorded for an id by a step. -/
def toldBy (n : ℕ) : RecordingStep T → List (String × FieldValue)
  | .record _ m values => if m = n then values else []
  | .call _ => []

/-- INTERNAL: the values recorded for an id by a run, in order. -/
def toldTo (n : ℕ) (steps : List (RecordingStep T)) : List (String × FieldValue) :=
  steps.flatMap (toldBy n)

/-- INTERNAL: ids of records are closed once, and recorded for while they are open; the disabled
id, which many spans share, may be used freely. -/
def WhileOpen (w : World T) : RecordingStep T → Prop
  | .call a => ClosesOnce w a
  | .record _ n _ => ∀ sp ∈ w.spans[n]?, sp.record.isSome → sp.closed = false

/-- INTERNAL: decidable, so that it can be tested on a run. -/
instance (w : World T) : ∀ a : RecordingStep T, Decidable (WhileOpen w a)
  | .call a => inferInstanceAs (Decidable (ClosesOnce w a))
  | .record _ n _ =>
    inferInstanceAs (Decidable (∀ sp ∈ w.spans[n]?, sp.record.isSome → sp.closed = false))

/-- INTERNAL: a span of the disabled id is told nothing.
SRCLINE: cache.rs:452-467 -/
theorem FieldsHeld.recordDisabled (told : ℕ → List (String × FieldValue)) (w : World T)
    (h : FieldsHeld told w) (t : T) (n : ℕ) (values : List (String × FieldValue)) (sp : Returned)
    (hsp : w.spans[n]? = some sp) (hr : sp.record = none) :
    FieldsHeld (fun m => told m ++ if m = n then values else []) (w.record t sp.tracingId values) := by
  have hlt := (List.getElem?_eq_some_iff.mp hsp).1
  have hissued := h.placed.spans sp (List.mem_of_getElem? hsp)
  -- the disabled id: nothing is changed, and nobody owns what was told
  rw [Issued, hr] at hissued
  have hsame : w.record t sp.tracingId values = w := by
    simp [World.record, SpanCache.record, hissued, SpanCache.decodeTracingId]
  rw [hsame]
  have hother (m : ℕ) (sp' : Returned) (r : SpanRecord) (hsp' : w.spans[m]? = some sp')
      (hr' : sp'.record = some r) : m ≠ n := by
    rintro rfl
    rw [hsp] at hsp'
    cases hsp'
    rw [hr] at hr'
    cases hr'
  refine ⟨h.placed, h.opened, ?_, fun m hm => ?_, fun m sp' r hsp' hr' hmark => ?_⟩
  · have hcarry : carrying (fun m => told m ++ if m = n then values else []) w =
        carrying told w := by
      rw [carrying, carrying]
      congr 1
      funext o
      cases o with
      | inl u => rfl
      | inr m =>
        cases hm : holding true w (.inr m) with
        | none => rfl
        | some x =>
          have hne : m ≠ n := by
            obtain ⟨sp', hsp', hheld⟩ := Option.bind_eq_some_iff.mp hm
            unfold heldById at hheld
            split at hheld
            · cases hheld
            · obtain ⟨r, hr', -⟩ := Option.bind_eq_some_iff.mp hheld
              exact hother m sp' r hsp' hr'
          simp [latest, hne]
    rw [hcarry]
    exact h.sound
  · simp [h.fresh m hm, show m ≠ n by omega]
  · simpa [hother m sp' r hsp' hr'] using h.closed m sp' r hsp' hr' hmark

/-- INTERNAL: the record of an open span takes the values.
SRCLINE: cache.rs:452-467 -/
theorem FieldsHeld.recordOpen (told : ℕ → List (String × FieldValue)) (w : World T)
    (h : FieldsHeld told w) (t : T) (n : ℕ) (values : List (String × FieldValue)) (sp : Returned)
    (hsp : w.spans[n]? = some sp) (r : SpanRecord) (hr : sp.record = some r)
    (hunclosed : sp.closed = false) :
    FieldsHeld (fun m => told m ++ if m = n then values else []) (w.record t sp.tracingId values) := by
  have hlt := (List.getElem?_eq_some_iff.mp hsp).1
  obtain ⟨slot, hdecode, -, hholds⟩ := Live.holding w h.placed n sp r ⟨hsp, hr, hunclosed⟩
  obtain ⟨c', hcache, hshape, hlayout, hrecord, hids⟩ :=
    record_spec w.cache h.placed.shape sp.tracingId values slot hdecode
  have hafter : w.record t sp.tracingId values = { w with cache := c' } := by
    rw [World.record, hcache]
  have hheld : (carrying told w).holds (.inr n) = some (slot, withValues r (told n)) := by
    simp only [carrying, hholds true]
    rfl
  have hmemory : recordAt c' = Function.update (recordAt w.cache) slot
      (some (withValues (withValues r (told n)) values)) := by
    funext s
    rw [hrecord, Function.update_apply]
    split
    · next hs =>
      have hslot : recordAt w.cache slot = some (withValues r (told n)) :=
        h.sound.occupied (.inr n) slot _ hheld
      rw [hs, hslot, Option.map_some]
    · rfl
  rw [hafter]
  refine ⟨?_, ?_, ?_, fun m hm => ?_, fun m sp' r' hsp' hr' hmark => ?_⟩
  · exact h.placed.of_frame w _ hshape hlayout (fun u => Or.inl rfl)
      fun sp hsp => Or.inl ⟨sp, hsp, rfl, rfl⟩
  · exact h.opened.of_same w _ (fun u => Or.inl rfl) rfl h.opened.spans
  · have hwritten := h.sound.write _ (.inr n) slot _
      (withValues (withValues r (told n)) values) hheld
    have hcarry : (carrying (fun m => told m ++ if m = n then values else [])
        { w with cache := c' }).holds = Function.update (carrying told w).holds (.inr n)
          (some (slot, withValues (withValues r (told n)) values)) := by
      have hholding : holding true { w with cache := c' } = holding true w :=
        holding_congr true w _ rfl rfl (SameLayout.decode_eq w.cache c' hlayout)
      funext o
      by_cases ho : o = .inr n
      · subst ho
        rw [Function.update_self]
        simp only [carrying, hholding, hholds true, latest, Option.map_some, withValues,
          if_true, setAll_append]
      · rw [Function.update_of_ne ho]
        cases o with
        | inl u => simp only [carrying, hholding, latest]
        | inr m =>
          have hne : m ≠ n := fun heq => ho (congrArg Sum.inr heq)
          simp only [carrying, hholding, latest, if_neg hne, List.append_nil]
    rw [carrying] at hcarry ⊢
    rw [show (fun o => _) = _ from hcarry, hmemory]
    exact hwritten
  · have hm' : w.spans.length ≤ m := hm
    simp [h.fresh m hm', show m ≠ n by omega]
  · have hne : m ≠ n := by
      rintro rfl
      have hsame : w.spans[m]? = some sp' := hsp'
      rw [hsp] at hsame
      cases hsame
      rw [hunclosed] at hmark
      cases hmark
    simpa [hne] using h.closed m sp' r' hsp' hr' hmark

/-- INTERNAL: **`record` keeps the invariant**, as long as the id is open.
SRCLINE: cache.rs:452-467 -/
theorem FieldsHeld.record (told : ℕ → List (String × FieldValue)) (w : World T)
    (h : FieldsHeld told w) (t : T) (n : ℕ) (values : List (String × FieldValue)) (sp : Returned)
    (hsp : w.spans[n]? = some sp) (hopen : sp.record.isSome → sp.closed = false) :
    FieldsHeld (fun m => told m ++ if m = n then values else []) (w.record t sp.tracingId values) := by
  cases hr : sp.record with
  | none => exact h.recordDisabled told w t n values sp hsp hr
  | some r => exact h.recordOpen told w t n values sp hsp r hr (hopen (by rw [hr]; rfl))

/-! ## Runs -/

omit [DecidableEq T] in
/-- INTERNAL: one more step tells a span of its fields. -/
theorem toldTo_snoc (n : ℕ) (steps : List (RecordingStep T)) (a : RecordingStep T) :
    toldTo n (steps ++ [a]) = toldTo n steps ++ toldBy n a := by
  simp [toldTo]

/-- INTERNAL: **the step lemma**. -/
theorem FieldsHeld.step (steps : List (RecordingStep T)) (w w' : World T)
    (h : FieldsHeld (fun n => toldTo n steps) w) (a : RecordingStep T) (hopen : WhileOpen w a)
    (hstep : w.recordingStep a = some w') :
    FieldsHeld (fun n => toldTo n (steps ++ [a])) w' := by
  simp only [toldTo_snoc]
  cases a with
  | call a =>
    have hkept := h.call _ w w' a hopen (step_moves w w' h.placed a hstep)
    simpa only [toldBy, List.append_nil] using hkept
  | record t n values =>
    simp only [World.recordingStep] at hstep
    split at hstep
    · next sp hcall hsp =>
      cases hstep
      have hkept := h.record _ w t n values sp hsp (hopen sp hsp)
      simpa only [toldBy, eq_comm] using hkept
    · cases hstep

/-- INTERNAL: so it holds of every run. -/
theorem fieldsHeld_run (cache : SpanCache) (capacity : ℕ) (config : CacheConfig)
    (hcache : SpanCache.withConfig capacity config = some cache) (key : ℕ) (keys : T → ℕ)
    (steps : List (RecordingStep T)) (w : World T)
    (hopen : RunsUnder World.recordingStep WhileOpen (World.start cache key keys) steps)
    (hrun : run World.recordingStep (World.start cache key keys) steps = some w) :
    FieldsHeld (fun n => toldTo n steps) w := by
  induction steps using List.reverseRecOn generalizing w with
  | nil =>
    cases hrun
    exact fieldsHeld_start capacity config cache hcache key keys
  | append_singleton steps a ih =>
    obtain ⟨w₁, hbefore, hlast⟩ :=
      (run_snoc_eq_some World.recordingStep _ steps a w).mp hrun
    have hearlier := RunsUnder.prefix _ _ _ steps [a] hopen
    have hlater := RunsUnder.at_step World.recordingStep WhileOpen _ w₁ steps [] a hopen hbefore
    exact (ih w₁ hearlier hbefore).step steps w₁ w a hlater hlast

/-- CODE: cache.rs:368-467, cache.rs:542-567, record.rs:193-261 — **a span has the fields it was
given**: in every run in which ids of records are closed once and recorded for only while open,
an open id is the address of the slot with its record, and the record of a closed one was handed
to the buffer of the thread that closed it, both with the fields of the call that opened the span
and of all calls of `record` for its id since, whichever threads made them: no name twice, and
each with the value given last. -/
theorem late_fields_delivered (cache : SpanCache) (capacity : ℕ) (config : CacheConfig)
    (hcache : SpanCache.withConfig capacity config = some cache) (key : ℕ) (keys : T → ℕ)
    (steps : List (RecordingStep T)) (w : World T)
    (hopen : RunsUnder World.recordingStep WhileOpen (World.start cache key keys) steps)
    (hrun : run World.recordingStep (World.start cache key keys) steps = some w) (n : ℕ)
    (sp : Returned) (r : SpanRecord) (hsp : w.spans[n]? = some sp) (hr : sp.record = some r) :
    ∃ o fields, (o, r) ∈ w.inserted ∧
      (fields.map Prod.fst).Nodup ∧
      (∀ name, fieldGet fields name =
        ((o.attrs.values ++ toldTo n steps).reverse.find? fun v => v.1 = name).map Prod.snd) ∧
      (sp.closed = false → ∃ slot, w.cache.decodeTracingId sp.tracingId = some slot ∧
        recordAt w.cache slot = some { r with fields := fields }) ∧
      (sp.closed = true → ∃ t now,
        (t, { r with fields := fields, closedAt := some now }) ∈ w.closed) := by
  have h := fieldsHeld_run cache capacity config hcache key keys steps w hopen hrun
  obtain ⟨o, hin⟩ := h.opened.spans sp (List.mem_of_getElem? hsp) r hr
  obtain ⟨id, now, hbuilt⟩ := h.opened.log o r hin
  have hfields : setAll r.fields (toldTo n steps) =
      setAll [] (o.attrs.values ++ toldTo n steps) := by
    rw [setAll_append, hbuilt]
    rfl
  obtain ⟨hnodup, hget⟩ := setAll_spec [] (o.attrs.values ++ toldTo n steps)
  refine ⟨o, setAll r.fields (toldTo n steps), hin, ?_, fun name => ?_, fun hunclosed => ?_,
    fun hmark => h.closed n sp r hsp hr hmark⟩
  · rw [hfields]
    exact hnodup List.nodup_nil
  · rw [hfields, hget name]
    exact Option.or_none
  · obtain ⟨slot, hdecode, -, hholds⟩ := Live.holding w h.placed n sp r ⟨hsp, hr, hunclosed⟩
    refine ⟨slot, hdecode, h.sound.occupied (.inr n) slot _ ?_⟩
    simp only [carrying, hholds true]
    rfl

/-- INTERNAL: a thread opens a root with two fields, and another one records one of them anew and
a third, before the first closes it. -/
def recordedLate : List (RecordingStep Bool) :=
  [.call (.newSpan false .root { name := "root", target := "app", level := .info }
      [("path", .smallString "/"), ("status", .u64 0)])] ++
    (openRoot false).tail.map .call ++
    [.record true 0 [("status", .u64 200)], .record true 0 [("user", .bool true)],
      .call (.tryClose false 0 9)]

/-- CODE: cache.rs:452-467 — the span is delivered with the later status. -/
theorem late_fields_delivered_status :
    ∃ (w : World Bool) (fields : FieldList) (r : SpanRecord),
      run World.recordingStep (World.start oneSlot 0 fun _ => 0) recordedLate = some w ∧
      (w.closed.map fun e => e.2.fields) =
        [[("path", FieldValue.smallString "/"), ("status", .u64 200), ("user", .bool true)]] ∧
      (∃ t now, (t, { r with fields := fields, closedAt := some now }) ∈ w.closed) ∧
      fieldGet fields "status" = some (.u64 200) := by
  obtain ⟨o, fields, -, -, hget, -, hclosed⟩ := late_fields_delivered oneSlot 1
    { laneCount := 1, pendingBatch := 8 } (by decide) 0 (fun _ => 0) recordedLate _ (by decide) rfl
    0 _ _ rfl rfl
  exact ⟨_, fields, _, rfl, rfl, hclosed rfl, by rw [hget, List.reverse_append]; rfl⟩

end TracingConsole.Analysis
