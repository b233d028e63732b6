import TracingConsole.Analysis.RecordIds

/-!
# The ids of closed spans are distinct

A record is with the thread that builds it, then in its slot, then among the closed spans.
These places are tenants of the ids allocated: a record passes its id on when it moves, so
while the ids last no two closed spans share one.
-/

set_option autoImplicit false

namespace TracingConsole.Analysis

open TracingConsole.Library TracingConsole.Model

variable {T : Type} [DecidableEq T]

/-- INTERNAL: the id of a record that is not in its slot yet. -/
def unplacedId : Call → Option (ℕ × Unit)
  | .built _ r => some (r.id, ())
  | .picked _ r _ => some (r.id, ())
  | _ => none

/-- INTERNAL: the ids by where their record is: with a thread, in a slot, or closed. -/
def placeId (w : World T) : T ⊕ (ℕ × ℕ) ⊕ ℕ → Option (ℕ × Unit)
  | .inl t => unplacedId (w.call t)
  | .inr (.inl slot) => (recordAt w.cache slot).map fun r => (r.id, ())
  | .inr (.inr k) => (w.closed[k]?).map fun e => (e.2.id, ())

/-- INTERNAL: the places of records as tenants of the ids allocated. -/
def placing (w : World T) : Tenancy (T ⊕ (ℕ × ℕ) ⊕ ℕ) ℕ Unit where
  holds := placeId w
  memory := allocated w.ids

/-- INTERNAL: while the ids last, no two places share one. -/
def Distinct (w : World T) : Prop := w.ids.reserved < u64Size → (placing w).Sound

omit [DecidableEq T] in
/-- INTERNAL: no id is given out at the start. -/
theorem distinct_start (capacity : ℕ) (config : CacheConfig) (c : SpanCache)
    (hcache : SpanCache.withConfig capacity config = some c) (key : ℕ) (keys : T → ℕ) :
    Distinct (World.start c key keys) := by
  intro _
  have hnone : placeId (World.start c key keys) = fun _ => none := by
    funext o
    cases o with
    | inl t => rfl
    | inr o =>
      cases o with
      | inl slot =>
        show (recordAt c slot).map _ = none
        rw [recordAt_withConfig capacity config c hcache slot]
        rfl
      | inr k => rfl
  rw [placing, hnone]
  exact Tenancy.sound_empty _

omit [DecidableEq T] in
/-- INTERNAL: the places depend on the calls, the slots and the closed spans. -/
theorem placeId_congr (w w' : World T) (hcall : ∀ t, unplacedId (w'.call t) = unplacedId (w.call t))
    (hrecord : ∀ slot, recordAt w'.cache slot = recordAt w.cache slot)
    (hclosed : w'.closed = w.closed) : placeId w' = placeId w := by
  funext o
  cases o with
  | inl t => exact hcall t
  | inr o =>
    cases o with
    | inl slot => rw [placeId, placeId, hrecord]
    | inr k => rw [placeId, placeId, hclosed]

/-- INTERNAL: only the thread's own place can change with its call. -/
theorem placeId_setCall (w : World T) (t : T) (call : Call) :
    placeId (w.setCall t call) = Function.update (placeId w) (.inl t) (unplacedId call) := by
  funext o
  cases o with
  | inl u =>
    by_cases hu : u = t
    · subst hu
      rw [Function.update_self]
      simp [placeId, World.setCall]
    · rw [Function.update_of_ne (fun h => hu (Sum.inl.inj h))]
      simp [placeId, World.setCall, hu]
  | inr o =>
    rw [Function.update_of_ne Sum.inr_ne_inl]
    cases o with
    | inl slot => rfl
    | inr k => rfl

omit [DecidableEq T] in
/-- INTERNAL: nothing moves. -/
theorem Distinct.of_same (w w' : World T) (h : Distinct w) (hids : w'.ids = w.ids)
    (hplace : placeId w' = placeId w) : Distinct w' := by
  intro hlast
  rw [hids] at hlast
  rw [placing, hplace, hids]
  exact h hlast

/-- INTERNAL: a call that holds the same id. -/
theorem unplacedId_setCall (w : World T) (t : T) (call : Call)
    (hcall : unplacedId call = unplacedId (w.call t)) (u : T) :
    unplacedId ((w.setCall t call).call u) = unplacedId (w.call u) := by
  by_cases hu : u = t
  · subst hu
    simp [World.setCall, hcall]
  · simp [World.setCall, hu]

/-- INTERNAL: such a call leaves the ids distinct. -/
theorem Distinct.setCall (w : World T) (h : Distinct w) (t : T) (call : Call)
    (hcall : unplacedId call = unplacedId (w.call t)) : Distinct (w.setCall t call) :=
  h.of_same w _ rfl
    (placeId_congr w _ (unplacedId_setCall w t call hcall) (fun _ => rfl) rfl)

/-- INTERNAL: a rejected span leaves its id to nobody. -/
theorem Distinct.reject (w : World T) (h : Distinct w) (t : T) : Distinct (w.reject t) := by
  intro hlast
  have hsound := (h hlast).abandon _ (.inl t)
  have hplace : placeId (w.reject t) = Function.update (placeId w) (.inl t) none :=
    placeId_setCall w t .idle
  rw [placing, hplace]
  exact hsound

/-- INTERNAL: the thread's record moves into its slot. -/
theorem Distinct.insert (w : World T) (h : Distinct w) (t : T) (o : Opening) (r : SpanRecord)
    (slot : ℕ × ℕ) (c' : SpanCache) (hcall : w.call t = .picked o r slot.1)
    (hrecord : ∀ s, recordAt c' s = if s = slot then some r else recordAt w.cache s) :
    Distinct { w.setCall t (.inserted r slot.1 slot.2) with
      cache := c', inserted := w.inserted ++ [(o, r)] } := by
  intro hlast
  have hholds : (placing w).holds (.inl t) = some (r.id, ()) := by
    show unplacedId (w.call t) = _
    rw [hcall]
    rfl
  have hsound := (h hlast).transfer _ (.inl t) (.inr (.inl slot)) r.id () hholds
  have hplace : placeId { w.setCall t (.inserted r slot.1 slot.2) with
      cache := c', inserted := w.inserted ++ [(o, r)] } =
      Function.update (Function.update (placeId w) (.inl t) none) (.inr (.inl slot))
        (some (r.id, ())) := by
    rw [← show placeId (w.setCall t (.inserted r slot.1 slot.2)) =
      Function.update (placeId w) (.inl t) none from placeId_setCall w t _]
    funext p
    cases p with
    | inl u => rw [Function.update_of_ne Sum.inl_ne_inr]; rfl
    | inr p =>
      cases p with
      | inl s =>
        by_cases hs : s = slot
        · subst hs
          rw [Function.update_self]
          simp [placeId, hrecord]
        · rw [Function.update_of_ne (fun heq => hs (Sum.inl.inj (Sum.inr.inj heq)))]
          simp [placeId, hrecord, hs, World.setCall]
      | inr k =>
        rw [Function.update_of_ne (fun heq => Sum.inr_ne_inl (Sum.inr.inj heq))]
        rfl
  rw [placing, hplace]
  exact hsound

/-- INTERNAL: a closed record moves from its slot to the closed spans. -/
theorem Distinct.close (w : World T) (h : Distinct w) (t : T) (n now : ℕ) (slot : ℕ × ℕ)
    (c' : SpanCache)
    (hrecord : ∀ s, recordAt c' s = if s = slot then none else recordAt w.cache s) :
    Distinct ({ w with
      cache := c'
      closed := w.closed ++ handedOver t now (recordAt w.cache slot) }.markClosed n) := by
  intro hlast
  have hempty : ∀ o, o ≠ .inr (.inl slot) → (∀ k, o = .inr (.inr k) → k < w.closed.length) →
      placeId ({ w with
        cache := c'
        closed := w.closed ++ handedOver t now (recordAt w.cache slot) }.markClosed n) o =
      placeId w o := by
    intro o hne hk
    cases o with
    | inl u => rfl
    | inr o =>
      cases o with
      | inl s =>
        have hs : s ≠ slot := fun heq => hne (by rw [heq])
        simp [placeId, World.markClosed, hrecord, hs]
      | inr k =>
        simp only [placeId, World.markClosed]
        rw [List.getElem?_append_left (hk k rfl)]
  cases hslot : recordAt w.cache slot with
  | none =>
    have hplace : placeId ({ w with
        cache := c'
        closed := w.closed ++ handedOver t now (recordAt w.cache slot) }.markClosed n) =
        placeId w := by
      refine placeId_congr w _ (fun _ => rfl) ?_ ?_
      · intro s
        show recordAt c' s = _
        rw [hrecord]
        split
        · next heq => rw [heq, hslot]
        · rfl
      · show w.closed ++ handedOver t now (recordAt w.cache slot) = w.closed
        rw [hslot]
        exact List.append_nil _
    rw [← hslot, placing, hplace]
    exact h hlast
  | some r =>
    have hholds : (placing w).holds (.inr (.inl slot)) = some (r.id, ()) := by
      show (recordAt w.cache slot).map _ = _
      rw [hslot]
      rfl
    have hsound := (h hlast).transfer _ (.inr (.inl slot)) (.inr (.inr w.closed.length)) r.id ()
      hholds
    have hplace : placeId ({ w with
        cache := c'
        closed := w.closed ++ handedOver t now (recordAt w.cache slot) }.markClosed n) =
        Function.update (Function.update (placeId w) (.inr (.inl slot)) none)
          (.inr (.inr w.closed.length)) (some (r.id, ())) := by
      funext o
      by_cases hnew : o = .inr (.inr w.closed.length)
      · subst hnew
        rw [Function.update_self]
        simp [placeId, World.markClosed, hslot, handedOver]
      · rw [Function.update_of_ne hnew]
        by_cases hold : o = .inr (.inl slot)
        · subst hold
          rw [Function.update_self]
          simp [placeId, World.markClosed, hrecord]
        · rw [Function.update_of_ne hold]
          by_cases hlater : ∃ k, o = .inr (.inr k) ∧ w.closed.length < k
          · obtain ⟨k, rfl, hlt⟩ := hlater
            have hafter : (w.closed ++ handedOver t now (recordAt w.cache slot)).length ≤ k := by
              simp only [hslot, handedOver, Option.map_some, Option.toList_some,
                List.map_singleton, List.length_append, List.length_singleton]
              omega
            simp only [placeId, World.markClosed]
            rw [List.getElem?_eq_none hafter, List.getElem?_eq_none (by omega)]
          · refine hempty o hold fun k hk => ?_
            have hle : ¬ w.closed.length < k := fun hlt => hlater ⟨k, hk, hlt⟩
            have hne : k ≠ w.closed.length := fun heq => hnew (by rw [hk, heq])
            omega
    rw [← hslot, placing, hplace]
    exact hsound

/-- INTERNAL: **moves keep the ids of all places distinct**. -/
theorem Distinct.move (w w' : World T) (h : Distinct w) (hnumbered : Numbered w)
    (a : CacheStep T) (hmove : Move w a w') : Distinct w' := by
  cases hmove with
  | drop => exact h
  | reject _ t hcall => exact h.reject w t
  | resolve _ t o hcall => exact h.setCall w t _ (by rw [hcall]; rfl)
  | accept _ t o hcall => exact h.setCall w t _ (by rw [hcall]; rfl)
  | reserve _ t o hcall hid =>
    intro hlast
    have hsound := h (lt_of_le_of_lt (reserved_advance w.ids t) hlast)
    rw [placing, ← allocated_of_none w.ids t hid] at hsound
    exact hsound
  | build _ t o id now hcall hid =>
    intro hlast
    have hsound := h (lt_of_le_of_lt (reserved_advance w.ids t) hlast)
    obtain ⟨hvacant, hmemory⟩ := allocated_of_some w.ids t id hid hnumbered.schedule hlast
    have htake := hsound.take _ (.inl t) id () hvacant
    rw [placing, ← hmemory] at htake
    have hplace : placeId ({ w with ids := w.ids.advance t }.setCall t
        (.built o (SpanCache.buildRecord o.attrs id o.parentActualId now))) =
        Function.update (placeId w) (.inl t) (some (id, ())) :=
      placeId_setCall { w with ids := w.ids.advance t } t _
    rw [placing, hplace]
    exact htake
  | pick _ t o r shard key keys hcall =>
    have hkeys : Distinct { w with nextThreadKey := key, threadShardKey := keys } := h
    exact hkeys.setCall _ t _ (by show some (r.id, ()) = unplacedId (w.call t); rw [hcall]; rfl)
  | insert _ t o r slot c' hcall _ _ _ _ hrecord =>
    exact h.insert w t o r slot c' hcall hrecord
  | store _ t r slot c' hcall _ _ hrecord =>
    refine h.of_same w _ rfl (placeId_congr w _ ?_ hrecord rfl)
    exact unplacedId_setCall w t _ (by rw [hcall]; rfl)
  | finish _ t r slot hcall =>
    have hidle := h.setCall w t .idle (by rw [hcall]; rfl)
    exact hidle
  | enter => exact h
  | exit => exact h
  | event => exact h
  | closeDisabled => exact h
  | close t n now sp slot c' _ _ _ _ hrecord => exact h.close w t n now slot c' hrecord

omit [DecidableEq T] in
/-- INTERNAL: while the ids last, closed spans have distinct ids. -/
theorem Distinct.closed (w : World T) (h : Distinct w) (hlast : w.ids.reserved < u64Size) :
    (w.closed.map fun e => e.2.id).Nodup := by
  rw [List.nodup_iff_getElem?_ne_getElem?]
  intro i j hij hj heq
  rw [List.length_map] at hj
  have hi : i < w.closed.length := by omega
  simp only [List.getElem?_map, List.getElem?_eq_getElem hi, List.getElem?_eq_getElem hj,
    Option.map_some, Option.some.injEq] at heq
  have hat : ∀ k (hk : k < w.closed.length),
      (placing w).holds (.inr (.inr k)) = some (w.closed[k].2.id, ()) := by
    intro k hk
    show (w.closed[k]?).map _ = _
    rw [List.getElem?_eq_getElem hk]
    rfl
  have hsame := (h hlast).exclusive (.inr (.inr i)) (.inr (.inr j)) _ () () (hat i hi)
    (heq ▸ hat j hj)
  have hindex : i = j := Sum.inr.inj (Sum.inr.inj hsame)
  omega

end TracingConsole.Analysis
