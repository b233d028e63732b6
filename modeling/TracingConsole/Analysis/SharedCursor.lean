import TracingConsole.Analysis.CacheIsolation
import TracingConsole.Analysis.RecordIds

/-!
# One id cursor for all caches

The cursor of a thread is shared by the caches.  As long as a thread takes the ids of a batch
through the cache it reserved the batch from, each cache hands out the ids an allocator of its
own would: `Backed` relates the process to one allocation for each cache, and every step of an
allocation is a step of the cache's own one.  With the two conditions on flushes this is when
caches are isolated (`caches_isolated`).
-/

set_option autoImplicit false

namespace TracingConsole.Analysis

open TracingConsole.Library TracingConsole.Model

variable {T : Type} [DecidableEq T]

/-- INTERNAL: the ids a cache gave out. -/
def idsOfCache (p : Process T) (c : ℕ) : List ℕ :=
  (p.ids.filter fun e => e.1 = c).map fun e => e.2

/-- INTERNAL: a thread inside a batch takes its ids through the cache the batch is from.
SRCLINE: cache.rs:208-226, thread_state.rs:91-101 -/
def KeepsBatch (p : Process T) : ProcessStep T → Prop
  | .allocate t c => p.fetched t = none → p.idCursor t % 1024 ≠ 0 → p.batchOf t = some c
  | _ => True

/-- INTERNAL: every cache behaves like its own allocation `own c`.  A thread is in step with
the one of the cache its batch is from, and has used up its batches from the others. -/
structure Backed (p : Process T) (own : ℕ → Allocation T) : Prop where
  schedule : ∀ c, ∃ threads, own c = Allocation.interleave threads
  counters : ∀ c, ∀ cache ∈ p.caches[c]?,
    (own c).ids.idHighWater = cache.idHighWater ∧ (own c).reserved = cache.reserved
  unborn : ∀ c, p.caches.length ≤ c → own c = Allocation.new
  returned : ∀ c, (own c).returned.map Prod.snd = idsOfCache p c
  inCall : ∀ t c start, p.fetched t = some (c, start) →
    p.batchOf t = some c ∧ (own c).ids.fetched t = some start
  idle : ∀ t c, p.batchOf t = some c → p.fetched t = none →
    (own c).ids.fetched t = none ∧ (own c).ids.idCursor t = p.idCursor t
  elsewhere : ∀ t c, p.batchOf t ≠ some c →
    (own c).ids.fetched t = none ∧ (own c).ids.idCursor t % 1024 = 0

omit [DecidableEq T] in
/-- INTERNAL: a process starts with nothing reserved. -/
theorem backed_start [DecidableEq T] :
    Backed (Process.start : Process T) fun _ => Allocation.new where
  schedule := fun _ => ⟨[], rfl⟩
  counters := fun _ _ h => by cases h
  unborn := fun _ _ => rfl
  returned := fun _ => rfl
  inCall := fun _ _ _ h => by cases h
  idle := fun _ _ h => by cases h
  elsewhere := fun _ _ _ => ⟨rfl, rfl⟩

/-- INTERNAL: the three things a step of an allocation can do, at the cache. -/
theorem allocate_cases (p : Process T) (t : T) (c : ℕ) (cache : CacheInstance) :
    (∃ d start, p.fetched t = some (d, start) ∧
      p.allocate t c cache =
        { p with
          idCursor := Function.update p.idCursor t ((start + 1) % u64Size)
          fetched := Function.update p.fetched t none
          ids := p.ids ++ [(c, start)] }) ∨
    (p.fetched t = none ∧ p.idCursor t % 1024 ≠ 0 ∧
      p.allocate t c cache =
        { p with
          idCursor := Function.update p.idCursor t ((p.idCursor t + 1) % u64Size)
          fetched := Function.update p.fetched t none
          ids := p.ids ++ [(c, p.idCursor t)] }) ∨
    (p.fetched t = none ∧ p.idCursor t % 1024 = 0 ∧
      p.allocate t c cache =
        { p with
          caches := p.caches.set c
            { cache with
              idHighWater := (cache.idHighWater + idBatch) % u64Size
              reserved := cache.reserved + idBatch }
          fetched := Function.update p.fetched t (some (c, cache.idHighWater))
          batchOf := Function.update p.batchOf t (some c) }) := by
  cases hf : p.fetched t with
  | some r =>
    refine Or.inl ⟨r.1, r.2, rfl, ?_⟩
    simp only [Process.allocate, Allocator.advance, Process.allocator, hf, Option.map_some]
  | none =>
    by_cases hpos : p.idCursor t % 1024 = 0
    · refine Or.inr (Or.inr ⟨rfl, hpos, ?_⟩)
      simp [Process.allocate, Allocator.advance, Process.allocator, hf, and_idBatch, hpos]
    · refine Or.inr (Or.inl ⟨rfl, hpos, ?_⟩)
      simp [Process.allocate, Allocator.advance, Process.allocator, hf, and_idBatch, hpos]

omit [DecidableEq T] in
/-- INTERNAL: an id given out by a cache is one more id of that cache. -/
theorem idsOfCache_append (p p' : Process T) (c d id : ℕ) (hids : p'.ids = p.ids ++ [(c, id)]) :
    idsOfCache p' d = idsOfCache p d ++ if c = d then [id] else [] := by
  unfold idsOfCache
  rw [hids, List.filter_append, List.map_append]
  by_cases hcd : c = d <;> simp [hcd]

/-- INTERNAL: the allocations after the one of cache `c` became `a`. -/
theorem schedule_update (own : ℕ → Allocation T) (c : ℕ) (a : Allocation T)
    (h : ∀ d, ∃ threads, own d = Allocation.interleave threads)
    (ha : ∃ threads, a = Allocation.interleave threads) :
    ∀ d, ∃ threads, Function.update own c a d = Allocation.interleave threads := by
  intro d
  by_cases hd : d = c
  · subst hd
    rw [Function.update_self]
    exact ha
  · rw [Function.update_of_ne hd]
    exact h d

/-- INTERNAL: the cache and its allocation give out the same id and move on alike. -/
theorem Backed.issue (p : Process T) (own : ℕ → Allocation T) (h : Backed p own) (t : T)
    (c id next : ℕ) (a : Allocation T) (hc : c < p.caches.length) (hbatch : p.batchOf t = some c)
    (ha : ∃ threads, a = Allocation.interleave threads)
    (hmark : a.ids.idHighWater = (own c).ids.idHighWater)
    (hreserved : a.reserved = (own c).reserved)
    (hreturned : a.returned = (own c).returned ++ [(t, id)])
    (hcursor : a.ids.idCursor = Function.update (own c).ids.idCursor t next)
    (hfetched : a.ids.fetched = Function.update (own c).ids.fetched t none) :
    Backed
      { p with
        idCursor := Function.update p.idCursor t next
        fetched := Function.update p.fetched t none
        ids := p.ids ++ [(c, id)] }
      (Function.update own c a) where
  schedule := schedule_update own c a h.schedule ha
  counters := fun d cache hcache => by
    by_cases hd : d = c
    · subst hd
      rw [Function.update_self, hmark, hreserved]
      exact h.counters d cache hcache
    · rw [Function.update_of_ne hd]
      exact h.counters d cache hcache
  unborn := fun d hd => by
    have hne : d ≠ c := fun heq => Nat.lt_irrefl _ (Nat.lt_of_lt_of_le (heq ▸ hc) hd)
    rw [Function.update_of_ne hne]
    exact h.unborn d hd
  returned := fun d => by
    rw [idsOfCache_append p _ c d id rfl]
    by_cases hd : d = c
    · subst hd
      rw [Function.update_self, hreturned, List.map_append, h.returned, if_pos rfl]
      rfl
    · rw [Function.update_of_ne hd, if_neg (Ne.symm hd), List.append_nil]
      exact h.returned d
  inCall := fun u d start hu => by
    have hne : u ≠ t := by
      rintro rfl
      simp at hu
    have hu : p.fetched u = some (d, start) := (Function.update_of_ne hne _ _).symm.trans hu
    obtain ⟨hd, hcall⟩ := h.inCall u d start hu
    refine ⟨hd, ?_⟩
    by_cases hdc : d = c
    · subst hdc
      rw [Function.update_self, hfetched, Function.update_of_ne hne]
      exact hcall
    · rw [Function.update_of_ne hdc]
      exact hcall
  idle := fun u d hd hu => by
    have hd : p.batchOf u = some d := hd
    by_cases hut : u = t
    · subst hut
      rw [hbatch] at hd
      cases hd
      rw [Function.update_self, hfetched, hcursor, Function.update_self, Function.update_self]
      exact ⟨rfl, (Function.update_self u next p.idCursor).symm⟩
    · have hu : p.fetched u = none := (Function.update_of_ne hut _ _).symm.trans hu
      have hbefore := h.idle u d hd hu
      simp only [Function.update_of_ne hut]
      by_cases hdc : d = c
      · subst hdc
        rw [Function.update_self, hfetched, hcursor, Function.update_of_ne hut,
          Function.update_of_ne hut]
        exact hbefore
      · rw [Function.update_of_ne hdc]
        exact hbefore
  elsewhere := fun u d hd => by
    have hd : p.batchOf u ≠ some d := hd
    by_cases hdc : d = c
    · subst hdc
      have hut : u ≠ t := by
        rintro rfl
        exact hd hbatch
      rw [Function.update_self, hfetched, hcursor, Function.update_of_ne hut,
        Function.update_of_ne hut]
      exact h.elsewhere u d hd
    · rw [Function.update_of_ne hdc]
      exact h.elsewhere u d hd

/-- INTERNAL: the cache and its allocation reserve the same batch; the thread has used up the
one it had, whichever cache that was from. -/
theorem Backed.reserve (p : Process T) (own : ℕ → Allocation T) (h : Backed p own) (t : T)
    (c : ℕ) (cache : CacheInstance) (a : Allocation T) (hcache : p.caches[c]? = some cache)
    (hf : p.fetched t = none) (hused : p.idCursor t % 1024 = 0)
    (ha : ∃ threads, a = Allocation.interleave threads)
    (hstep : a =
      { ids := { (own c).ids with
          idHighWater := ((own c).ids.idHighWater + idBatch) % u64Size
          fetched := Function.update (own c).ids.fetched t (some (own c).ids.idHighWater) }
        returned := (own c).returned
        reserved := (own c).reserved + idBatch }) :
    Backed
      { p with
        caches := p.caches.set c
          { cache with
            idHighWater := (cache.idHighWater + idBatch) % u64Size
            reserved := cache.reserved + idBatch }
        fetched := Function.update p.fetched t (some (c, cache.idHighWater))
        batchOf := Function.update p.batchOf t (some c) }
      (Function.update own c a) where
  schedule := schedule_update own c a h.schedule ha
  counters := fun d cache' hcache' => by
    have hc := (List.getElem?_eq_some_iff.mp hcache).1
    have hcounters := h.counters c cache hcache
    have hcache' : (p.caches.set c _)[d]? = some cache' := hcache'
    by_cases hd : d = c
    · subst hd
      rw [List.getElem?_set_self hc] at hcache'
      cases hcache'
      rw [Function.update_self, hstep, hcounters.1, hcounters.2]
      exact ⟨rfl, rfl⟩
    · rw [List.getElem?_set_ne (Ne.symm hd)] at hcache'
      rw [Function.update_of_ne hd]
      exact h.counters d cache' hcache'
  unborn := fun d hd => by
    have hc := (List.getElem?_eq_some_iff.mp hcache).1
    have hd : p.caches.length ≤ d := by simpa using hd
    have hne : d ≠ c := by omega
    rw [Function.update_of_ne hne]
    exact h.unborn d hd
  returned := fun d => by
    by_cases hd : d = c
    · subst hd
      rw [Function.update_self, hstep]
      exact h.returned d
    · rw [Function.update_of_ne hd]
      exact h.returned d
  inCall := fun u d start hu => by
    have hcounters := h.counters c cache hcache
    by_cases hut : u = t
    · subst hut
      cases (Function.update_self u (some (c, cache.idHighWater)) p.fetched).symm.trans hu
      refine ⟨Function.update_self u (some c) p.batchOf, ?_⟩
      rw [Function.update_self, hstep, hcounters.1]
      exact Function.update_self _ _ _
    · have hu : p.fetched u = some (d, start) := (Function.update_of_ne hut _ _).symm.trans hu
      obtain ⟨hd, hcall⟩ := h.inCall u d start hu
      refine ⟨(Function.update_of_ne hut _ _).trans hd, ?_⟩
      by_cases hdc : d = c
      · subst hdc
        rw [Function.update_self, hstep]
        exact (Function.update_of_ne hut _ _).trans hcall
      · rw [Function.update_of_ne hdc]
        exact hcall
  idle := fun u d hd hu => by
    have hut : u ≠ t := by
      rintro rfl
      simp at hu
    have hu : p.fetched u = none := (Function.update_of_ne hut _ _).symm.trans hu
    have hd : p.batchOf u = some d := (Function.update_of_ne hut _ _).symm.trans hd
    have hbefore := h.idle u d hd hu
    by_cases hdc : d = c
    · subst hdc
      rw [Function.update_self, hstep]
      exact ⟨(Function.update_of_ne hut _ _).trans hbefore.1, hbefore.2⟩
    · rw [Function.update_of_ne hdc]
      exact hbefore
  elsewhere := fun u d hd => by
    by_cases hut : u = t
    · subst hut
      have hdc : d ≠ c := by
        rintro rfl
        exact hd (Function.update_self u (some d) p.batchOf)
      rw [Function.update_of_ne hdc]
      by_cases hbatch : p.batchOf u = some d
      · obtain ⟨hnone, hcursor⟩ := h.idle u d hbatch hf
        exact ⟨hnone, by rw [hcursor]; exact hused⟩
      · exact h.elsewhere u d hbatch
    · have hd : p.batchOf u ≠ some d := fun heq =>
        hd ((Function.update_of_ne hut _ _).trans heq)
      have hbefore := h.elsewhere u d hd
      by_cases hdc : d = c
      · subst hdc
        rw [Function.update_self, hstep]
        exact ⟨(Function.update_of_ne hut _ _).trans hbefore.1, hbefore.2⟩
      · rw [Function.update_of_ne hdc]
        exact hbefore

/-- INTERNAL: **an allocation that takes its ids from the cache's batches is one of the cache's
own**. -/
theorem Backed.allocate (p : Process T) (own : ℕ → Allocation T) (h : Backed p own) (t : T)
    (c : ℕ) (cache : CacheInstance) (hcache : p.caches[c]? = some cache)
    (hkeeps : KeepsBatch p (.allocate t c))
    (hcall : ∀ d start, p.fetched t = some (d, start) → d = c) :
    Backed (p.allocate t c cache) (Function.update own c ((own c).advance t)) := by
  have hc := (List.getElem?_eq_some_iff.mp hcache).1
  have ha := interleave_advance (own c) t (h.schedule c)
  cases allocate_cases p t c cache with
  | inl hfetched =>
    obtain ⟨d, start, hf, hstep⟩ := hfetched
    obtain rfl := hcall d start hf
    obtain ⟨hbatch, hown⟩ := h.inCall t d start hf
    rw [hstep]
    refine h.issue p own t d start _ _ hc hbatch ha ?_ ?_ ?_ ?_ ?_ <;>
      simp only [Allocation.advance, Allocator.advance, hown]
  | inr hrest =>
    cases hrest with
    | inl hinside =>
      obtain ⟨hf, hpos, hstep⟩ := hinside
      have hbatch := hkeeps hf hpos
      -- inside a batch the two cursors are the same
      obtain ⟨hnone, hsame⟩ := h.idle t c hbatch hf
      have hkept : (own c).ids.fetched = Function.update (own c).ids.fetched t none := by
        rw [← hnone]
        exact (Function.update_eq_self t _).symm
      rw [hstep]
      refine h.issue p own t c (p.idCursor t) _ _ hc hbatch ha ?_ ?_ ?_ ?_ ?_ <;>
        simp only [Allocation.advance, Allocator.advance, hnone, and_idBatch, hsame, ne_eq, hpos,
          not_false_eq_true, if_true]
      exact hkept
    | inr hrefill =>
      obtain ⟨hf, hpos, hstep⟩ := hrefill
      have hused : (own c).ids.fetched t = none ∧ (own c).ids.idCursor t % 1024 = 0 := by
        by_cases hbatch : p.batchOf t = some c
        · obtain ⟨hnone, hcursor⟩ := h.idle t c hbatch hf
          exact ⟨hnone, by rw [hcursor]; exact hpos⟩
        · exact h.elsewhere t c hbatch
      rw [hstep]
      refine h.reserve p own t c cache _ hcache hf hpos ha ?_
      simp [Allocation.advance, Allocator.advance, hused.1, and_idBatch, hused.2]

/-! ## Every step -/

/-- INTERNAL: the state an allocation works on, but for the caches. -/
def cursorState (p : Process T) := (p.idCursor, p.fetched, p.batchOf, p.ids)

/-- INTERNAL: steps that allocate nothing and leave the counters of the caches. -/
theorem Backed.of_same (p p' : Process T) (own : ℕ → Allocation T) (h : Backed p own)
    (hlength : p.caches.length ≤ p'.caches.length)
    (hcounters : ∀ c, ∀ cache ∈ p'.caches[c]?,
      (own c).ids.idHighWater = cache.idHighWater ∧ (own c).reserved = cache.reserved)
    (hsame : cursorState p' = cursorState p) : Backed p' own := by
  simp only [cursorState, Prod.mk.injEq] at hsame
  obtain ⟨hcursor, hfetched, hbatch, hids⟩ := hsame
  refine ⟨h.schedule, hcounters, fun c hc => h.unborn c (Nat.le_trans hlength hc), ?_, ?_, ?_, ?_⟩
  · intro c
    unfold idsOfCache
    rw [hids]
    exact h.returned c
  · rw [hfetched, hbatch]
    exact h.inCall
  · rw [hfetched, hbatch, hcursor]
    exact h.idle
  · rw [hbatch]
    exact h.elsewhere

/-- INTERNAL: a new cache reserves nothing. -/
theorem Backed.create (p : Process T) (own : ℕ → Allocation T) (h : Backed p own)
    (addr pendingBatch : ℕ) : Backed (p.create addr pendingBatch) own := by
  refine h.of_same p _ own (by simp [Process.create]) ?_ rfl
  intro c cache hcache
  by_cases hc : c < p.caches.length
  · simp only [Process.create] at hcache
    rw [List.getElem?_append_left hc] at hcache
    exact h.counters c cache hcache
  · simp only [Process.create] at hcache
    rw [List.getElem?_append_right (Nat.le_of_not_lt hc)] at hcache
    obtain rfl := List.mem_singleton.mp (List.mem_of_getElem? hcache)
    rw [h.unborn c (Nat.le_of_not_lt hc)]
    exact ⟨rfl, rfl⟩

/-- INTERNAL: a cache that goes takes no batch along. -/
theorem Backed.drop (p : Process T) (own : ℕ → Allocation T) (h : Backed p own) (n : ℕ) :
    Backed (p.drop n) own := by
  refine h.of_same p _ own (by simp [Process.drop]) ?_ rfl
  intro c cache hcache
  simp only [Process.drop, List.getElem?_modify] at hcache
  obtain ⟨cache₀, hcache₀, heq⟩ := Option.map_eq_some_iff.mp hcache
  have hcounters := h.counters c cache₀ hcache₀
  rw [← heq]
  split
  · exact hcounters
  · exact hcounters

/-- INTERNAL: a flush touches neither the counters nor the cursor. -/
theorem flushPending_cursorState (p : Process T) (t : T) (c : ℕ) (cache : CacheInstance)
    (full : Bool × Bool) :
    cursorState (p.flushPending t c cache full) = cursorState p ∧
      (p.flushPending t c cache full).caches = p.caches := ⟨rfl, rfl⟩

/-- INTERNAL: a flush reserves nothing. -/
theorem Backed.flushPending (p : Process T) (own : ℕ → Allocation T) (h : Backed p own) (t : T)
    (c : ℕ) (cache : CacheInstance) (full : Bool × Bool) :
    Backed (p.flushPending t c cache full) own := by
  obtain ⟨hsame, hcaches⟩ := flushPending_cursorState p t c cache full
  refine h.of_same p _ own (by rw [hcaches]) ?_ hsame
  rw [hcaches]
  exact h.counters

/-- INTERNAL: nor does a closed span. -/
theorem Backed.close (p : Process T) (own : ℕ → Allocation T) (h : Backed p own) (t : T) (c : ℕ)
    (cache : CacheInstance) (record : SpanRecord) (full : Bool × Bool) :
    Backed (p.close t c cache record full) own := by
  have hpushed : Backed
      { p with
        pendingSpan := Function.update p.pendingSpan t (p.pendingSpan t ++ [(c, record)]) } own :=
    h.of_same p _ own (Nat.le_refl _) h.counters rfl
  simp only [Process.close]
  split
  · exact hpushed.flushPending _ own t c cache full
  · exact hpushed

/-- INTERNAL: nor does an event. -/
theorem Backed.event (p : Process T) (own : ℕ → Allocation T) (h : Backed p own) (t : T) (c : ℕ)
    (cache : CacheInstance) (msg : EventMessage) (full : Bool × Bool) :
    Backed (p.event t c cache msg full) own := by
  have hpushed : Backed
      { p with
        pendingEvent := Function.update p.pendingEvent t (p.pendingEvent t ++ [(c, msg)]) } own :=
    h.of_same p _ own (Nat.le_refl _) h.counters rfl
  simp only [Process.event]
  split
  · exact hpushed.flushPending _ own t c cache full
  · exact hpushed

omit [DecidableEq T] in
/-- INTERNAL: a live cache is listed. -/
theorem getElem?_of_live (p : Process T) (c : ℕ) (cache : CacheInstance)
    (hlive : p.live c = some cache) : p.caches[c]? = some cache := by
  unfold Process.live at hlive
  exact (Option.filter_eq_some_iff.mp hlive).1

/-- INTERNAL: **threads that keep to their batches leave every cache its own allocator**. -/
theorem Backed.step (p : Process T) (a : ProcessStep T) (p' : Process T)
    (h : ∃ own, Backed p own) (hkeeps : KeepsBatch p a) (hstep : p.step a = some p') :
    ∃ own, Backed p' own := by
  obtain ⟨own, h⟩ := h
  cases a with
  | create addr pendingBatch =>
    simp only [Process.step] at hstep
    split at hstep
    · cases hstep
    · cases hstep
      exact ⟨own, h.create p own addr pendingBatch⟩
  | drop c =>
    obtain ⟨cache, -, heq⟩ := Option.map_eq_some_iff.mp hstep
    subst heq
    exact ⟨own, h.drop p own c⟩
  | allocate t c =>
    simp only [Process.step] at hstep
    cases hlive : p.live c with
    | none => simp [hlive] at hstep
    | some cache =>
      have hcache := getElem?_of_live p c cache hlive
      rw [hlive] at hstep
      simp only at hstep
      split at hstep
      · next hfetched =>
        cases hstep
        exact ⟨_, h.allocate p own t c cache hcache hkeeps fun d start hf => by simp_all⟩
      · next d start hfetched =>
        split at hstep
        · next hd =>
          cases hstep
          exact ⟨_, h.allocate p own t c cache hcache hkeeps fun d start hf => by simp_all⟩
        · cases hstep
  | close t c record full =>
    simp only [Process.step] at hstep
    split at hstep
    · next cache hlive hfetched =>
      cases hstep
      exact ⟨own, h.close p own t c cache record full⟩
    · cases hstep
  | event t c msg full =>
    simp only [Process.step] at hstep
    split at hstep
    · next cache hlive hfetched =>
      cases hstep
      exact ⟨own, h.event p own t c cache msg full⟩
    · cases hstep
  | flushPending t c full =>
    simp only [Process.step] at hstep
    split at hstep
    · next cache hlive hfetched =>
      cases hstep
      exact ⟨own, h.flushPending p own t c cache full⟩
    · cases hstep

/-- INTERNAL: a backed cache gave out distinct ids while they last. -/
theorem Backed.distinct (p : Process T) (own : ℕ → Allocation T) (h : Backed p own) (c : ℕ)
    (cache : CacheInstance) (hcache : p.caches[c]? = some cache)
    (hlast : cache.reserved < u64Size) : (idsOfCache p c).Nodup := by
  obtain ⟨threads, hthreads⟩ := h.schedule c
  rw [← (h.counters c cache hcache).2, hthreads] at hlast
  have hsound := (interleave_sound threads hlast).2
  rw [← h.returned c, hthreads]
  exact hsound.distinct

/-- CODE: cache.rs:208-226, cache.rs:298-336, thread_state.rs:51-102 — **when caches are
isolated**: in any run of any number of caches, created, used and dropped in any order and at
addresses taken again, every span and event is sent on the channels of the cache it was recorded
through exactly when no flush finds an item of another cache than its senders' in the thread's
buffers; every flush sends on the channels of the cache it was called for exactly when none that
has something to send finds the thread's senders cloned from another cache at the same address;
and the ids of each cache are distinct, while it has reserved fewer than 2^64, if threads take
the ids of a batch through the cache the batch was reserved from. -/
theorem caches_isolated (steps : List (ProcessStep T)) (p : Process T)
    (hrun : run Process.step Process.start steps = some p) :
    (((∀ x ∈ p.spansSent, x.recordedThrough = x.channel) ∧
        ∀ x ∈ p.eventsSent, x.recordedThrough = x.channel) ↔
      RunsUnder Process.step SendsRecordedThere Process.start steps) ∧
    (((∀ x ∈ p.spansSent, x.flushedThrough = x.channel) ∧
        ∀ x ∈ p.eventsSent, x.flushedThrough = x.channel) ↔
      RunsUnder Process.step FindsNoStaleSenders Process.start steps) ∧
    (RunsUnder Process.step KeepsBatch Process.start steps →
      ∀ c, ∀ cache ∈ p.caches[c]?, cache.reserved < u64Size → (idsOfCache p c).Nodup) := by
  refine ⟨recorded_there_iff steps p hrun, flushed_there_iff steps p hrun, ?_⟩
  intro hkeeps c cache hcache hlast
  obtain ⟨own, hown⟩ := run_invariant_under Process.step KeepsBatch
    (fun p => ∃ own, Backed p own)
    (fun p a p' h hok hstep => Backed.step p a p' h hok hstep) _ steps p ⟨_, backed_start⟩ hkeeps
    hrun
  exact hown.distinct p own c cache hcache hlast

/-- INTERNAL: decidable. -/
instance {α : Type} (good : ℕ → ℕ → ℕ → Prop) [∀ r f ch, Decidable (good r f ch)]
    (full : Bool) (c channel : ℕ) (pending : List (ℕ × α)) :
    Decidable (ItemsMeet good full c channel pending) :=
  inferInstanceAs (Decidable (full = false → ∀ e ∈ pending, good e.1 c channel))

/-- INTERNAL: decidable, so that it can be tested on a run. -/
instance (good : ℕ → ℕ → ℕ → Prop) [∀ r f ch, Decidable (good r f ch)] (p : Process T) (t : T)
    (c : ℕ) (cache : CacheInstance) (full : Bool × Bool) (spans : List (ℕ × SpanRecord))
    (events : List (ℕ × EventMessage)) :
    Decidable (SendsMeet good p t c cache full spans events) :=
  inferInstanceAs (Decidable (_ ∧ _))

/-- INTERNAL: decidable, so that it can be tested on a run. -/
instance (good : ℕ → ℕ → ℕ → Prop) [∀ r f ch, Decidable (good r f ch)] (p : Process T) :
    (a : ProcessStep T) → Decidable (FlushMeets good p a)
  | .flushPending t c full => inferInstanceAs (Decidable (∀ cache ∈ p.live c,
      SendsMeet good p t c cache full (p.pendingSpan t) (p.pendingEvent t)))
  | .close t c record full => inferInstanceAs (Decidable (∀ cache ∈ p.live c,
      cache.pendingBatch ≤ (p.pendingSpan t).length + 1 →
        SendsMeet good p t c cache full (p.pendingSpan t ++ [(c, record)]) (p.pendingEvent t)))
  | .event t c msg full => inferInstanceAs (Decidable (∀ cache ∈ p.live c,
      cache.pendingBatch ≤ (p.pendingEvent t).length + 1 →
        SendsMeet good p t c cache full (p.pendingSpan t) (p.pendingEvent t ++ [(c, msg)])))
  | .create _ _ | .drop _ | .allocate _ _ => inferInstanceAs (Decidable True)

/-- INTERNAL: decidable, so that it can be tested on a run. -/
instance (p : Process T) (a : ProcessStep T) : Decidable (SendsRecordedThere p a) :=
  inferInstanceAs (Decidable (FlushMeets _ p a))

/-- INTERNAL: decidable, so that it can be tested on a run. -/
instance (p : Process T) (a : ProcessStep T) : Decidable (FindsNoStaleSenders p a) :=
  decidable_of_iff _ (flushMeets_channel_iff p a)

/-- INTERNAL: decidable, so that it can be tested on a run. -/
instance (p : Process T) : (a : ProcessStep T) → Decidable (KeepsBatch p a)
  | .allocate t c => inferInstanceAs (Decidable
      (p.fetched t = none → p.idCursor t % 1024 ≠ 0 → p.batchOf t = some c))
  | .create _ _ | .drop _ | .close .. | .event .. | .flushPending .. =>
    inferInstanceAs (Decidable True)

/-- INTERNAL: a closed span. -/
def closedSpan : SpanRecord where
  id := 1024
  parentId := none
  metadata := { name := "span", target := "app", level := .info }
  fields := []
  events := []
  openedAt := 0
  closedAt := some 1

/-- INTERNAL: a thread uses three caches, the last one at the address of the first, and takes
ids from the second before, between and after; another thread takes ids from the third. -/
def threeCaches : List (ProcessStep Bool) :=
  [.create 1 8, .create 2 8, .allocate false 1, .allocate false 1,
    .close false 0 closedSpan (false, false), .flushPending false 0 (false, false),
    .allocate false 1, .close false 1 closedSpan (false, false),
    .flushPending false 1 (false, false), .drop 0, .create 1 8,
    .close false 2 closedSpan (false, false), .flushPending false 2 (false, false),
    .allocate true 2, .allocate true 2, .allocate true 2, .allocate false 1]

/-- CODE: cache.rs:298-336, cache.rs:208-226 — the three spans go on the channels of their own
caches, by flushes of these, and the ids are distinct. -/
theorem caches_isolated_three :
    ∃ p, run Process.step Process.start threeCaches = some p ∧
      (p.spansSent.map fun x => (x.recordedThrough, x.channel)) = [(0, 0), (1, 1), (2, 2)] ∧
      (∀ x ∈ p.spansSent, x.recordedThrough = x.channel) ∧
      (∀ x ∈ p.spansSent, x.flushedThrough = x.channel) ∧
      idsOfCache p 1 = [1024, 1025, 1026] ∧ idsOfCache p 2 = [1024, 1025] ∧
      (idsOfCache p 1).Nodup := by
  obtain ⟨hrecorded, hflushed, hdistinct⟩ := caches_isolated threeCaches _ rfl
  exact ⟨_, rfl, rfl, (hrecorded.mpr (by decide)).1, (hflushed.mpr (by decide)).1, rfl, rfl,
    hdistinct (by decide) 1 _ rfl (by decide)⟩

/-- CODE: cache.rs:298-336, cache.rs:208-226 — what a thread carries over: a span closed through
one cache is sent on another's channels; a flush through a live cache sends on the channels of a
dropped one that had its address; and two spans of one cache have the same id. -/
theorem caches_share_threads :
    (∃ p, run Process.step (Process.start : Process Bool)
        [.create 1 8, .create 2 8, .close false 0 closedSpan (false, false),
          .flushPending false 1 (false, false)] = some p ∧
      (p.spansSent.map fun x => (x.recordedThrough, x.channel)) = [(0, 1)]) ∧
    (∃ p, run Process.step (Process.start : Process Bool)
        [.create 1 8, .flushPending false 0 (false, false), .drop 0, .create 1 8,
          .close false 1 closedSpan (false, false), .flushPending false 1 (false, false)] = some p ∧
      (p.spansSent.map fun x => (x.flushedThrough, x.channel)) = [(1, 0)] ∧
      (p.live 1).isSome) ∧
    ∃ p, run Process.step (Process.start : Process Bool)
        [.create 1 8, .create 2 8, .allocate false 0, .allocate false 0, .allocate false 1,
          .allocate true 1, .allocate true 1, .allocate true 1] = some p ∧
      idsOfCache p 1 = [1025, 1024, 1025] :=
  ⟨⟨_, rfl, rfl⟩, ⟨_, rfl, rfl, rfl⟩, ⟨_, rfl, rfl⟩⟩

end TracingConsole.Analysis
