import Mathlib.Data.List.InsertIdx
import TracingConsole.Model.ObjectPool

/-!
# Every box is in one place

A box is ready in one shard, or held once, or freed, and never two of these; a shard keeps at
most its capacity.  What is ready was reset, so a holder cannot tell a box that was handed out
again from a new one: the pool refines plain allocation, whatever locks fail.
-/

set_option autoImplicit false

namespace TracingConsole.Analysis.Pool

open TracingConsole.Library TracingConsole.Model

variable {α : Type}

/-! ## Plain allocation -/

/-- INTERNAL: **the same steps without a pool**: every box is new, and freed when it is
dropped. -/
def plainStep [Resettable α] (values : List α) : PoolStep α → Option (List α)
  | .acquire _ _ => some (values ++ [Resettable.fresh])
  | .write i v => (values[i]?).map fun _ => values.set i v
  | .clone i => (values[i]?).map fun v => values ++ [v]
  | .drop i _ => (values[i]?).map fun _ => values.eraseIdx i

/-! ## Addresses -/

/-- INTERNAL: the addresses of the ready boxes. -/
def ready (pool : ObjectPool α) : List ℕ := pool.shards.flatten.map PoolBox.address

/-- INTERNAL: the addresses of the boxes that are held. -/
def holding (refs : List (ReuseRef α)) : List ℕ := refs.map fun r => r.boxed.address

/-- INTERNAL: a shard changes, the others stay. -/
theorem flatten_set (shards : List (List (PoolBox α))) (i : ℕ) (boxes boxes' : List (PoolBox α))
    (h : shards[i]? = some boxes) :
    ∃ before after, shards.flatten = before ++ boxes ++ after ∧
      (shards.set i boxes').flatten = before ++ boxes' ++ after := by
  induction shards generalizing i with
  | nil => cases h
  | cons shard shards ih =>
    cases i with
    | zero =>
      cases h
      exact ⟨[], shards.flatten, rfl, rfl⟩
    | succ i =>
      obtain ⟨before, after, hold, hnew⟩ := ih i h
      refine ⟨shard ++ before, after, ?_, ?_⟩
      · rw [List.flatten_cons, hold]
        simp
      · rw [List.set_cons_succ, List.flatten_cons, hnew]
        simp

/-- INTERNAL: a box is popped. -/
theorem ready_pop (pool : ObjectPool α) (i : ℕ) (b : PoolBox α) (rest : List (PoolBox α))
    (h : pool.shards[i]? = some (b :: rest)) :
    (ready pool).Perm (b.address :: ready (pool.setShard i rest)) := by
  obtain ⟨before, after, hold, hnew⟩ := flatten_set pool.shards i (b :: rest) rest h
  unfold ready ObjectPool.setShard
  rw [hold]
  dsimp only
  rw [hnew]
  simp only [List.map_append, List.map_cons, List.append_assoc, List.cons_append]
  exact List.perm_middle

/-- INTERNAL: a box is pushed. -/
theorem ready_push (pool : ObjectPool α) (i : ℕ) (b : PoolBox α) (boxes : List (PoolBox α))
    (h : pool.shards[i]? = some boxes) :
    (ready (pool.setShard i (b :: boxes))).Perm (b.address :: ready pool) := by
  obtain ⟨before, after, hold, hnew⟩ := flatten_set pool.shards i boxes (b :: boxes) h
  unfold ready ObjectPool.setShard
  rw [hold]
  dsimp only
  rw [hnew]
  simp only [List.map_append, List.map_cons, List.append_assoc, List.cons_append]
  exact List.perm_middle

/-- INTERNAL: the shards but one stay, and that one holds `boxes`. -/
theorem mem_setShard (pool : ObjectPool α) (i : ℕ) (boxes other : List (PoolBox α))
    (hmem : other ∈ (pool.setShard i boxes).shards) : other ∈ pool.shards ∨ other = boxes :=
  List.mem_or_eq_of_mem_set hmem

/-! ## The invariant -/

/-- INTERNAL: every address that was allocated is in one place, the shards hold what they may,
and what is ready was reset. -/
structure Kept [Resettable α] (h : PoolHeap α) : Prop where
  once : (ready h.pool ++ holding h.refs ++ h.freed).Perm (List.range h.nextAddress)
  bounded : ∀ boxes ∈ h.pool.shards, boxes.length ≤ h.pool.perShardCapacity
  clean : ∀ boxes ∈ h.pool.shards, ∀ b ∈ boxes, ∃ v, b.value = Resettable.reset v
  home : ∀ r ∈ h.refs, r.shard < h.pool.shards.length
  positive : 0 < h.pool.shards.length

section Kept

variable [Resettable α]

/-- INTERNAL: a power of two is positive. -/
theorem nextPowerOfTwo_pos (n : ℕ) : 0 < nextPowerOfTwo n := by
  unfold nextPowerOfTwo
  split
  · exact Nat.one_pos
  · positivity

/-- INTERNAL: the pool starts empty. -/
theorem kept_start (shardCount perShardCapacity : ℕ) :
    Kept (PoolHeap.start (α := α) shardCount perShardCapacity) where
  once := by
    simp [PoolHeap.start, ObjectPool.new, ready, holding]
  bounded := by
    intro boxes hboxes
    rw [List.eq_of_mem_replicate hboxes]
    exact Nat.zero_le _
  clean := by
    intro boxes hboxes b hb
    rw [List.eq_of_mem_replicate hboxes] at hb
    cases hb
  home := fun r hr => nomatch hr
  positive := by
    simp only [PoolHeap.start, ObjectPool.new, List.length_replicate]
    exact nextPowerOfTwo_pos _

variable (h : PoolHeap α)

/-- INTERNAL: the key of a thread names a shard. -/
theorem Kept.shardOf_lt (hk : Kept h) (key : ℕ) : h.pool.shardOf key < h.pool.shards.length := by
  have hle : key &&& (h.pool.shards.length - 1) ≤ h.pool.shards.length - 1 := Nat.and_le_right
  have hpos := hk.positive
  unfold ObjectPool.shardOf
  omega

/-- INTERNAL: a box is allocated. -/
theorem Kept.allocate (hk : Kept h) (shard : ℕ) (v : α) (hshard : shard < h.pool.shards.length) :
    Kept (h.allocate shard v) where
  once := by
    show (ready h.pool ++ holding (h.refs ++ [_]) ++ h.freed).Perm
      (List.range (h.nextAddress + 1))
    rw [List.range_succ]
    have hmove : (ready h.pool ++ holding (h.refs ++
        [{ boxed := { address := h.nextAddress, value := v }, shard := shard }]) ++ h.freed).Perm
          (ready h.pool ++ holding h.refs ++ h.freed ++ [h.nextAddress]) := by
      simp only [holding, List.map_append, List.map_cons, List.map_nil, List.append_assoc]
      exact (List.perm_append_left_iff _).mpr
        ((List.perm_append_left_iff _).mpr List.perm_append_comm)
    exact hmove.trans (hk.once.append_right _)
  bounded := hk.bounded
  clean := hk.clean
  home := by
    intro r hr
    rcases List.mem_append.mp hr with hold | hnew
    · exact hk.home r hold
    · rw [List.mem_singleton.mp hnew]
      exact hshard
  positive := hk.positive

/-- INTERNAL: a box is taken, or none is free. -/
theorem Kept.tryTake (hk : Kept h) (shard : ℕ) (contended : Bool) (boxes : List (PoolBox α))
    (hboxes : h.pool.shards[shard]? = some boxes) : Kept (h.tryTake shard contended boxes) := by
  have hshard : shard < h.pool.shards.length := (List.getElem?_eq_some_iff.mp hboxes).1
  have hmem : boxes ∈ h.pool.shards := List.mem_of_getElem? hboxes
  unfold PoolHeap.tryTake
  split
  · next b rest =>
    split
    · exact hk.allocate h shard _ hshard
    · refine ⟨?_, ?_, ?_, ?_, ?_⟩
      · show (ready (h.pool.setShard shard rest) ++ holding (h.refs ++ [_]) ++ h.freed).Perm _
        have hmove : (ready (h.pool.setShard shard rest) ++
            holding (h.refs ++ [{ boxed := b, shard := shard }]) ++ h.freed).Perm
              (b.address :: ready (h.pool.setShard shard rest) ++ holding h.refs ++ h.freed) := by
          simp only [holding, List.map_append, List.map_cons, List.map_nil, List.append_assoc,
            List.cons_append, List.nil_append]
          rw [← List.append_assoc, ← List.append_assoc]
          exact List.perm_middle
        have hpop := ((ready_pop h.pool shard b rest hboxes).append_right
          (holding h.refs)).append_right h.freed
        exact hmove.trans (hpop.symm.trans hk.once)
      · intro other hother
        rcases mem_setShard h.pool shard rest other hother with hold | hnew
        · exact hk.bounded other hold
        · have hbound := hk.bounded _ hmem
          rw [List.length_cons] at hbound
          rw [hnew]
          exact Nat.le_of_succ_le hbound
      · intro other hother
        rcases mem_setShard h.pool shard rest other hother with hold | hnew
        · exact hk.clean other hold
        · rw [hnew]
          exact fun c hc => hk.clean _ hmem c (List.mem_cons_of_mem b hc)
      · intro r hr
        show r.shard < (h.pool.shards.set shard rest).length
        rw [List.length_set]
        rcases List.mem_append.mp hr with hold | hnew
        · exact hk.home r hold
        · rw [List.mem_singleton.mp hnew]
          exact hshard
      · show 0 < (h.pool.shards.set shard rest).length
        rw [List.length_set]
        exact hk.positive
  · exact hk.allocate h shard _ hshard

/-- INTERNAL: a box is dropped. -/
theorem Kept.drop (hk : Kept h) (i : ℕ) (contended : Bool) (r : ReuseRef α)
    (hr : h.refs[i]? = some r) (boxes : List (PoolBox α))
    (hboxes : h.pool.shards[r.shard]? = some boxes) :
    Kept ({ h with refs := h.refs.eraseIdx i }.tryReturn r.shard contended boxes
      { r.boxed with value := Resettable.reset r.boxed.value }) := by
  have hmem : boxes ∈ h.pool.shards := List.mem_of_getElem? hboxes
  obtain ⟨hi, hget⟩ := List.getElem?_eq_some_iff.mp hr
  have herase : (holding h.refs).Perm (r.boxed.address :: holding (h.refs.eraseIdx i)) := by
    unfold holding
    rw [← hget]
    exact (List.getElem_cons_eraseIdx_perm hi).symm.map _
  have hhome : ∀ r₁ ∈ h.refs.eraseIdx i, r₁.shard < h.pool.shards.length := fun r₁ hr₁ =>
    hk.home r₁ (List.mem_of_mem_eraseIdx hr₁)
  have hmiddle := ((herase.append_left (ready h.pool)).append_right h.freed).symm.trans hk.once
  unfold PoolHeap.tryReturn
  split
  · next hroom =>
    rw [Bool.and_eq_true] at hroom
    have hlength : boxes.length < h.pool.perShardCapacity := of_decide_eq_true hroom.2
    refine ⟨?_, ?_, ?_, ?_, ?_⟩
    · have hpush := ready_push h.pool r.shard
        { r.boxed with value := Resettable.reset r.boxed.value } boxes hboxes
      have hback := (hpush.append_right (holding (h.refs.eraseIdx i))).append_right h.freed
      refine hback.trans (List.Perm.trans ?_ hmiddle)
      rw [List.append_assoc, List.append_assoc, List.cons_append, List.cons_append]
      exact List.perm_middle.symm
    · intro other hother
      rcases mem_setShard h.pool r.shard _ other hother with hold | hnew
      · exact hk.bounded other hold
      · rw [hnew, List.length_cons]
        exact hlength
    · intro other hother
      rcases mem_setShard h.pool r.shard _ other hother with hold | hnew
      · exact hk.clean other hold
      · rw [hnew]
        intro b hb
        rcases List.mem_cons.mp hb with hreturned | hready
        · rw [hreturned]
          exact ⟨r.boxed.value, rfl⟩
        · exact hk.clean boxes hmem b hready
    · intro r₁ hr₁
      show r₁.shard < (h.pool.shards.set _ _).length
      rw [List.length_set]
      exact hhome r₁ hr₁
    · show 0 < (h.pool.shards.set _ _).length
      rw [List.length_set]
      exact hk.positive
  · refine ⟨?_, hk.bounded, hk.clean, hhome, hk.positive⟩
    refine List.Perm.trans ?_ hmiddle
    show (ready h.pool ++ holding (h.refs.eraseIdx i) ++ (h.freed ++ [r.boxed.address])).Perm _
    rw [List.append_assoc, List.append_assoc]
    refine (List.perm_append_left_iff _).mpr ?_
    rw [← List.append_assoc]
    exact List.perm_append_comm

/-- INTERNAL: **a box never gets to a second place.** -/
theorem Kept.step (hk : Kept h) (a : PoolStep α) (h' : PoolHeap α) (hstep : h.step a = some h') :
    Kept h' := by
  unfold PoolHeap.step at hstep
  cases a with
  | acquire key contended =>
    obtain ⟨boxes, hboxes, hh'⟩ := Option.map_eq_some_iff.mp hstep
    rw [← hh']
    exact hk.tryTake h _ contended boxes hboxes
  | write i v =>
    obtain ⟨r, hr, hh'⟩ := Option.map_eq_some_iff.mp hstep
    obtain ⟨hi, hget⟩ := List.getElem?_eq_some_iff.mp hr
    rw [← hh']
    refine ⟨?_, hk.bounded, hk.clean, ?_, hk.positive⟩
    · have hsame : holding (h.refs.set i { r with boxed := { r.boxed with value := v } }) =
          holding h.refs := by
        unfold holding
        rw [List.map_set]
        refine List.ext_getElem? fun j => ?_
        rw [List.getElem?_set]
        split
        · next hij =>
          rw [← hij, List.getElem?_map, hr, List.length_map, if_pos hi]
          rfl
        · rfl
      show (ready h.pool ++ holding _ ++ h.freed).Perm _
      rw [hsame]
      exact hk.once
    · intro r₁ hr₁
      rcases List.mem_or_eq_of_mem_set hr₁ with hold | hnew
      · exact hk.home r₁ hold
      · rw [hnew]
        exact hk.home r (List.mem_of_getElem? hr)
  | clone i =>
    obtain ⟨r, hr, hh'⟩ := Option.map_eq_some_iff.mp hstep
    rw [← hh']
    exact hk.allocate h r.shard _ (hk.home r (List.mem_of_getElem? hr))
  | drop i contended =>
    dsimp only at hstep
    split at hstep
    · next r hr =>
      obtain ⟨boxes, hboxes, hh'⟩ := Option.map_eq_some_iff.mp hstep
      rw [← hh']
      exact hk.drop h i contended r hr boxes hboxes
    · cases hstep

/-! ## The refinement -/

/-- INTERNAL: **one step is a step of plain allocation**, if a reset value is as good as new. -/
theorem Kept.refines (hk : Kept h) (hreset : ∀ v : α, Resettable.reset v = Resettable.fresh)
    (a : PoolStep α) : (h.step a).map PoolHeap.values = plainStep h.values a := by
  have hvalue (i : ℕ) : h.values[i]? = (h.refs[i]?).map fun r => r.boxed.value :=
    List.getElem?_map
  unfold PoolHeap.step plainStep
  cases a with
  | acquire key contended =>
    have hlt := hk.shardOf_lt h key
    have hshard : h.pool.shards[h.pool.shardOf key]? = some h.pool.shards[h.pool.shardOf key] :=
      List.getElem?_eq_getElem hlt
    have hclean := hk.clean _ (List.getElem_mem hlt)
    dsimp only
    rw [hshard, Option.map_some, Option.map_some]
    refine congrArg some ?_
    unfold PoolHeap.tryTake
    split
    · next b rest hboxes =>
      split
      · simp [PoolHeap.values, PoolHeap.allocate]
      · obtain ⟨v, hv⟩ := hclean b (by rw [hboxes]; exact List.mem_cons_self)
        rw [hreset] at hv
        simp [PoolHeap.values, hv]
    · simp [PoolHeap.values, PoolHeap.allocate]
  | write i v =>
    dsimp only
    rw [hvalue, Option.map_map, Option.map_map]
    refine congrArg (fun f => (h.refs[i]?).map f) ?_
    funext r
    simp [PoolHeap.values, List.map_set]
  | clone i =>
    dsimp only
    rw [hvalue, Option.map_map, Option.map_map]
    refine congrArg (fun f => (h.refs[i]?).map f) ?_
    funext r
    simp [PoolHeap.values, PoolHeap.allocate]
  | drop i contended =>
    dsimp only
    rw [hvalue]
    cases hr : h.refs[i]? with
    | none => rfl
    | some r =>
      have hlt := hk.home r (List.mem_of_getElem? hr)
      dsimp only
      rw [List.getElem?_eq_getElem hlt]
      simp only [Option.map_some]
      refine congrArg some ?_
      unfold PoolHeap.tryReturn
      split <;> simp [PoolHeap.values, List.eraseIdx_map]

end Kept

/-- INTERNAL: every run of the pool is the run of plain allocation. -/
theorem run_plain [Resettable α] (hreset : ∀ v : α, Resettable.reset v = Resettable.fresh)
    (steps : List (PoolStep α)) (h : PoolHeap α) (hk : Kept h) :
    (run PoolHeap.step h steps).map PoolHeap.values = run plainStep h.values steps := by
  induction steps generalizing h with
  | nil => rfl
  | cons a steps ih =>
    have hstep := hk.refines h hreset a
    rw [run_cons, run_cons, ← hstep]
    cases hnext : h.step a with
    | none => rfl
    | some h' =>
      show (run PoolHeap.step h' steps).map PoolHeap.values = run plainStep h'.values steps
      exact ih h' (hk.step h a h' hnext)

/-- INTERNAL: an event that is reset is a fresh one. -/
theorem reset_event (record : EventRecord) : Resettable.reset record = Resettable.fresh := rfl

/-- CODE: object_pool.rs:43-201, record.rs:161-167 — **pooled event records are as good as
new**: in every run of acquires, writes, clones and drops on any threads, whichever locks fail,
the holders see what they would see if every record was allocated anew, no step is refused that
plain allocation would take, each box is ready in one shard or held once or freed, and no shard
has more boxes than its capacity. -/
theorem event_records_pooled (shardCount perShardCapacity : ℕ)
    (steps : List (PoolStep EventRecord)) :
    (run PoolHeap.step (PoolHeap.start shardCount perShardCapacity) steps).map PoolHeap.values =
        run plainStep [] steps ∧
      ∀ h ∈ run PoolHeap.step (PoolHeap.start shardCount perShardCapacity) steps,
        (ready h.pool ++ holding h.refs ++ h.freed).Perm (List.range h.nextAddress) ∧
          (ready h.pool ++ holding h.refs ++ h.freed).Nodup ∧
          ∀ boxes ∈ h.pool.shards, boxes.length ≤ h.pool.perShardCapacity := by
  have hstart := kept_start (α := EventRecord) shardCount perShardCapacity
  refine ⟨run_plain reset_event steps _ hstart, fun h hrun => ?_⟩
  have hk := run_invariant PoolHeap.step Kept
    (fun h a h' hk hstep => hk.step h a h' hstep) _ steps h hstart hrun
  exact ⟨hk.once, hk.once.nodup_iff.mpr List.nodup_range, hk.bounded⟩

/-- INTERNAL: a record is filled, dropped, and a box acquired again on the same thread. -/
def reuse : List (PoolStep EventRecord) :=
  [.acquire 3 false, .write 0 { metadata := none, fields := [("k", .u64 1)], recordedAt := some 7 },
    .drop 0 false, .acquire 3 false]

/-- CODE: object_pool.rs:60-67 — the same box, and nothing left in it. -/
theorem event_records_pooled_reuse :
    ∃ h, run PoolHeap.step (PoolHeap.start 2 1) reuse = some h ∧ holding h.refs = [0] ∧
      h.values = [Resettable.fresh] ∧
      (ready h.pool ++ holding h.refs ++ h.freed).Nodup := by
  refine ⟨_, rfl, rfl, rfl, ?_⟩
  exact ((event_records_pooled 2 1 reuse).2 _ rfl).2.1

end TracingConsole.Analysis.Pool
