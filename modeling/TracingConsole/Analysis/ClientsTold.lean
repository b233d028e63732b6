import TracingConsole.Analysis.BusMoves

/-!
# Clients are told what the cache applies

Every step of the bus is a move of both cells, so a run keeps the clients told until the
first send that is out of order, and no longer.
-/

set_option autoImplicit false

namespace TracingConsole.Analysis.LevelBus

open TracingConsole.Library TracingConsole.Model

variable {C : Type} [DecidableEq C]

/-- INTERNAL: what a run keeps: stores come with their sends, and the receivers are current. -/
structure Announcing (b : Bus C) : Prop where
  paired : ∀ c, Paired (b.connection c).todo
  level : (levelCell b).Current
  chance : (chanceCell b).Current

omit [DecidableEq C] in
/-- INTERNAL: a new bus has announced its level and its chance. -/
theorem announcing_new (level : LevelFilter) (chance : F64) :
    Announcing (Bus.new level chance : Bus C) where
  paired := fun _ => trivial
  level := fun r hr => by cases hr
  chance := fun r hr => by cases hr

/-- INTERNAL: what one step preserves. -/
theorem step_announcing (b b' : Bus C) (l : BusStep C) (hb : Announcing b)
    (h : b.step l = some b') : Announcing b' := by
  obtain ⟨hlevel, hchance⟩ := step_moves b b' l hb.paired h
  exact ⟨step_paired b b' l hb.paired h, Cell.current_moves _ _ _ hlevel hb.level,
    Cell.current_moves _ _ _ hchance hb.chance⟩

/-! ## Told and applied -/

/-- INTERNAL: with no level request between its store and its send, the level watch holds what
the level handle does, and every stream that sent its client a level and has no change to read
sent that one last; and the same of the chance. -/
structure ClientsTold (b : Bus C) : Prop where
  level : (∀ c, sendsLevel (b.connection c).todo = none) →
    b.levelTx.value = WireLevelFilter.fromTracing b.level ∧
      ∀ stream ∈ b.streams, ∀ rx ∈ stream.levelRx, rx.sent ≠ none →
        rx.seen = b.levelTx.version → rx.sent = some (WireLevelFilter.fromTracing b.level)
  chance : (∀ c, sendsChance (b.connection c).todo = none) →
    b.chanceTx.value = b.chanceHandle ∧
      ∀ stream ∈ b.streams, ∀ rx ∈ stream.chanceRx, rx.sent ≠ none →
        rx.seen = b.chanceTx.version → rx.sent = some b.chanceHandle

omit [DecidableEq C] in
/-- INTERNAL: the clients are told when both cells are. -/
theorem clientsTold_iff (b : Bus C) :
    ClientsTold b ↔ (levelCell b).Told ∧ (chanceCell b).Told := by
  constructor
  · intro h
    refine ⟨fun hquiet => ?_, fun hquiet => ?_⟩
    · obtain ⟨hvalue, hstreams⟩ := h.level hquiet
      refine ⟨hvalue, fun r hr => ?_⟩
      obtain ⟨stream, hstream, hrx⟩ := List.mem_filterMap.mp hr
      exact hstreams stream hstream r hrx
    · obtain ⟨hvalue, hstreams⟩ := h.chance hquiet
      refine ⟨hvalue, fun r hr => ?_⟩
      obtain ⟨stream, hstream, hrx⟩ := List.mem_filterMap.mp hr
      exact hstreams stream hstream r hrx
  · intro h
    refine ⟨fun hquiet => ?_, fun hquiet => ?_⟩
    · obtain ⟨hvalue, hreceivers⟩ := h.1 hquiet
      refine ⟨hvalue, fun stream hstream rx hrx => ?_⟩
      exact hreceivers rx (List.mem_filterMap.mpr ⟨stream, hstream, hrx⟩)
    · obtain ⟨hvalue, hreceivers⟩ := h.2 hquiet
      refine ⟨hvalue, fun stream hstream rx hrx => ?_⟩
      exact hreceivers rx (List.mem_filterMap.mpr ⟨stream, hstream, hrx⟩)

/-- INTERNAL: a send that leaves no other update of its value between store and send sends
what the handle holds, to a channel with a receiver; or, with no receiver, the channel holds
it already. -/
def InOrder (b : Bus C) (l : BusStep C) : Prop :=
  (∀ c filter, sentLevel b l = some (c, filter) → (levelCell b).Settles c filter) ∧
    ∀ c pct, sentChance b l = some (c, pct) → (chanceCell b).Settles c pct

omit [DecidableEq C] in
/-- INTERNAL: a new bus has no client to tell. -/
theorem clientsTold_new (level : LevelFilter) (chance : F64) :
    ClientsTold (Bus.new level chance : Bus C) where
  level := fun _ => by
    refine ⟨?_, fun stream hstream => by cases hstream⟩
    cases level <;> rfl
  chance := fun _ => ⟨rfl, fun stream hstream => by cases hstream⟩

/-- INTERNAL: a step leaves the clients told exactly when its sends are in order. -/
theorem inOrder_iff (b b' : Bus C) (l : BusStep C) (hb : Announcing b) (htold : ClientsTold b)
    (h : b.step l = some b') : InOrder b l ↔ ClientsTold b' := by
  obtain ⟨hlevel, hchance⟩ := step_moves b b' l hb.paired h
  have hcells := (clientsTold_iff b).mp htold
  rw [clientsTold_iff, Cell.told_moves_iff _ _ _ hlevel hb.level hcells.1,
    Cell.told_moves_iff _ _ _ hchance hb.chance hcells.2]
  exact Iff.rfl

/-- CODE: server.rs:83-107, 186-251, 271-303 — **the clients are told what the cache applies
exactly in the runs whose sends are in order**. -/
theorem clients_told_iff (level : LevelFilter) (chance : F64) (steps : List (BusStep C))
    (b : Bus C) (hrun : run Bus.step (Bus.new level chance) steps = some b) :
    RunsUnder Bus.step InOrder (Bus.new level chance) steps ↔
      ∀ before after b₁, steps = before ++ after →
        run Bus.step (Bus.new level chance) before = some b₁ → ClientsTold b₁ :=
  runsUnder_iff_passed Bus.step InOrder Announcing ClientsTold
    (fun b l b' hb h => step_announcing b b' l hb h)
    (fun b l b' hb htold h => inOrder_iff b b' l hb htold h) (Bus.new level chance) steps b
    (announcing_new level chance) (clientsTold_new level chance) hrun

/-! ## Two runs that end with the client told something else -/

/-- INTERNAL: the connection starts a stream, which sends the level and the chance. -/
def startsStream (c : Bool) (n : ℕ) : List (BusStep Bool) :=
  [.request c .startStream, .perform c, .perform c, .perform c, .pushLevel n, .pushChance n]

/-- INTERNAL: two requests store in one order and send in the other. -/
def crossedRequests : List (BusStep Bool) :=
  startsStream false 0 ++ startsStream true 1 ++
    [.request false (.setCacheLevel .info), .request true (.setCacheLevel .debug),
      .perform false, .perform true, .perform true, .perform false, .pushLevel 0]

/-- INTERNAL: a request of a connection before any stream has started. -/
def unheardRequest : List (BusStep Bool) :=
  [.request false (.setCacheLevel .info), .perform false, .perform false]

/-- CODE: server.rs:83-107 — with both requests done the cache records at DEBUG and the client
was told INFO; and a request made while nobody streams does not reach the watch at all. -/
theorem clients_told_otherwise :
    (∃ b, run Bus.step (Bus.new .off F64.hundred : Bus Bool) crossedRequests = some b ∧
      (∀ c, (b.connection c).todo = []) ∧ b.level = .debug ∧ b.levelTx.value = .info ∧
      ∃ stream ∈ b.streams, ∃ rx ∈ stream.levelRx,
        rx.seen = b.levelTx.version ∧ rx.sent = some .info) ∧
    (∃ b, run Bus.step (Bus.new .off F64.hundred : Bus Bool) unheardRequest = some b ∧
      (∀ c, (b.connection c).todo = []) ∧ b.level = .info ∧ b.levelTx.value = .off) := by
  constructor
  · refine ⟨_, rfl, by decide, by decide, by decide, _, List.mem_cons_self, _, rfl, ?_, ?_⟩
    · decide
    · decide
  · exact ⟨_, rfl, by decide, by decide, by decide⟩

/-- INTERNAL: sends of two connections can be tested. -/
instance {α : Type} [DecidableEq α] (b : Cell Bool α) (c : Bool) (v : α) :
    Decidable (b.Settles c v) :=
  inferInstanceAs (Decidable ((∃ q, q ≠ c ∧ b.sending q ≠ none) ∨ (_ ∧ _) ∨ (_ ∧ _)))

/-- INTERNAL: decidable, so that it can be tested on a run. -/
instance (b : Bus Bool) (l : BusStep Bool) : Decidable (InOrder b l) :=
  decidable_of_iff
    ((∀ s ∈ sentLevel b l, (levelCell b).Settles s.1 s.2) ∧
      ∀ s ∈ sentChance b l, (chanceCell b).Settles s.1 s.2)
    ⟨fun h => ⟨fun c filter hs => h.1 (c, filter) hs, fun c pct hs => h.2 (c, pct) hs⟩,
      fun h => ⟨fun s hs => h.1 s.1 s.2 hs, fun s hs => h.2 s.1 s.2 hs⟩⟩
/-- CODE: server.rs:83-107 — a console that sets the level of its own stream, and reads it: the
clients are told at every moment, and at the end the stream has sent what the cache applies. -/
theorem clients_told_iff_one_console :
    ∃ b, run Bus.step (Bus.new .off F64.hundred : Bus Bool)
        (startsStream false 0 ++ unheardRequest ++ [.pushLevel 0]) = some b ∧
      b.level = .info ∧
      ∀ before after b₁, startsStream false 0 ++ unheardRequest ++ [.pushLevel 0] =
          before ++ after →
        run Bus.step (Bus.new .off F64.hundred : Bus Bool) before = some b₁ → ClientsTold b₁ :=
  ⟨_, rfl, rfl, (clients_told_iff .off F64.hundred
    (startsStream false 0 ++ unheardRequest ++ [.pushLevel 0]) _ rfl).mp (by decide +kernel)⟩

end TracingConsole.Analysis.LevelBus
