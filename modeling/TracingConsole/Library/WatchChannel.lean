import Mathlib

/-!
# Watch channels

A watch channel holds one value and the number of times it was replaced; a receiver
remembers the version it read last.  A send while no receiver is subscribed is refused and
leaves the channel as it was.

A `Cell` is a value that is applied in one place and announced on a watch channel.  A
party's update first applies the value and then sends it, and the other parties may move
in between.  `Told` says that the channel and everyone who is up to date with it know the
value that is applied; only a send can break it, and `told_send_iff` says which.
-/

set_option autoImplicit false

namespace TracingConsole.Library

variable {P α : Type}

/-- INTERNAL: the sender's side of a watch channel. -/
structure Watch (α : Type) where
  value : α
  version : ℕ
  receivers : ℕ
deriving DecidableEq

namespace Watch

/-- INTERNAL: a channel whose first receiver has been dropped. -/
def channel (v : α) : Watch α := { value := v, version := 0, receivers := 0 }

/-- INTERNAL: a send reaches the channel only if a receiver is subscribed. -/
def send (w : Watch α) (v : α) : Watch α :=
  if w.receivers = 0 then w else { w with value := v, version := w.version + 1 }

/-- INTERNAL: one more receiver. -/
def subscribe (w : Watch α) : Watch α := { w with receivers := w.receivers + 1 }

/-- INTERNAL: one receiver less. -/
def dropReceiver (w : Watch α) : Watch α := { w with receivers := w.receivers - 1 }

end Watch

/-- INTERNAL: the version a receiver read last, and the value it passed on last. -/
structure Receiver (α : Type) where
  seen : ℕ
  sent : Option α
deriving DecidableEq

/-- INTERNAL: a receiver that has just read the channel and passed its value on. -/
def Watch.forwarded (w : Watch α) : Receiver α := { seen := w.version, sent := some w.value }

/-! ## A value and its channel -/

/-- INTERNAL: a value, the channel it is announced on, the values the parties are about to
send and the receivers of the channel. -/
structure Cell (P α : Type) where
  applied : α
  watch : Watch α
  sending : P → Option α
  receivers : List (Receiver α)

namespace Cell

/-- INTERNAL: no party is between applying a value and sending it. -/
def Quiet (b : Cell P α) : Prop := ∀ p, b.sending p = none

/-- INTERNAL: a receiver that has passed a value on is at most at the channel's version, and
if it is at that version it passed on the channel's value. -/
def Current (b : Cell P α) : Prop :=
  ∀ r ∈ b.receivers, r.sent ≠ none →
    r.seen ≤ b.watch.version ∧ (r.seen = b.watch.version → r.sent = some b.watch.value)

/-- INTERNAL: with no update under way the channel holds the value that is applied, and so
does every receiver that passed a value on and has no change to read. -/
def Told (b : Cell P α) : Prop :=
  b.Quiet → b.watch.value = b.applied ∧
    ∀ r ∈ b.receivers, r.sent ≠ none → r.seen = b.watch.version → r.sent = some b.applied

/-- INTERNAL: the party `p` may send `v`: another party is still to send, or `v` is the value
applied and a receiver is subscribed, or none is and the channel holds that value already. -/
def Settles (b : Cell P α) (p : P) (v : α) : Prop :=
  (∃ q, q ≠ p ∧ b.sending q ≠ none) ∨
    (0 < b.watch.receivers ∧ v = b.applied) ∨
    (b.watch.receivers = 0 ∧ b.watch.value = b.applied)

/-- INTERNAL: a step that applies and sends nothing: receivers come, go and read. -/
structure Rests (b b' : Cell P α) : Prop where
  applied : b'.applied = b.applied
  value : b'.watch.value = b.watch.value
  version : b'.watch.version = b.watch.version
  sending : b'.sending = b.sending
  receivers : ∀ r ∈ b'.receivers, r ∈ b.receivers ∨ r.sent = none ∨ r = b.watch.forwarded

/-- INTERNAL: a step that applies a value which is then to be sent. -/
structure Applies (b b' : Cell P α) : Prop where
  sending : ∃ p, b'.sending p ≠ none
  watch : b'.watch = b.watch
  receivers : b'.receivers = b.receivers

/-- INTERNAL: a step of the party `p` that sends `v`. -/
structure Sends [DecidableEq P] (b b' : Cell P α) (p : P) (v : α) : Prop where
  before : b.sending p = some v
  applied : b'.applied = b.applied
  sending : b'.sending = Function.update b.sending p none
  watch : b'.watch = b.watch.send v
  receivers : b'.receivers = b.receivers

/-- INTERNAL: receivers that come, go and read are current still. -/
theorem current_rests (b b' : Cell P α) (h : Rests b b') (hcurrent : Current b) :
    Current b' := by
  intro r hr hsent
  rw [h.version, h.value]
  cases h.receivers r hr with
  | inl hold => exact hcurrent r hold hsent
  | inr hnew =>
    have hread : r = b.watch.forwarded := hnew.resolve_left hsent
    rw [hread]
    exact ⟨Nat.le_refl _, fun _ => rfl⟩

/-- INTERNAL: applying a value touches no receiver. -/
theorem current_applies (b b' : Cell P α) (h : Applies b b') (hcurrent : Current b) :
    Current b' := by
  intro r hr hsent
  rw [h.receivers] at hr
  rw [h.watch]
  exact hcurrent r hr hsent

/-- INTERNAL: a value that is sent is ahead of every receiver. -/
theorem current_sends [DecidableEq P] (b b' : Cell P α) (p : P) (v : α) (h : Sends b b' p v)
    (hcurrent : Current b) : Current b' := by
  intro r hr hsent
  rw [h.receivers] at hr
  rw [h.watch]
  have hbefore := hcurrent r hr hsent
  by_cases hnone : b.watch.receivers = 0
  · rw [Watch.send, if_pos hnone]
    exact hbefore
  · rw [Watch.send, if_neg hnone]
    -- the version moved on, so the receiver has a change to read
    have hlt : r.seen < b.watch.version + 1 := Nat.lt_succ_of_le hbefore.1
    exact ⟨Nat.le_of_lt hlt, fun heq => absurd heq (Nat.ne_of_lt hlt)⟩

/-- INTERNAL: receivers that come, go and read have been told still. -/
theorem told_rests (b b' : Cell P α) (h : Rests b b') (htold : Told b) : Told b' := by
  intro hquiet
  have hbefore : b.Quiet := by
    intro p
    rw [← h.sending]
    exact hquiet p
  obtain ⟨hvalue, hreceivers⟩ := htold hbefore
  refine ⟨by rw [h.value, h.applied, hvalue], ?_⟩
  intro r hr hsent hseen
  rw [h.applied]
  cases h.receivers r hr with
  | inl hold =>
    rw [h.version] at hseen
    exact hreceivers r hold hsent hseen
  | inr hnew =>
    have hread : r = b.watch.forwarded := hnew.resolve_left hsent
    rw [hread, ← hvalue]
    rfl

/-- INTERNAL: between applying a value and sending it nothing is promised. -/
theorem told_applies (b b' : Cell P α) (h : Applies b b') : Told b' := by
  intro hquiet
  obtain ⟨p, hp⟩ := h.sending
  exact absurd (hquiet p) hp

/-- INTERNAL: a cell whose receivers are current is told when its channel holds the value
that is applied. -/
theorem told_of_value (b : Cell P α) (hcurrent : Current b) (hvalue : b.watch.value = b.applied) :
    Told b := by
  intro _
  refine ⟨hvalue, fun r hr hsent hseen => ?_⟩
  rw [← hvalue]
  exact (hcurrent r hr hsent).2 hseen

/-- INTERNAL: **a send keeps everyone told exactly when the party may send**. -/
theorem told_send_iff [DecidableEq P] (b b' : Cell P α) (p : P) (v : α) (h : Sends b b' p v)
    (hcurrent : Current b) : Told b' ↔ Settles b p v := by
  have hquiet : b'.Quiet ↔ ¬ ∃ q, q ≠ p ∧ b.sending q ≠ none := by
    constructor
    · intro hquiet hother
      obtain ⟨q, hq, hsending⟩ := hother
      have hafter := hquiet q
      rw [h.sending, Function.update_of_ne hq] at hafter
      exact hsending hafter
    · intro hnone q
      rw [h.sending]
      by_cases hq : q = p
      · rw [hq, Function.update_self]
      · rw [Function.update_of_ne hq]
        by_contra hsending
        exact hnone ⟨q, hq, hsending⟩
  have hvalue : b'.watch.value = b'.applied ↔
      (0 < b.watch.receivers ∧ v = b.applied) ∨
        (b.watch.receivers = 0 ∧ b.watch.value = b.applied) := by
    rw [h.watch, h.applied, Watch.send]
    by_cases hnone : b.watch.receivers = 0
    · simp [hnone]
    · simp [hnone, Nat.pos_of_ne_zero hnone]
  constructor
  · intro htold
    by_cases hother : ∃ q, q ≠ p ∧ b.sending q ≠ none
    · exact Or.inl hother
    · exact Or.inr (hvalue.mp (htold (hquiet.mpr hother)).1)
  · intro hsettles
    cases hsettles with
    | inl hother => exact fun hnone => absurd hother (hquiet.mp hnone)
    | inr hsame => exact told_of_value b' (current_sends b b' p v h hcurrent) (hvalue.mpr hsame)

/-- INTERNAL: a step that sends nothing, or sends `v` for the party `p`. -/
inductive Moves [DecidableEq P] (b b' : Cell P α) : Option (P × α) → Prop
  | rests (h : Rests b b') : Moves b b' none
  | applies (h : Applies b b') : Moves b b' none
  | sends (p : P) (v : α) (h : Sends b b' p v) : Moves b b' (some (p, v))

/-- INTERNAL: what one step preserves. -/
theorem current_moves [DecidableEq P] (b b' : Cell P α) (sent : Option (P × α))
    (h : Moves b b' sent) (hcurrent : Current b) : Current b' := by
  cases h with
  | rests h => exact current_rests b b' h hcurrent
  | applies h => exact current_applies b b' h hcurrent
  | sends p v h => exact current_sends b b' p v h hcurrent

/-- INTERNAL: a step keeps everyone told exactly when what it sends may be sent. -/
theorem told_moves_iff [DecidableEq P] (b b' : Cell P α) (sent : Option (P × α))
    (h : Moves b b' sent) (hcurrent : Current b) (htold : Told b) :
    Told b' ↔ ∀ p v, sent = some (p, v) → Settles b p v := by
  cases h with
  | rests h =>
    refine ⟨fun _ p v hsent => ?_, fun _ => told_rests b b' h htold⟩
    cases hsent
  | applies h =>
    refine ⟨fun _ p v hsent => ?_, fun _ => told_applies b b' h⟩
    cases hsent
  | sends p v h =>
    rw [told_send_iff b b' p v h hcurrent]
    constructor
    · intro hsettles q w hsent
      cases hsent
      exact hsettles
    · intro hsettles
      exact hsettles p v rfl

end Cell

end TracingConsole.Library
