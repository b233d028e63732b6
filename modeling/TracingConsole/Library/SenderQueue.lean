import Mathlib

/-!
# A queue shared by senders

Messages wait in one list, each under the sender it came from.  The receiver may interleave
the senders in any way, but it takes the messages of one sender in the order they were sent:
`takeFrom k` is the oldest message of sender `k`, `takeAll ks` takes one message after the
other.

`takeAll_perm` says that nothing is lost or doubled, `takeAll_filter` that any group of
messages that is a sender's is taken in order.
-/

set_option autoImplicit false

namespace TracingConsole.Library

variable {κ α : Type} [DecidableEq κ]

/-- INTERNAL: the oldest message of a sender, and the queue without it. -/
def takeFrom (k : κ) : List (κ × α) → Option ((κ × α) × List (κ × α))
  | [] => none
  | e :: queue =>
    if e.1 = k then some (e, queue)
    else (takeFrom k queue).map fun r => (r.1, e :: r.2)

/-- INTERNAL: take a message of each of these senders, in this order. -/
def takeAll : List κ → List (κ × α) → Option (List (κ × α) × List (κ × α))
  | [], queue => some ([], queue)
  | k :: ks, queue =>
    match takeFrom k queue with
    | none => none
    | some (e, rest) => (takeAll ks rest).map fun r => (e :: r.1, r.2)

/-- INTERNAL: what is taken was in the queue, behind other senders' messages only. -/
theorem takeFrom_eq_some (k : κ) (queue rest : List (κ × α)) (e : κ × α)
    (h : takeFrom k queue = some (e, rest)) :
    e.1 = k ∧ ∃ before after, queue = before ++ e :: after ∧ rest = before ++ after ∧
      ∀ x ∈ before, x.1 ≠ k := by
  induction queue generalizing rest with
  | nil => cases h
  | cons x queue ih =>
    unfold takeFrom at h
    by_cases hx : x.1 = k
    · rw [if_pos hx] at h
      cases h
      exact ⟨hx, [], queue, rfl, rfl, fun x hx => by cases hx⟩
    · rw [if_neg hx, Option.map_eq_some_iff] at h
      obtain ⟨⟨e', rest'⟩, htake, heq⟩ := h
      cases heq
      obtain ⟨hkey, before, after, hqueue, hrest, hbefore⟩ := ih rest' htake
      refine ⟨hkey, x :: before, after, by rw [hqueue]; rfl, by rw [hrest]; rfl, ?_⟩
      intro y hy
      cases List.mem_cons.mp hy with
      | inl hyx => exact hyx ▸ hx
      | inr hy => exact hbefore y hy

/-- INTERNAL: the first key is taken, then the others. -/
theorem takeAll_cons (k : κ) (ks : List κ) (queue taken rest : List (κ × α))
    (h : takeAll (k :: ks) queue = some (taken, rest)) :
    ∃ e middle taken', takeFrom k queue = some (e, middle) ∧
      takeAll ks middle = some (taken', rest) ∧ taken = e :: taken' := by
  unfold takeAll at h
  cases hfirst : takeFrom k queue with
  | none => simp [hfirst] at h
  | some r =>
    obtain ⟨e, middle⟩ := r
    rw [hfirst] at h
    simp only [Option.map_eq_some_iff] at h
    obtain ⟨⟨taken', rest'⟩, hnext, heq⟩ := h
    cases heq
    exact ⟨e, middle, taken', rfl, hnext, rfl⟩

/-- INTERNAL: what is taken and what is left are the queue. -/
theorem takeAll_perm (ks : List κ) (queue taken rest : List (κ × α))
    (h : takeAll ks queue = some (taken, rest)) : queue.Perm (taken ++ rest) := by
  induction ks generalizing queue taken with
  | nil =>
    cases h
    exact List.Perm.refl _
  | cons k ks ih =>
    obtain ⟨e, middle, taken', hfirst, hnext, rfl⟩ := takeAll_cons k ks queue taken rest h
    obtain ⟨-, before, after, rfl, rfl, -⟩ := takeFrom_eq_some k queue middle e hfirst
    exact List.perm_middle.trans ((ih _ taken' hnext).cons e)

/-- INTERNAL: a group of messages that shares its senders with no other message is taken in
order. -/
theorem takeAll_filter (p : κ × α → Bool) (ks : List κ) (queue taken rest : List (κ × α))
    (hown : ∀ e ∈ queue, ∀ e' ∈ queue, p e → (p e' ↔ e'.1 = e.1))
    (h : takeAll ks queue = some (taken, rest)) :
    queue.filter p = taken.filter p ++ rest.filter p := by
  induction ks generalizing queue taken with
  | nil =>
    cases h
    rfl
  | cons k ks ih =>
    obtain ⟨e, middle, taken', hfirst, hnext, rfl⟩ := takeAll_cons k ks queue taken rest h
    obtain ⟨hkey, before, after, rfl, rfl, hbefore⟩ := takeFrom_eq_some k queue middle e hfirst
    have hmiddle : (before ++ after).filter p = taken'.filter p ++ rest.filter p := by
      refine ih _ taken' (fun x hx x' hx' => hown x ?_ x' ?_) hnext
      · simpa using Or.imp_right Or.inr (List.mem_append.mp hx)
      · simpa using Or.imp_right Or.inr (List.mem_append.mp hx')
    by_cases hp : p e = true
    · -- the messages before it are other senders', so none of them is of the group
      have hnone : before.filter p = [] := by
        rw [List.filter_eq_nil_iff]
        intro x hx hpx
        have hsame := (hown x (by simp [hx]) e (by simp) hpx).mp hp
        exact hbefore x hx (hsame ▸ hkey)
      rw [List.filter_append, hnone, List.nil_append] at hmiddle
      rw [List.filter_append, hnone, List.filter_cons_of_pos hp, List.filter_cons_of_pos hp,
        hmiddle]
      rfl
    · rw [List.filter_append, List.filter_cons_of_neg hp, List.filter_cons_of_neg hp,
        ← List.filter_append, hmiddle]

end TracingConsole.Library
