import TracingConsole.Library.FiniteLinks

/-!
# Listings of trees

Links that lead from an element up to the one above it make trees when they are acyclic and an
element has at most one: then nothing is below two elements with a common link
(`siblings_apart`).

A listing of such a tree is a list of rows, some of them the head of an element.  It is nested
when the rows below an element come right behind its head and nowhere else.  `Nested.cons` and
`Nested.flatMap` build such a listing the way a walk does: a head, then the listings below it
one after the other.
-/

set_option autoImplicit false

namespace TracingConsole.Library

open Relation

/-! ## Trees of links -/

section Links

variable {α : Type} (R : α → α → Prop)

/-- INTERNAL: an element has at most one link. -/
def SingleLink : Prop := ∀ x y z, R x y → R x z → y = z

/-- INTERNAL: two elements with links to `p` and a common element below them are one. -/
theorem siblings_apart (hacyclic : Acyclic R) (hsingle : SingleLink R) (p c c' x : α)
    (hc : R c p) (hc' : R c' p) (hx : ReflTransGen R x c) (hx' : ReflTransGen R x c') :
    c = c' := by
  have habove (u v : α) (hu : R u p) (hv : R v p) (huv : ReflTransGen R u v) : u = v := by
    rcases ReflTransGen.cases_head huv with heq | ⟨q, hq, hrest⟩
    · exact heq
    · rw [hsingle u q p hq hu] at hrest
      exact absurd (TransGen.tail' hrest hv) (hacyclic p)
  have hright : Relator.RightUnique R := fun u v w huv huw => hsingle u v w huv huw
  rcases ReflTransGen.total_of_right_unique hright hx hx' with hup | hdown
  · exact habove c c' hc hc' hup
  · exact (habove c' c hc' hc hdown).symm

end Links

/-! ## Nested listings -/

section Listing

variable {α ρ : Type} (heads : ρ → Option α) (under : α → ρ → Prop)

/-- INTERNAL: the rows under an element come right behind its head, and no others do. -/
def Nested (rows : List ρ) : Prop :=
  ∀ before r after x, rows = before ++ r :: after → heads r = some x →
    ∃ below rest, after = below ++ rest ∧ (∀ s ∈ below, under x s) ∧
      ∀ s ∈ before ++ rest, ¬ under x s

/-- INTERNAL: no row of `q` is under an element that has its head in `p`. -/
def Apart (p q : List ρ) : Prop :=
  ∀ r ∈ p, ∀ x, heads r = some x → ∀ s ∈ q, ¬ under x s

/-- INTERNAL: an empty listing is nested. -/
theorem nested_nil : Nested heads under ([] : List ρ) := by
  intro before r after x hsplit
  simp at hsplit

/-- INTERNAL: a row that is no head. -/
theorem nested_leaf (r : ρ) (hr : heads r = none) : Nested heads under [r] := by
  intro before r' after x hsplit hhead
  have hmem : r' ∈ [r] := by simp [hsplit]
  rw [List.mem_singleton] at hmem
  rw [hmem, hr] at hhead
  cases hhead

/-- INTERNAL: one listing behind another. -/
theorem Nested.append (p q : List ρ) (hp : Nested heads under p) (hq : Nested heads under q)
    (hpq : Apart heads under p q) (hqp : Apart heads under q p) :
    Nested heads under (p ++ q) := by
  intro before r after x hsplit hhead
  rcases List.append_eq_append_iff.mp hsplit with ⟨mid, hbefore, hafter⟩ | ⟨mid, hfront, hback⟩
  · -- the head is in the second part
    obtain ⟨below, rest, heq, hunder, hnot⟩ := hq mid r after x hafter hhead
    refine ⟨below, rest, heq, hunder, fun s hs => ?_⟩
    rw [hbefore, List.append_assoc, List.mem_append] at hs
    rcases hs with hearlier | hsame
    · exact hqp r (by simp [hafter]) x hhead s hearlier
    · exact hnot s hsame
  · cases mid with
    | nil =>
      rw [List.nil_append] at hback
      obtain ⟨below, rest, heq, hunder, hnot⟩ := hq [] r after x hback.symm hhead
      refine ⟨below, rest, heq, hunder, fun s hs => ?_⟩
      rw [List.append_nil] at hfront
      rcases List.mem_append.mp hs with hearlier | hlater
      · exact hqp r (by simp [← hback]) x hhead s (by rw [hfront]; exact hearlier)
      · exact hnot s hlater
    | cons r' mid =>
      -- the head is in the first part
      obtain ⟨hsame, hafter⟩ := List.cons.inj hback
      rw [← hsame] at hfront
      obtain ⟨below, rest, heq, hunder, hnot⟩ := hp before r mid x hfront hhead
      refine ⟨below, rest ++ q, ?_, hunder, fun s hs => ?_⟩
      · rw [hafter, heq]
        exact List.append_assoc below rest q
      · rw [← List.append_assoc, List.mem_append] at hs
        rcases hs with hsame | hlater
        · exact hnot s hsame
        · exact hpq r (by simp [hfront]) x hhead s hlater

/-- INTERNAL: the listings of several elements one after the other. -/
theorem Nested.flatMap {β : Type} (f : β → List ρ) (l : List β)
    (hparts : ∀ b ∈ l, Nested heads under (f b))
    (hapart : l.Pairwise fun b c => Apart heads under (f b) (f c) ∧ Apart heads under (f c) (f b)) :
    Nested heads under (l.flatMap f) := by
  induction l with
  | nil => exact nested_nil heads under
  | cons b l ih =>
    rw [List.pairwise_cons] at hapart
    rw [List.flatMap_cons]
    apply Nested.append
    · exact hparts b List.mem_cons_self
    · exact ih (fun c hc => hparts c (List.mem_cons_of_mem b hc)) hapart.2
    · intro r hr x hhead s hs
      obtain ⟨c, hc, hin⟩ := List.mem_flatMap.mp hs
      exact (hapart.1 c hc).1 r hr x hhead s hin
    · intro r hr x hhead s hs
      obtain ⟨c, hc, hin⟩ := List.mem_flatMap.mp hr
      exact (hapart.1 c hc).2 r hin x hhead s hs

/-- INTERNAL: a head before the listings of everything below it. -/
theorem Nested.cons (r : ρ) (x : α) (rows : List ρ) (hrows : Nested heads under rows)
    (hhead : heads r = some x) (hunder : ∀ s ∈ rows, under x s)
    (hnot : ∀ s ∈ rows, ∀ y, heads s = some y → ¬ under y r) :
    Nested heads under (r :: rows) := by
  intro before r' after y hsplit hhead'
  cases before with
  | nil =>
    obtain ⟨hsame, hafter⟩ := List.cons.inj hsplit
    rw [← hsame, hhead] at hhead'
    rw [← Option.some.inj hhead', ← hafter]
    exact ⟨rows, [], (List.append_nil rows).symm, hunder, fun s hs => by simp at hs⟩
  | cons first before =>
    obtain ⟨hsame, htail⟩ := List.cons.inj hsplit
    obtain ⟨below, rest, heq, hbelow, hothers⟩ := hrows before r' after y htail hhead'
    refine ⟨below, rest, heq, hbelow, fun s hs => ?_⟩
    rw [List.cons_append, List.mem_cons] at hs
    rcases hs with hfirst | hother
    · rw [hfirst, ← hsame]
      exact hnot r' (by simp [htail]) y hhead'
    · exact hothers s hother

/-- INTERNAL: **the head of an element comes before every row under it**. -/
theorem Nested.head_first (before after : List ρ) (r s : ρ) (x : α)
    (h : Nested heads under (before ++ s :: after)) (hr : r ∈ before ++ s :: after)
    (hhead : heads r = some x) (hunder : under x s) : r = s ∨ r ∈ before := by
  rcases List.mem_append.mp hr with hearlier | hlater
  · exact Or.inr hearlier
  · rcases List.mem_cons.mp hlater with hsame | hafter
    · exact Or.inl hsame
    · obtain ⟨mid, rest, heq⟩ := List.append_of_mem hafter
      obtain ⟨_, _, -, -, hnot⟩ := h (before ++ s :: mid) r rest x (by simp [heq]) hhead
      exact absurd hunder (hnot s (by simp))

end Listing

end TracingConsole.Library
