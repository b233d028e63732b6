import TracingConsole.Analysis.ChartRebuild
import TracingConsole.Analysis.Prompts

/-!
# What can be typed

The prompts filter what is typed into them (core.rs:20-77, 574-704), so the text of an open
prompt has a shape that its commit can read: a number has digits and at most one point, a
lookback ends in at most one unit.  A number that was typed is read as the double nearest to the
decimal it shows; no sign, exponent or NaN can be entered.
-/

set_option autoImplicit false

namespace TracingConsole.Analysis.Console

open TracingConsole.Library
open TracingConsole.Model TracingConsole.Model.ConsoleModel

/-! ## Decimals -/

/-- INTERNAL: a text shows the digits before its point and those after it, if it has one. -/
structure Decimal (text whole fraction : List Char) : Prop where
  wholeDigits : ∀ c ∈ whole, c.isDigit = true
  fractionDigits : ∀ c ∈ fraction, c.isDigit = true
  split : text = whole ∧ fraction = [] ∨ text = whole ++ '.' :: fraction

/-- INTERNAL: digits and at most one point. -/
def Numeric (text : List Char) : Prop := ∃ whole fraction, Decimal text whole fraction

/-- INTERNAL: the empty text is numeric. -/
theorem numeric_nil : Numeric [] :=
  ⟨[], [], List.forall_mem_nil _, List.forall_mem_nil _, Or.inl ⟨rfl, rfl⟩⟩

/-- INTERNAL: a digit may follow. -/
theorem Numeric.digit (text : List Char) (c : Char) (h : Numeric text) (hc : c.isDigit = true) :
    Numeric (text ++ [c]) := by
  obtain ⟨whole, fraction, hwhole, hfraction, hsplit⟩ := h
  have hsnoc (digits : List Char) (hdigits : ∀ d ∈ digits, d.isDigit = true) :
      ∀ d ∈ digits ++ [c], d.isDigit = true := by
    intro d hd
    rcases List.mem_append.mp hd with hold | hnew
    · exact hdigits d hold
    · rw [List.mem_singleton.mp hnew]
      exact hc
  rcases hsplit with hplain | hpoint
  · refine ⟨whole ++ [c], [], hsnoc whole hwhole, List.forall_mem_nil _, Or.inl ⟨?_, rfl⟩⟩
    rw [hplain.1]
  · refine ⟨whole, fraction ++ [c], hwhole, hsnoc fraction hfraction, Or.inr ?_⟩
    rw [hpoint]
    simp

/-- INTERNAL: the first point may follow. -/
theorem Numeric.point (text : List Char) (h : Numeric text) (hnone : '.' ∉ text) :
    Numeric (text ++ ['.']) := by
  obtain ⟨whole, fraction, hwhole, hfraction, hsplit⟩ := h
  rcases hsplit with hplain | hpoint
  · exact ⟨whole, [], hwhole, List.forall_mem_nil _, Or.inr (by rw [hplain.1])⟩
  · rw [hpoint] at hnone
    exact absurd (List.mem_append_right whole List.mem_cons_self) hnone

/-- INTERNAL: the last character may go. -/
theorem Numeric.dropLast (text : List Char) (h : Numeric text) : Numeric text.dropLast := by
  obtain ⟨whole, fraction, hwhole, hfraction, hsplit⟩ := h
  have hdrop (digits : List Char) (hdigits : ∀ d ∈ digits, d.isDigit = true) :
      ∀ d ∈ digits.dropLast, d.isDigit = true := fun d hd =>
    hdigits d (List.mem_of_mem_dropLast hd)
  rcases hsplit with hplain | hpoint
  · refine ⟨whole.dropLast, [], hdrop whole hwhole, List.forall_mem_nil _, Or.inl ⟨?_, rfl⟩⟩
    rw [hplain.1]
  · by_cases hempty : fraction = []
    · refine ⟨whole, [], hwhole, List.forall_mem_nil _, Or.inl ⟨?_, rfl⟩⟩
      rw [hpoint, hempty]
      simp
    · refine ⟨whole, fraction.dropLast, hwhole, hdrop fraction hfraction, Or.inr ?_⟩
      rw [hpoint, List.dropLast_append_of_ne_nil (by simp), List.dropLast_cons_of_ne_nil hempty]

/-! ## The shape of a prompt's text -/

/-- INTERNAL: letters, digits and at most one point. -/
def Naming (text : List Char) : Prop :=
  (∀ c ∈ text, c.isLower = true ∨ c.isDigit = true ∨ c = '.') ∧ text.count '.' ≤ 1

/-- INTERNAL: a number, and one unit after a number. -/
def Timed (text : List Char) : Prop :=
  ∃ number unit, text = number ++ unit ∧ Numeric number ∧
    (unit = [] ∨ (unit = ['s'] ∨ unit = ['m']) ∧ number ≠ [])

/-- INTERNAL: the shape of the text of a prompt. -/
def Typed : ModalKind → String → Prop
  | .chance, text | .graphWindow, text => Numeric text.toList
  | .graphAgg, text => Naming text.toList
  | .graphLookback, text => Timed text.toList
  | .exploreSearch, text => ∀ c ∈ text.toList, isControl c = false
  | .none, _ | .confirmVersionSwitch, _ => True

/-- INTERNAL: every prompt opens with a text it takes. -/
theorem typed_empty (p : ModalKind) : Typed p "" := by
  cases p with
  | chance | graphWindow => exact numeric_nil
  | graphAgg => exact ⟨List.forall_mem_nil _, Nat.zero_le 1⟩
  | graphLookback => exact ⟨[], [], rfl, numeric_nil, Or.inl rfl⟩
  | exploreSearch => exact List.forall_mem_nil _
  | none | confirmVersionSwitch => trivial

/-- INTERNAL: a character that is kept leaves a number numeric. -/
theorem numeric_push (buf buf' : String) (c : Char) (h : Numeric buf.toList)
    (hpush : pushDigitOrDecimal buf c = some buf') : Numeric buf'.toList := by
  unfold pushDigitOrDecimal at hpush
  split at hpush
  · next hkept =>
    rw [← Option.some.inj hpush, String.toList_push]
    rw [String.contains_char_eq] at hkept
    by_cases hdigit : c.isDigit = true
    · exact h.digit _ c hdigit
    · simp only [hdigit, Bool.false_or, Bool.and_eq_true, decide_eq_true_eq,
        Bool.not_eq_eq_eq_not, Bool.not_true, decide_eq_false_iff_not] at hkept
      rw [hkept.1]
      exact h.point _ hkept.2
  · cases hpush

/-- INTERNAL: so does any character that is typed. -/
theorem numeric_char (buf : String) (c : Char) (h : Numeric buf.toList) :
    Numeric ((pushDigitOrDecimal buf c).getD buf).toList := by
  cases hpush : pushDigitOrDecimal buf c with
  | none => exact h
  | some buf' => exact numeric_push buf buf' c h hpush

/-- INTERNAL: what is typed for an aggregation stays one's name. -/
theorem naming_char (buf : String) (c : Char) (h : Naming buf.toList) :
    Naming (aggInputChar buf c).toList := by
  unfold aggInputChar
  dsimp only
  split
  · next hkept =>
    rw [String.contains_char_eq]
    split
    · exact h
    · next hpoint =>
      rw [String.toList_push]
      obtain ⟨hchars, hcount⟩ := h
      constructor
      · intro d hd
        rcases List.mem_append.mp hd with hold | hnew
        · exact hchars d hold
        · rw [List.mem_singleton.mp hnew]
          simpa [or_assoc] using hkept
      · rw [List.count_append]
        by_cases hdot : c.toLower = '.'
        · have hzero : buf.toList.count '.' = 0 := by
            apply List.count_eq_zero.mpr
            intro hmem
            exact hpoint (by simp [hdot, hmem])
          rw [hzero, hdot]
          simp
        · rw [List.count_singleton]
          simp [hdot, hcount]
  · exact h

/-- INTERNAL: what is typed for a lookback stays a time. -/
theorem timed_char (buf : String) (c : Char) (h : Timed buf.toList) :
    Timed (lookbackInputChar buf c).toList := by
  obtain ⟨number, unit, htext, hnumber, hunit⟩ := h
  unfold lookbackInputChar
  dsimp only
  split
  · exact ⟨number, unit, htext, hnumber, hunit⟩
  · next hsuffix =>
    have hplain : buf.toList = number := by
      rcases hunit with hnil | hend
      · rw [htext, hnil, List.append_nil]
      · refine absurd ?_ hsuffix
        rw [htext]
        rcases hend.1 with hs | hm
        · rw [hs]
          simp
        · rw [hm]
          simp
    split
    · next buf' hpush =>
      rw [← hplain] at hnumber
      exact ⟨buf'.toList, [], (List.append_nil _).symm,
        numeric_push buf buf' c hnumber hpush, Or.inl rfl⟩
    · split
      · next hletter =>
        rw [String.toList_push]
        refine ⟨number, [c], by rw [hplain], hnumber, Or.inr ⟨?_, hplain ▸ hletter.2⟩⟩
        rcases hletter.1 with hs | hm
        · exact Or.inl (by rw [hs])
        · exact Or.inr (by rw [hm])
      · exact ⟨number, unit, htext, hnumber, hunit⟩

/-- INTERNAL: a backspace leaves a text the prompt takes. -/
theorem typed_shortened (p : ModalKind) (buf : String) (h : Typed p buf) :
    Typed p (shortened buf) := by
  unfold shortened
  cases p with
  | chance | graphWindow =>
    show Numeric (String.ofList _).toList
    rw [String.toList_ofList]
    exact Numeric.dropLast _ h
  | graphAgg =>
    show Naming (String.ofList _).toList
    rw [String.toList_ofList]
    have hsub := List.dropLast_sublist buf.toList
    exact ⟨fun c hc => h.1 c (hsub.subset hc), (hsub.count_le '.').trans h.2⟩
  | graphLookback =>
    show Timed (String.ofList _).toList
    rw [String.toList_ofList]
    obtain ⟨number, unit, htext, hnumber, hunit⟩ := h
    rcases hunit with hnil | hend
    · refine ⟨number.dropLast, [], ?_, hnumber.dropLast, Or.inl rfl⟩
      rw [htext, hnil, List.append_nil, List.append_nil]
    · refine ⟨number, [], ?_, hnumber, Or.inl rfl⟩
      rw [htext]
      rcases hend.1 with hs | hm
      · rw [hs]
        simp
      · rw [hm]
        simp
  | exploreSearch =>
    show ∀ c ∈ (String.ofList _).toList, isControl c = false
    rw [String.toList_ofList]
    exact fun c hc => h c (List.mem_of_mem_dropLast hc)
  | none | confirmVersionSwitch => trivial

/-- INTERNAL: **every edit keeps the shape of the text.** -/
theorem typed_edit (p : ModalKind) (buf : String) (u : Update) (h : Typed p buf) :
    Typed p (edit p buf u) := by
  cases u with
  | chanceInputChar c =>
    show Typed p (if p = .chance then _ else buf)
    split
    · next hp =>
      subst hp
      exact numeric_char buf c h
    · exact h
  | graphAggInputChar c =>
    show Typed p (if p = .graphAgg then _ else buf)
    split
    · next hp =>
      subst hp
      exact naming_char buf c h
    · exact h
  | graphWindowInputChar c =>
    show Typed p (if p = .graphWindow then _ else buf)
    split
    · next hp =>
      subst hp
      exact numeric_char buf c h
    · exact h
  | graphLookbackInputChar c =>
    show Typed p (if p = .graphLookback then _ else buf)
    split
    · next hp =>
      subst hp
      exact timed_char buf c h
    · exact h
  | exploreSearchChar c =>
    show Typed p (if p = .exploreSearch then _ else buf)
    split
    · next hp =>
      subst hp
      split
      · exact h
      · next hcontrol =>
        intro d hd
        rw [String.toList_push] at hd
        rcases List.mem_append.mp hd with hold | hnew
        · exact h d hold
        · rw [List.mem_singleton.mp hnew]
          simpa using hcontrol
    · exact h
  | chanceInputBackspace | graphAggInputBackspace | graphWindowInputBackspace
  | graphLookbackInputBackspace | exploreSearchBackspace =>
    simp only [edit]
    split
    · exact typed_shortened p buf h
    · exact h
  | _ => exact h

/-! ## Every run -/

/-- INTERNAL: the text of every open prompt has its shape. -/
def AllTyped (m : ConsoleModel) : Prop := ∀ p text, (p, text) ∈ openBuffers m → Typed p text

/-- INTERNAL: what one update preserves. -/
theorem AllTyped.step (m m' : ConsoleModel) (now : ℕ) (u : Update) (e : Effect) (h : AllTyped m)
    (happly : m.apply now u = some (m', e)) : AllTyped m' := by
  intro p text hmem
  rcases apply_buffers now m m' u e happly p text hmem with hopened | hedited
  · rw [hopened.2]
    exact typed_empty p
  · obtain ⟨buf, hbuf, htext⟩ := hedited
    rcases htext with hkept | hchanged
    · rw [hkept]
      exact h p buf hbuf
    · rw [hchanged]
      exact typed_edit p buf u (h p buf hbuf)

/-- INTERNAL: the text of an open prompt of a graph has its shape. -/
theorem AllTyped.graph (m : ConsoleModel) (h : AllTyped m) (gs : GraphState)
    (hview : m.view = .graph gs) (p : ModalKind) (buf : String)
    (hmem : (p, buf) ∈ graphBuffers gs) : Typed p buf := by
  refine h p buf (List.mem_append_right _ ?_)
  rw [hview]
  exact hmem

end TracingConsole.Analysis.Console
