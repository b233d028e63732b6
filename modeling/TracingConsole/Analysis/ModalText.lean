import TracingConsole.Model.Installer

/-!
# Text that is safe to show

What `sanitizeFrom` has written is built by pushing clean characters onto a text that is not
full (`Written`).  The loop ends with such a text, with the suffix after it if it is full, and
reads such a text back as it is: once over the output is the output.
-/

set_option autoImplicit false

namespace TracingConsole.Analysis

open TracingConsole.Model

/-- INTERNAL: the suffix, character by character. -/
theorem toList_truncatedSuffix : truncatedSuffix.toList =
    ['\n', '…', '(', 't', 'r', 'u', 'n', 'c', 'a', 't', 'e', 'd', ')'] := by
  simp [truncatedSuffix]

/-- INTERNAL: no control character but a newline or a tab. -/
def Harmless (c : Char) : Prop := ConsoleModel.isControl c = true → c = '\n' ∨ c = '\t'

/-- INTERNAL: a text the loop can have written.
SRCLINE: installer.rs:110-113 -/
inductive Written : String → Prop
  | empty : Written ""
  | push (out : String) (c : Char) (hout : Written out) (hroom : out.utf8ByteSize < maxBytes)
      (hharmless : Harmless c) : Written (out.push c)

/-- INTERNAL: what is written is harmless. -/
theorem Written.harmless (out : String) (h : Written out) : ∀ c ∈ out.toList, Harmless c := by
  induction h with
  | empty => simp
  | push out c _ _ hharmless ih =>
    intro c' hc'
    rw [String.toList_push, List.mem_append, List.mem_singleton] at hc'
    cases hc' with
    | inl hout => exact ih c' hout
    | inr hlast => exact hlast ▸ hharmless

/-- INTERNAL: the last character may go past the limit by three bytes. -/
theorem Written.size_le (out : String) (h : Written out) : out.utf8ByteSize ≤ maxBytes + 3 := by
  cases h with
  | empty => exact Nat.zero_le _
  | push out c _ hroom _ =>
    have hsize : c.utf8Size ≤ 4 := c.utf8Size_le_four
    rw [String.utf8ByteSize_push]
    omega

/-- INTERNAL: the escape character is a control character. -/
theorem Harmless.ne_escape (c : Char) (h : Harmless c) : c ≠ '\x1b' := by
  rintro rfl
  have hescape := h (by decide)
  revert hescape
  decide

/-- INTERNAL: a clean character is written as it is.
SRCLINE: installer.rs:91-113 -/
theorem sanitizeFrom_harmless (out : String) (c : Char) (chars : List Char)
    (hroom : out.utf8ByteSize < maxBytes) (hharmless : Harmless c) :
    sanitizeFrom out (c :: chars) = sanitizeFrom (out.push c) chars := by
  rw [sanitizeFrom, if_neg (Nat.not_le_of_lt hroom), if_neg (hharmless.ne_escape c)]
  split
  · rfl
  · next hspecial =>
    rw [if_neg fun hcontrol => hspecial (hharmless hcontrol)]

/-- INTERNAL: **what has been written is read back as it is**. -/
theorem sanitizeFrom_written (out : String) (chars : List Char) (h : Written out) :
    sanitizeFrom "" (out.toList ++ chars) = sanitizeFrom out chars := by
  induction h generalizing chars with
  | empty => rfl
  | push out c _ hroom hharmless ih =>
    rw [String.toList_push, List.append_assoc, List.singleton_append, ih,
      sanitizeFrom_harmless out c chars hroom hharmless]

/-- INTERNAL: a written text, with the suffix if it is full. -/
def Ended (u r : String) : Prop :=
  Written u ∧ (r = u ∨ maxBytes ≤ u.utf8ByteSize ∧ r = u ++ truncatedSuffix)

/-- INTERNAL: **how the loop ends**, whatever is left to read.
SRCLINE: installer.rs:91-116 -/
theorem sanitizeFrom_ends (out : String) (chars : List Char) (h : Written out) :
    ∃ u, Ended u (sanitizeFrom out chars) := by
  fun_induction sanitizeFrom out chars with
  | case1 out => exact ⟨out, h, Or.inl rfl⟩
  | case2 out c chars hfull => exact ⟨out, h, Or.inr ⟨hfull, rfl⟩⟩
  | case3 out chars _ _ ih => exact ih h
  | case4 out chars _ _ ih => exact ih h
  | case5 out c chars hroom _ hspecial ih =>
    exact ih (.push out c h (Nat.lt_of_not_le hroom) fun _ => hspecial)
  | case6 out c chars hroom _ _ _ ih =>
    exact ih (.push out ' ' h (Nat.lt_of_not_le hroom) fun hcontrol => absurd hcontrol (by decide))
  | case7 out c chars hroom _ _ hplain ih =>
    exact ih (.push out c h (Nat.lt_of_not_le hroom) fun hcontrol => absurd hcontrol hplain)

/-- INTERNAL: so it is with its end. -/
theorem Ended.harmless (u r : String) (h : Ended u r) : ∀ c ∈ r.toList, Harmless c := by
  obtain ⟨hwritten, rfl | ⟨-, rfl⟩⟩ := h
  · exact hwritten.harmless
  · intro c hc
    rw [String.toList_append, List.mem_append] at hc
    cases hc with
    | inl hu => exact hwritten.harmless u c hu
    | inr hsuffix =>
      rw [toList_truncatedSuffix] at hsuffix
      have hall : ∀ c ∈ ['\n', '…', '(', 't', 'r', 'u', 'n', 'c', 'a', 't', 'e', 'd', ')'],
          Harmless c := by simp [Harmless, ConsoleModel.isControl]
      exact hall c hsuffix

/-- INTERNAL: and it is not too long. -/
theorem Ended.size_le (u r : String) (h : Ended u r) : r.utf8ByteSize ≤ 4114 := by
  have hsuffix : truncatedSuffix.utf8ByteSize = 15 := by rfl
  have hmax : maxBytes = 4096 := rfl
  obtain ⟨hwritten, rfl | ⟨-, rfl⟩⟩ := h
  · have hsize := hwritten.size_le
    omega
  · have hsize := hwritten.size_le
    rw [String.utf8ByteSize_append]
    omega

/-- INTERNAL: a full text is cut off at the suffix again. -/
theorem Ended.fixed (u r : String) (h : Ended u r) : sanitizeForModal r = r := by
  unfold sanitizeForModal
  obtain ⟨hwritten, rfl | ⟨hfull, rfl⟩⟩ := h
  · rw [← List.append_nil r.toList, sanitizeFrom_written r [] hwritten, sanitizeFrom]
  · rw [String.toList_append, sanitizeFrom_written u _ hwritten, toList_truncatedSuffix,
      sanitizeFrom, if_pos hfull]

/-- CODE: installer.rs:78-117 — **installer output is made safe for the terminal**: no control
character but newlines and tabs is left, the text is short, and making it safe again changes
nothing. -/
theorem sanitize_for_modal_safe (s : String) :
    (∀ c ∈ (sanitizeForModal s).toList, ConsoleModel.isControl c = true → c = '\n' ∨ c = '\t') ∧
      (sanitizeForModal s).utf8ByteSize ≤ 4114 ∧
      sanitizeForModal (sanitizeForModal s) = sanitizeForModal s := by
  obtain ⟨u, hends⟩ := sanitizeFrom_ends "" s.toList .empty
  exact ⟨hends.harmless, hends.size_le, hends.fixed⟩

end TracingConsole.Analysis
