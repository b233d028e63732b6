import TracingConsole.Model.Apply

/-!
# The output of the installer

What the installer printed, as the modal shows it (installer.rs:78-117): escape sequences are
dropped, other control characters become blanks, and the text is cut off once it is full.
-/

set_option autoImplicit false

namespace TracingConsole.Model

/-- INTERNAL: SRCLINE: installer.rs:88 -/
def maxBytes : ℕ := 4096

/-- INTERNAL: SRCLINE: installer.rs:93 -/
def truncatedSuffix : String := "\n…(truncated)"

/-- INTERNAL: what follows the final byte of a CSI sequence, nothing if there is none.
SRCLINE: installer.rs:104-108 -/
def afterCsi : List Char → List Char
  | [] => []
  | nc :: chars => if '@' ≤ nc ∧ nc ≤ '~' then chars else afterCsi chars

/-- INTERNAL: a sequence that is skipped makes no text longer. -/
theorem length_afterCsi (chars : List Char) : (afterCsi chars).length ≤ chars.length := by
  induction chars with
  | nil => exact Nat.le_refl 0
  | cons nc chars ih =>
    unfold afterCsi
    split
    · exact Nat.le_succ _
    · exact ih.trans (Nat.le_succ _)

/-- INTERNAL: the characters still to be read, and what has been written of those before.
SRCLINE: installer.rs:91-115 -/
def sanitizeFrom (out : String) : List Char → String
  | [] => out
  | c :: chars =>
    if maxBytes ≤ out.utf8ByteSize then out ++ truncatedSuffix
    else if c = '\x1b' then
      if chars.head? = some '[' then sanitizeFrom out (afterCsi chars.tail)
      else sanitizeFrom out chars
    else if c = '\n' ∨ c = '\t' then sanitizeFrom (out.push c) chars
    else if ConsoleModel.isControl c then sanitizeFrom (out.push ' ') chars
    else sanitizeFrom (out.push c) chars
termination_by chars => chars.length
decreasing_by
  · have htail := length_afterCsi chars.tail
    rw [List.length_tail] at htail
    rw [List.length_cons]
    omega
  all_goals simp

/-- INTERNAL: SRCLINE: installer.rs:78-117 -/
def sanitizeForModal (s : String) : String := sanitizeFrom "" s.toList

end TracingConsole.Model
