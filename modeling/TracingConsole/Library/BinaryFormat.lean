import Mathlib

/-!
# Rounding to a binary format

A binary format has `p` bits of precision and least exponent `emin`: its numbers are `k * 2 ^ e`
with `k < 2 ^ p` and `emin ≤ e` (of those that are not negative, and without a greatest one).
`roundNearest` takes the nearest of them, and of two the even one.
-/

set_option autoImplicit false

namespace TracingConsole.Library

/-! ## To integers -/

/-- INTERNAL: the nearest integer, of two the even one. -/
def roundHalfEven (x : ℚ) : ℤ :=
  let n := ⌊x⌋
  if x - n < 1 / 2 then n
  else if 1 / 2 < x - n then n + 1
  else if n % 2 = 0 then n
  else n + 1

section Format

variable (p : ℕ) (emin : ℤ)

/-- INTERNAL: the exponent of the last bit of a number of this size. -/
def lastBit (v : ℚ) : ℤ := max (Int.log 2 v - (p - 1)) emin

/-- INTERNAL: the nearest number of the format, for one that is not negative. -/
def roundNearest (v : ℚ) : ℚ :=
  roundHalfEven (v / 2 ^ lastBit p emin v) * 2 ^ lastBit p emin v

end Format

end TracingConsole.Library
