import Mathlib

/-!
# Mixing a machine word

The steps hash functions mix a word with lose nothing: a multiplication by a unit
(`mul_injective`), and the exclusive or of a word with a shift of itself
(`xorShift_injective`), whose highest bits are those of the word.
-/

set_option autoImplicit false

namespace TracingConsole.Library

variable {w : ℕ}

/-- INTERNAL: multiplying by a word that has an inverse. -/
theorem mul_injective (k inverse : BitVec w) (hunit : k * inverse = 1#w) :
    Function.Injective fun x : BitVec w => x * k := by
  intro x y hxy
  have hxy : x * k = y * k := hxy
  calc x = x * (k * inverse) := by rw [hunit, BitVec.mul_one]
    _ = y * (k * inverse) := by rw [← BitVec.mul_assoc, hxy, BitVec.mul_assoc]
    _ = y := by rw [hunit, BitVec.mul_one]

/-- INTERNAL: a word and a shift of it to the right. -/
theorem xorShift_injective (s : ℕ) (hs : 0 < s) :
    Function.Injective fun x : BitVec w => x ^^^ (x >>> s) := by
  intro x y hxy
  -- from the top: a bit is told by the bits `s` places above it
  have hbit : ∀ n i, w - i ≤ n → x.getLsbD i = y.getLsbD i := by
    intro n
    induction n with
    | zero =>
      intro i hi
      rw [BitVec.getLsbD_of_ge x i (by omega), BitVec.getLsbD_of_ge y i (by omega)]
    | succ n ih =>
      intro i hi
      by_cases hin : i < w
      · have habove := ih (s + i) (by omega)
        have hat := congrArg (fun z : BitVec w => z.getLsbD i) hxy
        simp only [BitVec.getLsbD_xor, BitVec.getLsbD_ushiftRight, habove] at hat
        exact Bool.xor_right_inj.mp (by rw [Bool.xor_comm, hat, Bool.xor_comm])
      · rw [BitVec.getLsbD_of_ge x i (by omega), BitVec.getLsbD_of_ge y i (by omega)]
  refine BitVec.eq_of_getLsbD_eq fun i _ => ?_
  exact hbit (w - i) i (Nat.le_refl _)

end TracingConsole.Library
