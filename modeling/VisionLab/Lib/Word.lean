import Mathlib.Algebra.Order.Ring.Int
import Mathlib.Tactic.Ring

/-! Two's complement words: what is left of an integer in a signed word of a number of bits, and the
unsigned reading of such a word. -/
namespace Word

/-- The value of `n` after a conversion to a signed word. -/
def signed (bits : ℕ) (n : ℤ) : ℤ := n.bmod (2 ^ bits)

def unsigned (bits : ℕ) (n : ℤ) : ℕ := (n % (2 ^ bits : ℕ)).toNat

theorem half (bits : ℕ) : 2 ^ (bits + 1) = 2 * 2 ^ bits := by ring

theorem signed_of_fits {bits : ℕ} {n : ℤ} (low : -(2 ^ bits : ℕ) ≤ n) (high : n < (2 ^ bits : ℕ)) :
    signed (bits + 1) n = n := by
  have twice := half bits
  unfold signed
  apply Int.bmod_eq_of_le_mul_two <;> omega

theorem signed_lt (bits : ℕ) (n : ℤ) : signed (bits + 1) n < (2 ^ bits : ℕ) := by
  have twice := half bits
  have positive : 0 < 2 ^ (bits + 1) := Nat.two_pow_pos (bits + 1)
  have below : signed (bits + 1) n < ((2 ^ (bits + 1) : ℕ) + 1) / 2 := Int.bmod_lt positive
  omega

theorem signed_of_wraps {bits : ℕ} {n : ℤ} (low : (2 ^ bits : ℕ) ≤ n)
    (high : n < (2 ^ (bits + 1) : ℕ)) : signed (bits + 1) n < 0 := by
  have twice := half bits
  have rest : n % (2 ^ (bits + 1) : ℕ) = n := Int.emod_eq_of_lt (by omega) high
  unfold signed
  rw [Int.bmod_def, rest, if_neg (by omega)]
  omega

theorem unsigned_signed {bits n : ℕ} (fits : n < 2 ^ bits) : unsigned bits (signed bits n) = n := by
  unfold unsigned signed
  rw [Int.bmod_emod]
  have rest : (n : ℤ) % (2 ^ bits : ℕ) = n := Int.emod_eq_of_lt (by omega) (by omega)
  omega

end Word
