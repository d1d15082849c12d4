import Mathlib.Algebra.Ring.Nat
import Mathlib.Data.Nat.Log

/-!
# Aligned ranges of addresses

An address decoder does not compare an address with both ends of a range: it clears the lowest bits
of the address and compares the result with the beginning of the range.  For a range whose length is
a power of two and whose beginning is a multiple of its length this is the same
(`clearLow_eq_iff`).
-/

namespace Bits

variable {n p : ℕ}

/-- The word `a` with its lowest `p` bits cleared. -/
def clearLow (a : BitVec n) (p : ℕ) : BitVec n := a >>> p <<< p

/-- The number that a word stands for after its lowest bits are cleared. -/
lemma toNat_clearLow (a : BitVec n) (p : ℕ) : (clearLow a p).toNat = a.toNat / 2 ^ p * 2 ^ p := by
  have hlt : a.toNat / 2 ^ p * 2 ^ p < 2 ^ n :=
    lt_of_le_of_lt (Nat.div_mul_le_self _ _) a.isLt
  rw [clearLow, BitVec.toNat_shiftLeft, BitVec.toNat_ushiftRight, Nat.shiftRight_eq_div_pow,
    Nat.shiftLeft_eq, Nat.mod_eq_of_lt hlt]

/-- The multiples of `k` up to `a` and within `k` of it are one: the quotient times `k`. -/
lemma div_mul_eq_iff {a b k : ℕ} (hk : 0 < k) (hb : k ∣ b) :
    a / k * k = b ↔ b ≤ a ∧ a < b + k := by
  obtain ⟨c, rfl⟩ := hb
  rw [Nat.mul_comm k c, Nat.mul_left_inj hk.ne', Nat.div_eq_iff hk]
  constructor
  · rintro ⟨hlow, hhigh⟩
    exact ⟨hlow, by omega⟩
  · rintro ⟨hlow, hhigh⟩
    exact ⟨hlow, by omega⟩

/-- The comparison of an address decoder tells whether an address lies in the range of the length
`2 ^ p` that begins at `b`. -/
theorem clearLow_eq_iff {a b : BitVec n} (hb : 2 ^ p ∣ b.toNat) :
    clearLow a p = b ↔ b.toNat ≤ a.toNat ∧ a.toNat < b.toNat + 2 ^ p := by
  rw [← BitVec.toNat_inj, toNat_clearLow, div_mul_eq_iff (Nat.two_pow_pos p) hb]

end Bits
