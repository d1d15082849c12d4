import Mathlib.Data.Nat.Basic
import Mathlib.Order.Basic
import Mathlib.Tactic.Common

/-!
# The lowest set bit from a position on

Adding `2 ^ p` to the complement of a vector propagates a carry from bit `p` through the bits that
are not set in the vector, up to the first one that is.  So `x &&& (~~~x + 2 ^ p)` keeps of the bits
of `x` only the lowest one from `p` on (`getLsbD_lowestSet_iff`).
-/

namespace Bits

variable {w : ℕ}

/-- The lowest set bit of `x` from bit `p` on. -/
def lowestSet (x : BitVec w) (p : ℕ) : BitVec w := x &&& (~~~x + BitVec.twoPow w p)

/-- The carry begins at bit `p` and goes on as long as no bit of `x` is set. -/
lemma carry_not_twoPow (x : BitVec w) {p k : ℕ} (hk : k ≤ w) :
    BitVec.carry k (~~~x) (BitVec.twoPow w p) false = true ↔
      p < k ∧ ∀ m, p ≤ m → m < k → x.getLsbD m = false := by
  induction k with
  | zero => simp
  | succ k ih =>
    have hkw : k < w := hk
    have ih' := ih hkw.le
    rw [BitVec.carry_succ, BitVec.getLsbD_not, BitVec.getLsbD_twoPow]
    rcases Nat.lt_trichotomy k p with hkp | rfl | hpk
    · -- below bit `p` there is nothing to add
      have hcarry : BitVec.carry k (~~~x) (BitVec.twoPow w p) false = false := by
        rw [← Bool.not_eq_true, ih']
        exact fun h => absurd h.1 (by omega)
      simp only [hcarry, Bool.atLeastTwo_false_right]
      simp [hkw, show p ≠ k by omega, show ¬ p < k + 1 by omega]
    · -- at bit `p` the carry begins unless the bit is set
      have hcarry : BitVec.carry k (~~~x) (BitVec.twoPow w k) false = false := by
        rw [← Bool.not_eq_true, ih']
        exact fun h => absurd h.1 (Nat.lt_irrefl k)
      simp only [hcarry, Bool.atLeastTwo_false_right]
      simp only [hkw, decide_true, Bool.true_and, Bool.and_true, Bool.not_eq_true',
        Nat.lt_succ_self, true_and]
      constructor
      · intro hx m hkm hmk
        obtain rfl : m = k := by omega
        exact hx
      · exact fun h => h k le_rfl (Nat.lt_succ_self k)
    · -- above bit `p` it goes on unless the bit is set
      simp only [hkw, show p ≠ k by omega, decide_true, decide_false, Bool.true_and, Bool.and_false,
        Bool.atLeastTwo_false_mid, Bool.and_eq_true, Bool.not_eq_true', ih']
      constructor
      · rintro ⟨hx, -, hno⟩
        refine ⟨Nat.lt_succ_of_lt hpk, fun m hpm hmk => ?_⟩
        rcases Nat.lt_succ_iff_lt_or_eq.mp hmk with hmk | rfl
        · exact hno m hpm hmk
        · exact hx
      · rintro ⟨-, hno⟩
        exact ⟨hno k hpk.le (Nat.lt_succ_self k), hpk, fun m hpm hmk => hno m hpm (by omega)⟩

/-- What is kept is the lowest set bit from bit `p` on. -/
theorem getLsbD_lowestSet_iff (x : BitVec w) {p k : ℕ} (hk : k < w) :
    (lowestSet x p).getLsbD k = true ↔
      x.getLsbD k = true ∧ p ≤ k ∧ ∀ m, p ≤ m → m < k → x.getLsbD m = false := by
  have hcarry := carry_not_twoPow x (p := p) hk.le
  unfold lowestSet
  rw [BitVec.getLsbD_and, BitVec.getLsbD_add hk, BitVec.getLsbD_not, BitVec.getLsbD_twoPow,
    Bool.and_eq_true]
  refine and_congr_right fun hx => ?_
  rcases Nat.lt_trichotomy k p with hkp | rfl | hpk
  · have hno : BitVec.carry k (~~~x) (BitVec.twoPow w p) false = false := by
      rw [← Bool.not_eq_true, hcarry]
      exact fun h => absurd h.1 (by omega)
    simp [hno, hx, show p ≠ k by omega, show ¬ p ≤ k by omega]
  · have hno : BitVec.carry k (~~~x) (BitVec.twoPow w k) false = false := by
      rw [← Bool.not_eq_true, hcarry]
      exact fun h => absurd h.1 (Nat.lt_irrefl k)
    refine iff_of_true ?_ ⟨le_rfl, fun m hkm hmk => absurd hmk (Nat.not_lt.mpr hkm)⟩
    simp [hno, hx, hk]
  · simp [hx, hcarry, hpk, hpk.le, show p ≠ k by omega]

end Bits
