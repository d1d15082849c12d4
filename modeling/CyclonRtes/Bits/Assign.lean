import Mathlib.Data.Nat.Notation

/-!
# Assigning single bits of a vector

A hardware description assigns a vector signal bit by bit, in loops and slices.  `assignBit w i b`
is the vector `w` with bit `i` replaced by `b`; `assignBits w is f` carries out the assignments
`w(i) := f i` for the indices of the list `is`.  The result is read off by `getLsbD_assignBits`.
-/

namespace Bits

variable {n : ℕ}

/-- The vector `w` with bit `i` replaced by `b`. -/
def assignBit (w : BitVec n) (i : ℕ) (b : Bool) : BitVec n :=
  if b then w ||| BitVec.twoPow n i else w &&& ~~~BitVec.twoPow n i

/-- The vector `w` after the assignments `w(i) := f i` for the indices `i` of a list. -/
def assignBits (w : BitVec n) (is : List ℕ) (f : ℕ → Bool) : BitVec n :=
  is.foldl (fun w i => assignBit w i (f i)) w

/-- An assignment changes the addressed bit only. -/
lemma getLsbD_assignBit (w : BitVec n) {i j : ℕ} (b : Bool) (hj : j < n) :
    (assignBit w i b).getLsbD j = if i = j then b else w.getLsbD j := by
  unfold assignBit
  by_cases hij : i = j
  · subst hij
    cases b <;> simp [hj]
  · cases b <;> simp [hj, hij, Ne.symm hij]

/-- After a list of assignments the addressed bits hold the assigned values and all other bits
are unchanged. -/
theorem getLsbD_assignBits (w : BitVec n) (is : List ℕ) (f : ℕ → Bool) {j : ℕ} (hj : j < n) :
    (assignBits w is f).getLsbD j = if j ∈ is then f j else w.getLsbD j := by
  induction is generalizing w with
  | nil => rfl
  | cons i is ih =>
    rw [assignBits, List.foldl_cons, ← assignBits, ih, getLsbD_assignBit w (f i) hj]
    by_cases hmem : j ∈ is
    · simp [hmem]
    · by_cases hij : i = j
      · simp [hij]
      · simp [hmem, hij, Ne.symm hij]

end Bits
