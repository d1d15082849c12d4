import CyclonRtes.Arbitration.RoundRobin
import CyclonRtes.Bits.Assign
import CyclonRtes.Bits.LowestSet

/-!
# The arbiter of the interconnect

The round-robin arbiter that the generated interconnect uses wherever both processors have access to
a component, `altera_merlin_arbitrator.sv`.  It decides without a loop: it adds the priority, a
vector with a single bit, to the complement of the requests, twice side by side.  The carry finds
the first requester, and the two halves of the sum make up for the missing carry from the last
place to the first one.

`grant_iff` says that the grant so computed is the one of the abstract round robin.
-/

namespace CyclonRtes.Interconnect

open Arbitration Bits

/-! ## The adder -/

section Adder

variable {w : ℕ}

/-- `cout` of the full adder. -/
def cout (a b : BitVec w) : ℕ → Bool
  | 0 => a.getLsbD 0 && b.getLsbD 0
  | i + 1 => a.getLsbD (i + 1) && b.getLsbD (i + 1) ||
      cout a b i && (a.getLsbD (i + 1) ^^ b.getLsbD (i + 1))

/-- The bits of `sum` in the full adder. -/
def sumBit (a b : BitVec w) : ℕ → Bool
  | 0 => a.getLsbD 0 ^^ b.getLsbD 0
  | i + 1 => (a.getLsbD (i + 1) ^^ b.getLsbD (i + 1)) ^^ cout a b i

/-- `altera_merlin_arb_adder`: a full adder for small widths, otherwise a carry chain. -/
def arbAdder (a b : BitVec w) : BitVec w :=
  if w ≤ 8 then assignBits 0 (List.range w) (sumBit a b)
  else (a.setWidth (w + 1) + b.setWidth (w + 1)).setWidth w

/-- The full adder computes the carries. -/
lemma cout_eq (a b : BitVec w) (i : ℕ) : cout a b i = BitVec.carry (i + 1) a b false := by
  induction i with
  | zero => rw [BitVec.carry_succ, BitVec.carry_zero, Bool.atLeastTwo_false_right, cout]
  | succ i ih =>
    rw [BitVec.carry_succ, ← ih, cout]
    cases a.getLsbD (i + 1) <;> cases b.getLsbD (i + 1) <;> cases cout a b i <;> rfl

/-- Both variants of the adder add. -/
lemma arbAdder_eq (a b : BitVec w) : arbAdder a b = a + b := by
  unfold arbAdder
  split_ifs with hw
  · apply BitVec.eq_of_getLsbD_eq
    intro i hi
    rw [getLsbD_assignBits _ _ _ hi, if_pos (List.mem_range.mpr hi), BitVec.getLsbD_add hi]
    cases i with
    | zero => rw [BitVec.carry_zero, Bool.xor_false, sumBit]
    | succ i => rw [← cout_eq, ← Bool.xor_assoc, sumBit]
  · rw [BitVec.setWidth_add _ _ (Nat.le_succ w), BitVec.setWidth_setWidth_of_le _ (Nat.le_succ w),
      BitVec.setWidth_setWidth_of_le _ (Nat.le_succ w), BitVec.setWidth_eq, BitVec.setWidth_eq]

end Adder

/-! ## The decision -/

section Decision

variable {n : ℕ} {request : BitVec n} {p i : ℕ}

/-- `grant_double_vector`. -/
def grantDoubleVector (request topPriority : BitVec n) : BitVec (n + n) :=
  (request ++ request) &&& arbAdder (~~~request ++ ~~~request) (0#n ++ topPriority)

/-- `grant`. -/
def grant (request topPriority : BitVec n) : BitVec n :=
  (grantDoubleVector request topPriority).extractLsb' 0 n |||
    (grantDoubleVector request topPriority).extractLsb' n n

/-- `top_priority_reg` after a clock edge without reset, with `PIPELINE` set. -/
def nextTopPriority (request topPriority : BitVec n) (incrementTopPriority : Bool) : BitVec n :=
  if incrementTopPriority then
    if request ≠ 0 then (grant request topPriority).rotateLeft 1 else topPriority
  else topPriority

/-- There is a request at place `i`. -/
def Requests (request : BitVec n) (i : ℕ) : Prop := request.getLsbD i = true

/-- The double vector has the lowest request from the priority on. -/
lemma grantDoubleVector_eq (hp : p < n) :
    grantDoubleVector request (BitVec.twoPow n p) = lowestSet (request ++ request) p := by
  have hnot : ~~~request ++ ~~~request = ~~~(request ++ request) := by
    apply BitVec.eq_of_getLsbD_eq
    intro k hk
    simp only [BitVec.getLsbD_append, BitVec.getLsbD_not, hk, decide_true, Bool.true_and]
    split_ifs with hkn
    · simp [hkn]
    · simp [show k - n < n by omega]
  have hpow : 0#n ++ BitVec.twoPow n p = BitVec.twoPow (n + n) p := by
    apply BitVec.eq_of_getLsbD_eq
    intro k hk
    simp only [BitVec.getLsbD_append, BitVec.getLsbD_twoPow, BitVec.getLsbD_zero]
    split_ifs with hkn
    · simp [hp, show p < n + n by omega]
    · simp [show p ≠ k by omega]
  unfold grantDoubleVector
  rw [arbAdder_eq, hnot, hpow, lowestSet]

/-- In the lower half the first requester from the priority on is granted, in the upper half the
first one from the beginning if there is none from the priority on. -/
lemma first_iff (hp : p < n) (hi : i < n) : First n (Requests request) p i ↔
    Requests request i ∧ ((p ≤ i ∧ ∀ m, p ≤ m → m < i → ¬ Requests request m) ∨
      i < p ∧ (∀ m, p ≤ m → m < n → ¬ Requests request m) ∧
        ∀ m, m < i → ¬ Requests request m) := by
  constructor
  · rintro ⟨-, hri, hle⟩
    refine ⟨hri, ?_⟩
    unfold distance at hle
    by_cases hpi : p ≤ i
    · refine .inl ⟨hpi, fun m hpm hmi hrm => ?_⟩
      have := hle m (by omega) hrm
      rw [if_pos hpi, if_pos hpm] at this
      omega
    · refine .inr ⟨by omega, fun m hpm hmn hrm => ?_, fun m hmi hrm => ?_⟩
      · have := hle m hmn hrm
        rw [if_neg hpi, if_pos hpm] at this
        omega
      · have := hle m (by omega) hrm
        rw [if_neg hpi, if_neg (by omega)] at this
        omega
  · rintro ⟨hri, h⟩
    refine ⟨hi, hri, fun j hj hrj => ?_⟩
    unfold distance
    rcases h with ⟨hpi, hno⟩ | ⟨hip, hno, hno'⟩
    · have hj' : ¬ (p ≤ j ∧ j < i) := fun h => hno j h.1 h.2 hrj
      split_ifs <;> omega
    · have hj' : ¬ p ≤ j := fun h => hno j h hj hrj
      have hij : ¬ j < i := fun h => hno' j h hrj
      rw [if_neg (by omega), if_neg hj']
      omega

/-- The bits of the requests twice side by side. -/
lemma getLsbD_request_request (request : BitVec n) {k : ℕ} (hk : k < n) :
    (request ++ request).getLsbD k = request.getLsbD k ∧
      (request ++ request).getLsbD (n + k) = request.getLsbD k := by
  rw [BitVec.getLsbD_append, BitVec.getLsbD_append, if_pos hk, if_neg (by omega),
    Nat.add_sub_cancel_left]
  exact ⟨rfl, rfl⟩

/-- The arbiter grants the first requester from the priority on. -/
theorem grant_iff (hp : p < n) (hi : i < n) :
    (grant request (BitVec.twoPow n p)).getLsbD i = true ↔ First n (Requests request) p i := by
  have hbit : ∀ k < n + n, (grantDoubleVector request (BitVec.twoPow n p)).getLsbD k = true ↔
      (request ++ request).getLsbD k = true ∧ p ≤ k ∧
        ∀ m, p ≤ m → m < k → (request ++ request).getLsbD m = false := by
    intro k hk
    rw [grantDoubleVector_eq hp]
    exact getLsbD_lowestSet_iff _ hk
  have hlow := fun k (hk : k < n) => (getLsbD_request_request request hk).1
  have hhigh := fun k (hk : k < n) => (getLsbD_request_request request hk).2
  unfold grant
  rw [BitVec.getLsbD_or, BitVec.getLsbD_extractLsb', BitVec.getLsbD_extractLsb', Nat.zero_add,
    decide_eq_true hi, Bool.true_and, Bool.true_and, Bool.or_eq_true, hbit i (by omega),
    hbit (n + i) (by omega), hlow i hi, hhigh i hi, first_iff hp hi, ← and_or_left]
  refine and_congr_right fun hri => ?_
  constructor
  · rintro (⟨hpi, hno⟩ | ⟨-, hno⟩)
    · refine .inl ⟨hpi, fun m hpm hmi => ?_⟩
      rw [Requests, ← hlow m (by omega), hno m hpm hmi]
      exact Bool.false_ne_true
    · have hip : i < p := by
        by_contra hpi
        have := hno i (by omega) (by omega)
        rw [hlow i hi, hri] at this
        exact Bool.false_ne_true this.symm
      refine .inr ⟨hip, fun m hpm hmn => ?_, fun m hmi => ?_⟩
      · rw [Requests, ← hlow m hmn, hno m hpm (by omega)]
        exact Bool.false_ne_true
      · rw [Requests, ← hhigh m (by omega), hno (n + m) (by omega) (by omega)]
        exact Bool.false_ne_true
  · rintro (⟨hpi, hno⟩ | ⟨hip, hno, hno'⟩)
    · refine .inl ⟨hpi, fun m hpm hmi => ?_⟩
      rw [hlow m (by omega)]
      exact Bool.eq_false_iff.mpr (hno m hpm hmi)
    · refine .inr ⟨by omega, fun m hpm hmi => ?_⟩
      by_cases hmn : m < n
      · rw [hlow m hmn]
        exact Bool.eq_false_iff.mpr (hno m hpm hmn)
      · obtain ⟨k, rfl⟩ := Nat.exists_eq_add_of_le (Nat.not_lt.mp hmn)
        rw [hhigh k (by omega)]
        exact Bool.eq_false_iff.mpr (hno' k (by omega))

/-- The grant has a single bit. -/
lemma grant_eq_twoPow (hp : p < n) (h : First n (Requests request) p i) :
    grant request (BitVec.twoPow n p) = BitVec.twoPow n i := by
  apply BitVec.eq_of_getLsbD_eq
  intro k hk
  rw [Bool.eq_iff_iff, grant_iff hp hk, BitVec.getLsbD_twoPow, decide_eq_true h.lt, Bool.true_and,
    decide_eq_true_eq]
  exact ⟨fun hk => h.unique hp hk, fun hk => hk ▸ h⟩

/-- Without a request nothing is granted. -/
lemma grant_zero (topPriority : BitVec n) : grant 0#n topPriority = 0#n := by
  unfold grant grantDoubleVector
  apply BitVec.eq_of_getLsbD_eq
  intro k hk
  simp

/-- Turning a single bit to the left moves it to the next place. -/
lemma rotateLeft_twoPow (hi : i < n) :
    (BitVec.twoPow n i).rotateLeft 1 = BitVec.twoPow n (next n i) := by
  apply BitVec.eq_of_getLsbD_eq
  intro k hk
  have hnext := next_lt hi
  by_cases hn : n = 1
  · subst hn
    obtain rfl : i = 0 := by omega
    rfl
  · rw [BitVec.getLsbD_rotateLeft_of_le (show 1 < n by omega), BitVec.getLsbD_twoPow,
      BitVec.getLsbD_twoPow, BitVec.getLsbD_twoPow, decide_eq_true hi, decide_eq_true hnext,
      decide_eq_true hk, Bool.true_and, Bool.true_and, Bool.true_and, Bool.true_and]
    unfold next
    by_cases hk1 : k < 1
    · rw [decide_eq_true hk1, cond_true, decide_eq_decide]
      split_ifs <;> omega
    · rw [decide_eq_false hk1, cond_false, decide_eq_decide]
      split_ifs <;> omega

/-- After a decision the priority is at the place after the one that has been granted. -/
lemma nextTopPriority_of_first (hp : p < n) (h : First n (Requests request) p i) :
    nextTopPriority request (BitVec.twoPow n p) true = BitVec.twoPow n (next n i) := by
  have hne : request ≠ 0 := by
    rintro rfl
    have := h.requests
    simp [Requests] at this
  rw [nextTopPriority, if_pos rfl, if_pos hne, grant_eq_twoPow hp h, rotateLeft_twoPow h.lt]

end Decision

end CyclonRtes.Interconnect
