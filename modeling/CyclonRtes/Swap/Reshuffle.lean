import CyclonRtes.Avalon.Port
import CyclonRtes.Bits.Assign

/-!
# The word operation of the accelerators

`reshuffle` exchanges the outer bytes of a word and reverses its middle 16 bits.  It is what the
`CALCULATE` state of the accelerator in `custom_instruction_profiling` is for; the state itself,
`calculateReshuffle`, assigns the bits of its `Result` register one by one in a loop and two slices
(`calculateReshuffle_eq`).  The accelerator in `burst_mode` copies the word unchanged.

A `Variant` collects what the two versions of the `swap` entity differ in: the `CALCULATE` state
and the increment of the two address counters.
-/

namespace CyclonRtes

open Bits

/-- Bytes 0 and 3 exchanged, the 16 bits between them reversed. -/
def reshuffle (w : Word) : Word :=
  w.extractLsb' 0 8 ++ (w.extractLsb' 8 16).reverse ++ w.extractLsb' 24 8

/-- The example from the comment of the `CALCULATE` state. -/
example : reshuffle 0x12345678 = 0x786A2C12 := by decide

/-- The bits of a reshuffled word. -/
lemma getLsbD_reshuffle (w : Word) {j : ℕ} (hj : j < 32) :
    (reshuffle w).getLsbD j =
      if j < 8 then w.getLsbD (j + 24)
      else if j < 24 then w.getLsbD (31 - j) else w.getLsbD (j - 24) := by
  simp only [reshuffle, BitVec.getLsbD_append, BitVec.getLsbD_extractLsb', BitVec.getLsbD_reverse,
    BitVec.getMsbD_eq_getLsbD]
  rcases Nat.lt_or_ge j 8 with h8 | h8
  · simp [h8, Nat.add_comm]
  rcases Nat.lt_or_ge j 24 with h24 | h24
  · have h16 : j - 8 < 16 := by omega
    have hlt : 15 - (j - 8) < 16 := by omega
    have hidx : 8 + (15 - (j - 8)) = 31 - j := by omega
    simp [Nat.not_lt.mpr h8, h24, h16, hlt, hidx]
  · have h16 : ¬ j - 8 < 16 := by omega
    have hlt : j - 24 < 8 := by omega
    have hidx : j - 8 - 16 = j - 24 := by omega
    simp [Nat.not_lt.mpr h8, Nat.not_lt.mpr h24, h16, hlt, hidx]

/-- Reshuffling twice gives the word back. -/
theorem reshuffle_reshuffle (w : Word) : reshuffle (reshuffle w) = w := by
  apply BitVec.eq_of_getLsbD_eq
  intro j hj
  rw [getLsbD_reshuffle _ hj]
  rcases Nat.lt_or_ge j 8 with h8 | h8
  · have h1 : ¬ j + 24 < 8 := by omega
    have h2 : ¬ j + 24 < 24 := by omega
    rw [if_pos h8, getLsbD_reshuffle _ (by omega), if_neg h1, if_neg h2, Nat.add_sub_cancel]
  rcases Nat.lt_or_ge j 24 with h24 | h24
  · have h1 : ¬ 31 - j < 8 := by omega
    have h2 : 31 - j < 24 := by omega
    have h3 : 31 - (31 - j) = j := by omega
    rw [if_neg (Nat.not_lt.mpr h8), if_pos h24, getLsbD_reshuffle _ (by omega), if_neg h1,
      if_pos h2, h3]
  · have h1 : j - 24 < 8 := by omega
    rw [if_neg (Nat.not_lt.mpr h8), if_neg (Nat.not_lt.mpr h24), getLsbD_reshuffle _ (by omega),
      if_pos h1, Nat.sub_add_cancel h24]

namespace Swap

/-- State `CALCULATE` of `custom_instruction_profiling`: the new `Result` register. -/
def calculateReshuffle (dataRd result : Word) : Word :=
  -- for i in 8 to 23 loop
  let result := assignBits result (List.range' 8 16) fun i => dataRd.getLsbD (31 - i)
  -- Result(31 downto 24) <= DataRd(7 downto 0), then the other outer byte
  let result := assignBits result (List.range' 24 8) fun i => dataRd.getLsbD (i - 24)
  assignBits result (List.range' 0 8) fun i => dataRd.getLsbD (i + 24)

/-- State `CALCULATE` of `burst_mode`: the new `Result` register. -/
def calculateCopy (dataRd _result : Word) : Word := dataRd

/-- The loop and the two slices together overwrite the whole register with the reshuffled word. -/
theorem calculateReshuffle_eq (dataRd result : Word) :
    calculateReshuffle dataRd result = reshuffle dataRd := by
  apply BitVec.eq_of_getLsbD_eq
  intro j hj
  rw [getLsbD_reshuffle _ hj, calculateReshuffle]
  simp only [getLsbD_assignBits _ _ _ hj, List.mem_range'_1]
  rcases Nat.lt_or_ge j 8 with h8 | h8
  · simp [h8]
  rcases Nat.lt_or_ge j 24 with h24 | h24
  · simp [Nat.not_lt.mpr h8, Nat.not_le.mpr h24, h8, h24]
  · simp [Nat.not_lt.mpr h8, Nat.not_lt.mpr h24, h24, hj]

/-- What the two versions of the `swap` entity differ in. -/
structure Variant where
  /-- The new `Result` register in state `CALCULATE`, from `DataRd` and the old `Result`. -/
  calculate : Word → Word → Word
  /-- The increment of `CntAdd` and `CntResultAdd` from one word to the next. -/
  increment : Word
  /-- The word operation that the variant carries out. -/
  image : Word → Word
  /-- The new `Result` is the image of the word read, whatever the register held before. -/
  calculate_eq : ∀ dataRd result, calculate dataRd result = image dataRd

/-- The entity of `custom_instruction_profiling/hw/hdl/swap.vhd`. -/
def customInstruction : Variant where
  calculate := calculateReshuffle
  increment := 4
  image := reshuffle
  calculate_eq := calculateReshuffle_eq

/-- The entity of `burst_mode/hw/hdl/swap.vhd`. -/
def burstMode : Variant where
  calculate := calculateCopy
  increment := 174
  image := id
  calculate_eq _ _ := rfl

end Swap

end CyclonRtes
