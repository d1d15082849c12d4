import Mathlib.Logic.Equiv.Basic
import CyclonRtes.Swap.Entity

/-!
# Three implementations of the reshuffle

The word operation of the accelerator exists three times in `custom_instruction_profiling`: in
software, as sixteen calls of `Swap` that are recorded in `SwapTP2` of `bit_reshuffling.c`; as the
combinational custom instruction `BitSwap.vhd`, which `SwapTP2` calls; and as the `CALCULATE` state
of the accelerator.  They use different index conventions and compute the same function, which is
its own inverse (`reshuffles_agree`).

A sequence of calls of `Swap` permutes the bits of its word.  The permutation is computed by
`sourceIndex`, so that the sixteen calls are compared with the other two bit by bit.
-/

namespace CyclonRtes.BitReshuffling

open Bits Swap

/-! ## The software -/

/-- Function `Swap`; `1 << a` is the word in which only bit `a` is set. -/
def swap (a b : ℕ) (data : Word) : Word :=
  if ((data &&& (1#32 <<< a)) >>> a) ^^^ ((data &&& (1#32 <<< b)) >>> b) ≠ 0 then
    (data ^^^ (1#32 <<< a)) ^^^ (1#32 <<< b)
  else data

/-- A sequence of calls `res = Swap(a, b, res)`. -/
def swaps (calls : List (ℕ × ℕ)) (res : Word) : Word :=
  calls.foldl (fun res c => swap c.1 c.2 res) res

/-- The calls recorded in `SwapTP2`. -/
def recordedCalls : List (ℕ × ℕ) :=
  [(24, 0), (25, 1), (26, 2), (27, 3), (28, 4), (29, 5), (30, 6), (31, 7),
    (23, 8), (22, 9), (21, 10), (20, 11), (19, 12), (18, 13), (17, 14), (16, 15)]

/-- Entity `BitSwap`. -/
def bitSwap (dataa : Word) : Word :=
  let result := assignBits 0 (List.range' 24 8) fun i => dataa.getLsbD (i - 24)
  let result := assignBits result (List.range' 0 8) fun i => dataa.getLsbD (i + 24)
  -- for i in 0 to 15 generate
  (List.range 16).foldl (fun result i => assignBit result (8 + i) (dataa.getLsbD (23 - i))) result

/-- Function `SwapTP2`, which calls the custom instruction. -/
def swapTP2 (res : Word) : Word := bitSwap res

/-! ## Exchanging two bits -/

section Swap

variable {a b j : ℕ} {data : Word}

/-- Masking and shifting a word leaves the bit as a number. -/
lemma and_shiftLeft_ushiftRight (ha : a < 32) :
    (data &&& (1#32 <<< a)) >>> a = if data.getLsbD a then 1 else 0 := by
  apply BitVec.eq_of_getLsbD_eq
  intro k hk
  rw [← BitVec.twoPow_eq, BitVec.and_twoPow, BitVec.getLsbD_ushiftRight]
  cases data.getLsbD a
  · simp
  · by_cases hk0 : k = 0
    · simp [hk0, ha]
    · simp [BitVec.getLsbD_twoPow, BitVec.getLsbD_one, hk0]

/-- The condition of `Swap` compares the two bits. -/
lemma swap_eq (ha : a < 32) (hb : b < 32) :
    swap a b data =
      if data.getLsbD a = data.getLsbD b then data
      else (data ^^^ BitVec.twoPow 32 a) ^^^ BitVec.twoPow 32 b := by
  unfold swap
  rw [and_shiftLeft_ushiftRight ha, and_shiftLeft_ushiftRight hb, BitVec.twoPow_eq,
    BitVec.twoPow_eq]
  cases data.getLsbD a <;> cases data.getLsbD b <;> simp

/-- `Swap` exchanges two bits and keeps all others. -/
theorem getLsbD_swap (ha : a < 32) (hb : b < 32) :
    (swap a b data).getLsbD j = data.getLsbD (Equiv.swap a b j) := by
  rw [swap_eq ha hb, Equiv.swap_apply_def]
  split_ifs with hbits hja hjb hja hjb
  · rw [hja, hbits]
  · rw [hjb, hbits]
  · rfl
  · have hab : b ≠ a := fun h => hbits (by rw [h])
    subst hja
    simp only [BitVec.getLsbD_xor, BitVec.getLsbD_twoPow, ha, decide_true, hab, decide_false]
    cases hda : data.getLsbD j <;> cases hdb : data.getLsbD b <;> simp_all
  · subst hjb
    have hab : a ≠ j := fun h => hbits (by rw [h])
    simp only [BitVec.getLsbD_xor, BitVec.getLsbD_twoPow, hb, decide_true, hab, decide_false]
    cases hda : data.getLsbD a <;> cases hdb : data.getLsbD j <;> simp_all
  · simp [BitVec.getLsbD_xor, BitVec.getLsbD_twoPow, Ne.symm hja, Ne.symm hjb]

end Swap

/-! ## Sequences of exchanges -/

/-- The bit of the first word that a sequence of calls of `Swap` brings to position `j`. -/
def sourceIndex (calls : List (ℕ × ℕ)) (j : ℕ) : ℕ :=
  calls.foldr (fun c j => Equiv.swap c.1 c.2 j) j

/-- Exchanging two positions of a word leads to a position of the word. -/
lemma swap_lt {a b j : ℕ} (ha : a < 32) (hb : b < 32) (hj : j < 32) : Equiv.swap a b j < 32 := by
  rw [Equiv.swap_apply_def]
  split_ifs <;> assumption

/-- A sequence of calls of `Swap` permutes the bits. -/
theorem getLsbD_swaps {calls : List (ℕ × ℕ)} (hcalls : ∀ c ∈ calls, c.1 < 32 ∧ c.2 < 32)
    (res : Word) {j : ℕ} (hj : j < 32) :
    sourceIndex calls j < 32 ∧ (swaps calls res).getLsbD j = res.getLsbD (sourceIndex calls j) := by
  induction calls generalizing res with
  | nil => exact ⟨hj, rfl⟩
  | cons c calls ih =>
    obtain ⟨ha, hb⟩ := hcalls c List.mem_cons_self
    obtain ⟨hlt, hbit⟩ := ih (fun c hc => hcalls c (List.mem_cons_of_mem _ hc))
      (swap c.1 c.2 res)
    refine ⟨swap_lt ha hb hlt, ?_⟩
    exact hbit.trans (getLsbD_swap ha hb)

/-- The recorded calls reshuffle the word. -/
theorem swaps_recordedCalls (w : Word) : swaps recordedCalls w = reshuffle w := by
  have hindex : ∀ j < 32, sourceIndex recordedCalls j =
      if j < 8 then j + 24 else if j < 24 then 31 - j else j - 24 := by decide
  apply BitVec.eq_of_getLsbD_eq
  intro j hj
  rw [(getLsbD_swaps (by decide) w hj).2, getLsbD_reshuffle w hj, hindex j hj]
  split_ifs <;> rfl

/-! ## The custom instruction -/

/-- The generate loop of `BitSwap` assigns the middle bits. -/
lemma foldl_assignBit (dataa result : Word) :
    (List.range 16).foldl (fun result i => assignBit result (8 + i) (dataa.getLsbD (23 - i)))
        result =
      assignBits result ((List.range 16).map (8 + ·)) fun k => dataa.getLsbD (23 - (k - 8)) := by
  rw [assignBits, List.foldl_map]
  simp only [Nat.add_sub_cancel_left]

/-- The custom instruction reshuffles the word. -/
theorem bitSwap_eq (w : Word) : bitSwap w = reshuffle w := by
  apply BitVec.eq_of_getLsbD_eq
  intro j hj
  rw [getLsbD_reshuffle w hj, bitSwap, foldl_assignBit]
  have hmiddle : j ∈ (List.range 16).map (8 + ·) ↔ 8 ≤ j ∧ j < 24 := by
    simp only [List.mem_map, List.mem_range]
    constructor
    · rintro ⟨i, hi, rfl⟩
      omega
    · rintro ⟨h8, h24⟩
      exact ⟨j - 8, by omega, by omega⟩
  simp only [getLsbD_assignBits _ _ _ hj, List.mem_range'_1, hmiddle]
  rcases Nat.lt_or_ge j 8 with h8 | h8
  · simp [h8, Nat.not_le.mpr h8]
  rcases Nat.lt_or_ge j 24 with h24 | h24
  · have hidx : 23 - (j - 8) = 31 - j := by omega
    simp [Nat.not_lt.mpr h8, h8, h24, hidx]
  · simp [Nat.not_lt.mpr h8, Nat.not_lt.mpr h24, h24, hj]

/-! ## Agreement -/

/-- The recorded calls of `Swap`, the custom instruction and the `CALCULATE` state of the
accelerator compute the same function of a word; it is its own inverse, and `Swap` exchanges any two
bits. -/
theorem reshuffles_agree (w : Word) :
    swaps recordedCalls w = swapTP2 w ∧
      (∀ (m : Master) (r : SlaveRegisters) (mWaitRequest : Bool) (mReadData : Word),
        m.state = .calculate → m.dataRd = w →
        (transitionMasterFSM customInstruction true r mWaitRequest mReadData m).result =
          swapTP2 w) ∧
      swapTP2 (swapTP2 w) = w ∧
      ∀ (a b : Fin 32) (j : ℕ),
        (swap a b w).getLsbD j = w.getLsbD (Equiv.swap a.val b.val j) := by
  have htp2 : ∀ w, swapTP2 w = reshuffle w := bitSwap_eq
  refine ⟨?_, ?_, ?_, ?_⟩
  · rw [swaps_recordedCalls, htp2]
  · intro m r mWaitRequest mReadData hm hd
    rw [fsm_calculate hm, htp2, ← hd]
    rfl
  · rw [htp2, htp2, reshuffle_reshuffle]
  · intro a b j
    exact getLsbD_swap a.isLt b.isLt

end CyclonRtes.BitReshuffling
