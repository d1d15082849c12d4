import CyclonRtes.ParallelPort.Entity

/-!
# The contract of the parallel port

What the port should do after a reset, as a function of the history of its slave cycles: the last
direction write decides which pins are driven, and each bit of the data register is what the last
operation that addresses this bit has given.  A data write addresses every bit; a set-bits and a
reset-bits write address the bits of their mask.

The entity carries out a reset-bits write as a NAND of data register and mask.  The direction and
the interrupt enable follow their histories in every run (`iRegDir_run`,
`iIRQEn_run`); the data register does so exactly as long as every reset-bits write finds all
bits of the register set (`contract_iff`).
-/

namespace CyclonRtes.ParallelPort

open Synchronous

variable {N : ℕ}

/-! ## The commands -/

/-- A direction write, with its data. -/
def directionWrite (i : Inputs N) : Option (BitVec N) :=
  if i.slave.writesTo 0b000 then some (i.slave.writeData.setWidth N) else none

/-- A write of the interrupt enable, with its data. -/
def enableWrite (i : Inputs N) : Option Bool :=
  if i.slave.writesTo 0b100 then some (i.slave.writeData.getLsbD 0) else none

/-- An operation that addresses bit `k` of the data register, with the value that it is to give. -/
def dataOperation (k : ℕ) (i : Inputs N) : Option Bool :=
  if i.slave.writesTo 0b001 then some (i.slave.writeData.getLsbD k)
  else if i.slave.writesTo 0b010 && i.slave.writeData.getLsbD k then some true
  else if i.slave.writesTo 0b011 && i.slave.writeData.getLsbD k then some false
  else none

/-- A reset-bits write. -/
def resetBits (i : Inputs N) : Bool := i.slave.writesTo 0b011

/-! ## The contract -/

section Contract

variable (e : Entity N) (i : ℕ → Inputs N)

/-- The value that bit `k` of the data register should have in cycle `t`. -/
def dataBit (k t : ℕ) : Bool := (latest (dataOperation k) i t).getD (e.iRegPort.getLsbD k)

/-- The last direction write before cycle `t` had bit `k` set. -/
def IsOutput (k t : ℕ) : Prop := ∃ w, latest directionWrite i t = some w ∧ w.getLsbD k = true

/-- What the port owes in cycle `t` after a reset that left it in the state `e`. -/
structure Contract (t : ℕ) : Prop where
  /-- The pins that are driven. -/
  driven : ∀ k < N, (pPort (run Entity.step e i t) k).isSome = true ↔ IsOutput i k t
  /-- The bits of the data register. -/
  data : ∀ k < N, (run Entity.step e i t).iRegPort.getLsbD k = dataBit e i k t
  /-- The level of a driven pin. -/
  carries : ∀ k < N, ∀ b, pPort (run Entity.step e i t) k = some b → b = dataBit e i k t
  /-- The interrupt line. -/
  interrupt : irq (run Entity.step e i t) = true ↔
    (latest enableWrite i t).getD e.iIRQEn = true ∧ IsOutput i 2 t ∧ dataBit e i 2 t = true

end Contract

/-! ## One write -/

section Write

variable {e : Entity N} {x : Inputs N}

/-- The direction register follows the direction writes. -/
lemma iRegDir_pRegWr :
    (pRegWr true x.slave e).iRegDir = (directionWrite x).getD e.iRegDir := by
  unfold pRegWr directionWrite SlavePort.writesTo
  cases hw : x.slave.writes
  · simp
  · simp only [Bool.not_true, Bool.false_eq_true, if_false, if_true, Bool.true_and]
    split <;> simp_all

/-- The interrupt enable follows its writes. -/
lemma iIRQEn_pRegWr : (pRegWr true x.slave e).iIRQEn = (enableWrite x).getD e.iIRQEn := by
  unfold pRegWr enableWrite SlavePort.writesTo
  cases hw : x.slave.writes
  · simp
  · simp only [Bool.not_true, Bool.false_eq_true, if_false, if_true, Bool.true_and]
    split <;> simp_all

/-- Apart from reset-bits writes, the bits of the data register follow the data operations. -/
lemma getLsbD_iRegPort_pRegWr {k : ℕ} (hk : k < N) (hx : resetBits x = false) :
    (pRegWr true x.slave e).iRegPort.getLsbD k =
      (dataOperation k x).getD (e.iRegPort.getLsbD k) := by
  unfold resetBits at hx
  unfold pRegWr dataOperation
  unfold SlavePort.writesTo at hx ⊢
  cases hw : x.slave.writes
  · simp
  · rw [hw] at hx
    simp only [Bool.not_true, Bool.false_eq_true, if_false, if_true, Bool.true_and] at hx ⊢
    split <;> simp_all
    cases x.slave.writeData.getLsbD k <;> simp

/-- A reset-bits write gives the negated conjunction of the old bit and the mask bit. -/
lemma getLsbD_iRegPort_resetBits {k : ℕ} (hk : k < N) (hx : resetBits x = true) :
    (pRegWr true x.slave e).iRegPort.getLsbD k =
      !(e.iRegPort.getLsbD k && x.slave.writeData.getLsbD k) := by
  obtain ⟨hw, ha⟩ := SlavePort.writesTo_iff.mp hx
  simp [pRegWr, hw, ha, hk]

/-- A reset-bits write addresses the bits of its mask. -/
lemma dataOperation_resetBits {k : ℕ} (hx : resetBits x = true) :
    dataOperation k x = if x.slave.writeData.getLsbD k then some false else none := by
  obtain ⟨hw, ha⟩ := SlavePort.writesTo_iff.mp hx
  simp [dataOperation, SlavePort.writesTo, hw, ha]

/-- A reset-bits write does to a bit what it should exactly when the bit was set. -/
lemma getLsbD_resetBits_iff {k : ℕ} (hk : k < N) (hx : resetBits x = true) :
    (pRegWr true x.slave e).iRegPort.getLsbD k =
      (dataOperation k x).getD (e.iRegPort.getLsbD k) ↔ e.iRegPort.getLsbD k = true := by
  rw [getLsbD_iRegPort_resetBits hk hx, dataOperation_resetBits hx]
  cases e.iRegPort.getLsbD k <;> cases x.slave.writeData.getLsbD k <;> simp

end Write

/-! ## Runs -/

section Run

variable {e : Entity N} {i : ℕ → Inputs N} {t : ℕ}

/-- Without reset every cycle carries out its write. -/
lemma run_succ_eq (hi : ∀ t, (i t).nReset = true) (t : ℕ) :
    run Entity.step e i (t + 1) =
      { pRegWr true (i t).slave (run Entity.step e i t) with
        readData := pRegRd (i t).slave (i t).external (run Entity.step e i t) } := by
  rw [run_succ, step_of_nReset (hi t)]

/-- In every run the direction register is what the last direction write has made it. -/
theorem iRegDir_run (hi : ∀ t, (i t).nReset = true) :
    (run Entity.step e i t).iRegDir = (latest directionWrite i t).getD e.iRegDir := by
  induction t with
  | zero => rfl
  | succ t ih =>
    rw [run_succ_eq hi, getD_latest_succ, ← ih]
    exact iRegDir_pRegWr

/-- In every run the interrupt enable is what its last write has made it. -/
theorem iIRQEn_run (hi : ∀ t, (i t).nReset = true) :
    (run Entity.step e i t).iIRQEn = (latest enableWrite i t).getD e.iIRQEn := by
  induction t with
  | zero => rfl
  | succ t ih =>
    rw [run_succ_eq hi, getD_latest_succ, ← ih]
    exact iIRQEn_pRegWr

/-- The value that a bit should have follows the data operations. -/
lemma dataBit_succ (k : ℕ) :
    dataBit e i k (t + 1) = (dataOperation k (i t)).getD (dataBit e i k t) :=
  getD_latest_succ _

/-- The data bits follow their operations if every reset-bits write finds all bits set. -/
lemma getLsbD_iRegPort_run (hi : ∀ t, (i t).nReset = true)
    (hones : ∀ u < t, resetBits (i u) = true →
      (run Entity.step e i u).iRegPort = BitVec.allOnes N) {k : ℕ} (hk : k < N) :
    (run Entity.step e i t).iRegPort.getLsbD k = dataBit e i k t := by
  induction t with
  | zero => rfl
  | succ t ih =>
    have hprev := ih fun u hu => hones u (Nat.lt_succ_of_lt hu)
    rw [run_succ_eq hi, dataBit_succ, ← hprev]
    cases hx : resetBits (i t) with
    | false => exact getLsbD_iRegPort_pRegWr hk hx
    | true =>
      have hall := hones t (Nat.lt_succ_self t) hx
      refine (getLsbD_resetBits_iff hk hx).mpr ?_
      rw [hall]
      simp [hk]

/-- After a reset a bit of the direction register is set when the last direction write has set
it. -/
lemma getLsbD_iRegDir_run (hi : ∀ t, (i t).nReset = true) (hdir : e.iRegDir = 0) (k : ℕ) :
    (run Entity.step e i t).iRegDir.getLsbD k = true ↔ IsOutput i k t := by
  rw [iRegDir_run hi, hdir]
  unfold IsOutput
  cases latest directionWrite i t <;> simp

/-- When the data bits are right, so is everything else. -/
lemma contract_of_data (hN : 3 ≤ N) (hi : ∀ t, (i t).nReset = true) (hdir : e.iRegDir = 0)
    (hdata : ∀ k < N, (run Entity.step e i t).iRegPort.getLsbD k = dataBit e i k t) :
    Contract e i t := by
  refine ⟨?_, hdata, ?_, ?_⟩
  · intro k _
    rw [← getLsbD_iRegDir_run hi hdir k]
    unfold pPort
    split_ifs with h <;> simp [h]
  · intro k hk b hb
    unfold pPort at hb
    split_ifs at hb
    rw [← hdata k hk]
    exact (Option.some.inj hb).symm
  · rw [← getLsbD_iRegDir_run hi hdir 2, ← hdata 2 hN, ← iIRQEn_run hi]
    unfold irq
    rw [Bool.and_eq_true, Bool.and_eq_true, and_assoc]

/-- The contract of the parallel port after a reset, for every width and all initial contents: it
is met in all cycles up to `T` if and only if every reset-bits write before finds all bits of the
data register set. -/
theorem contract_iff (hN : 3 ≤ N) (e : Entity N) {x : Inputs N} (hx : x.nReset = false)
    (hi : ∀ t, (i t).nReset = true) (T : ℕ) :
    (∀ t ≤ T, Contract (e.step x) i t) ↔
      ∀ t < T, resetBits (i t) = true →
        (run Entity.step (e.step x) i t).iRegPort = BitVec.allOnes N := by
  constructor
  · intro hcontract t ht hreset
    apply BitVec.eq_of_getLsbD_eq
    intro k hk
    have hnow := (hcontract t ht.le).data k hk
    have hnext := (hcontract (t + 1) ht).data k hk
    rw [run_succ_eq hi, dataBit_succ, ← hnow] at hnext
    rw [BitVec.getLsbD_allOnes, decide_eq_true hk]
    exact (getLsbD_resetBits_iff hk hreset).mp hnext
  · intro hones t ht
    have hdir : (e.step x).iRegDir = 0 := by rw [step_of_reset hx]; rfl
    exact contract_of_data hN hi hdir fun k hk =>
      getLsbD_iRegPort_run hi (fun u hu => hones u (by omega)) hk

end Run

/-- A cycle that writes `d` to the register at `a` of a port of eight pins. -/
def writeCycle (nReset : Bool) (a : ℕ) (d : Word) : Inputs 8 :=
  { nReset := nReset, slave := .iowr32Direct (4 * a) d, external := 0 }

/-- The port with all registers zero but the interrupt enable. -/
def Entity.initial : Entity 8 := ⟨0, 0, true, 0⟩

/-- The data register is written with `0x0F`, then bit 0 is to be reset. -/
def writeThenReset (t : ℕ) : Inputs 8 :=
  if t = 0 then writeCycle true 1 0x0F else writeCycle true 3 0x01

/-- Resetting bit 0 of `0x0F` gives `0xFE`: the bits outside the mask do not keep their values. -/
theorem contract_fails_resetBits :
    let e := Entity.initial.step (writeCycle false 7 0)
    (run Entity.step e writeThenReset 2).iRegPort = 0xFE ∧
      ¬ Contract e writeThenReset 2 := by
  intro e
  have hport : (run Entity.step e writeThenReset 2).iRegPort = 0xFE := by decide
  refine ⟨hport, ?_⟩
  intro hcontract
  have hbit := hcontract.data 4 (by decide)
  rw [hport] at hbit
  exact absurd hbit (by decide)

/-- Resetting bit 0 of `0xFF` meets the contract. -/
theorem contract_iff_allOnes :
    let e := Entity.initial.step (writeCycle false 7 0)
    let i := fun t => if t = 0 then writeCycle true 1 0xFF else writeCycle true 3 0x01
    Contract e i 2 := by
  intro e i
  have hnReset : ∀ t, (i t).nReset = true := by
    intro t
    by_cases ht : t = 0 <;> simp [i, ht, writeCycle]
  have hones : ∀ t < 2, resetBits (i t) = true →
      (run Entity.step e i t).iRegPort = BitVec.allOnes 8 := by decide
  exact (contract_iff (by decide) Entity.initial rfl hnReset 2).mpr hones 2 (le_refl 2)

end CyclonRtes.ParallelPort
