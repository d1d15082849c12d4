import CyclonRtes.Counter.Entity
import CyclonRtes.ParallelPort.Entity

/-!
# Reading registers back

The write and the read decoder of the parallel port are two case tables.  They agree on the
direction register and on the data register, but the interrupt enable is written at address 100 and
read at address 011; a read of address 100 returns zero.  A written value is read back from the
address to which it was written exactly when it is not a set interrupt enable (`readBack_iff`).  In
the counter the interrupt enable has address 100 both ways.
-/

namespace CyclonRtes.ParallelPort

open Synchronous

variable {N : ℕ}

/-- The writable registers of the port. -/
inductive Register where
  | direction | data | interruptEnable
  deriving DecidableEq, Repr

namespace Register

/-- The address at which a register is written. -/
def address : Register → BitVec 3
  | .direction => 0b000
  | .data => 0b001
  | .interruptEnable => 0b100

/-- A cycle that writes to the register.  The data register is also changed by the set-bits and
the reset-bits write. -/
def concerns (r : Register) (i : Inputs N) : Bool :=
  match r with
  | .direction => i.slave.writesTo 0b000
  | .data => i.slave.writesTo 0b001 || i.slave.writesTo 0b010 || i.slave.writesTo 0b011
  | .interruptEnable => i.slave.writesTo 0b100

/-- The word `v` as a register holds it: truncated to the width of the register and extended with
zeros. -/
def stored (N : ℕ) (r : Register) (v : Word) : Word :=
  match r with
  | .direction | .data => (v.setWidth N).setWidth 32
  | .interruptEnable => if v.getLsbD 0 then 1 else 0

/-- The contents of a register, extended with zeros. -/
def contents (r : Register) (e : Entity N) : Word :=
  match r with
  | .direction => e.iRegDir.setWidth 32
  | .data => e.iRegPort.setWidth 32
  | .interruptEnable => if e.iIRQEn then 1 else 0

end Register

/-- Register `r` is written in cycle `w` and its address is read in cycle `c`; the accesses between
them do not concern it. -/
structure WrittenThenRead (r : Register) (i : ℕ → Inputs N) (w c : ℕ) : Prop where
  lt : w < c
  write : (i w).slave.writesTo r.address = true
  others : ∀ u, w < u → u < c → r.concerns (i u) = false
  read : (i c).slave.readsFrom r.address = true

section Step

variable {r : Register} {e : Entity N} {x : Inputs N}

/-- A write to the address of a register stores the word. -/
lemma contents_step_of_write (hx : x.nReset = true) (h : x.slave.writesTo r.address = true) :
    r.contents (e.step x) = r.stored N x.slave.writeData := by
  obtain ⟨hw, ha⟩ := SlavePort.writesTo_iff.mp h
  rw [step_of_nReset hx]
  cases r with
  | direction => simp [pRegWr, hw, ha, Register.address, Register.contents, Register.stored]
  | data => simp [pRegWr, hw, ha, Register.address, Register.contents, Register.stored]
  | interruptEnable => simp [pRegWr, hw, ha, Register.address, Register.contents, Register.stored]

/-- A cycle that does not concern a register leaves it as it is. -/
lemma contents_step_of_not_concerns (hx : x.nReset = true) (h : r.concerns x = false) :
    r.contents (e.step x) = r.contents e := by
  rw [step_of_nReset hx]
  unfold pRegWr
  cases hw : x.slave.writes
  · cases r <;> simp [Register.contents]
  · unfold Register.concerns SlavePort.writesTo at h
    rw [hw] at h
    simp only [Bool.not_true, Bool.false_eq_true, if_false, if_true, Bool.true_and] at h ⊢
    cases r <;> split <;> simp_all [Register.contents]

/-- What a read of the address of a register returns. -/
lemma pRegRd_of_readsFrom {external : BitVec N} {p : SlavePort}
    (h : p.readsFrom r.address = true) :
    pRegRd p external e = if r = .interruptEnable then 0 else r.contents e := by
  have hread : p.reads = true ∧ p.address = r.address := by simpa [SlavePort.readsFrom] using h
  unfold pRegRd
  rw [hread.1, hread.2]
  cases r <;> simp [Register.address, Register.contents]

/-- A cycle without a write changes no register. -/
lemma registers_of_not_writes (hx : x.nReset = true) (hw : x.slave.writes = false) :
    (e.step x).iRegDir = e.iRegDir ∧ (e.step x).iRegPort = e.iRegPort ∧
      (e.step x).iIRQEn = e.iIRQEn := by
  rw [step_of_nReset hx]
  simp [pRegWr, hw]

end Step

/-- The contents of a register when its address is read. -/
lemma contents_run {r : Register} {e : Entity N} {i : ℕ → Inputs N} {w c : ℕ}
    (hi : ∀ t, (i t).nReset = true) (h : WrittenThenRead r i w c) :
    r.contents (run Entity.step e i c) = r.stored N (i w).slave.writeData := by
  have hkept : r.contents (run Entity.step e i c) = r.contents (run Entity.step e i (w + 1)) :=
    run_kept h.lt fun u hwu huc => contents_step_of_not_concerns (hi u) (h.others u hwu huc)
  exact hkept.trans (contents_step_of_write (hi w) h.write)

/-- The interrupt enable of the counter is read back from the address at which it is written. -/
lemma counter_readBack {e : Counter.Entity} {i : ℕ → Counter.Inputs} {w c : ℕ}
    (hi : ∀ t, (i t).nReset = true) (hwc : w < c) (hw : (i w).slave.writesTo 0b100 = true)
    (hother : ∀ u, w < u → u < c → (i u).slave.writesTo 0b100 = false)
    (hc : (i c).slave.readsFrom 0b100 = true) :
    (run Counter.Entity.step e i (c + 1)).readData =
      if (i w).slave.writeData.getLsbD 0 then 1 else 0 := by
  have hkept : (run Counter.Entity.step e i c).iIRQEn =
      (run Counter.Entity.step e i (w + 1)).iIRQEn := by
    refine run_kept (f := Counter.Entity.iIRQEn) hwc fun u hwu huc => ?_
    rw [run_succ, Counter.step_iIRQEn (hi u), Counter.enableCommand, hother u hwu huc]
    rfl
  have hwritten : (run Counter.Entity.step e i (w + 1)).iIRQEn =
      (i w).slave.writeData.getLsbD 0 := by
    rw [run_succ, Counter.step_iIRQEn (hi w), Counter.enableCommand, if_pos hw]
    rfl
  have hread : (i c).slave.reads = true ∧ (i c).slave.address = 0b100 := by
    simpa [SlavePort.readsFrom] using hc
  rw [run_succ, Counter.step_readData (hi c), Counter.pRegRd, hread.1, hread.2, ← hwritten,
    ← hkept]
  rfl

/-- Register read-back of the parallel port, from any state: the word written to a register is read
back from the same address if and only if it is not an interrupt enable that is set.  The counter
returns its interrupt enable from the address at which it is written, and a cycle without a write
changes no register of the port. -/
theorem readBack_iff (e : Entity N) {i : ℕ → Inputs N} (hi : ∀ t, (i t).nReset = true) :
    (∀ (r : Register) (w c : ℕ), WrittenThenRead r i w c →
      ((run Entity.step e i (c + 1)).readData = r.stored N (i w).slave.writeData ↔
        (r = .interruptEnable → (i w).slave.writeData.getLsbD 0 = false))) ∧
      (∀ (e : Counter.Entity) (i : ℕ → Counter.Inputs), (∀ t, (i t).nReset = true) →
        ∀ w c, w < c → (i w).slave.writesTo 0b100 = true →
        (∀ u, w < u → u < c → (i u).slave.writesTo 0b100 = false) →
        (i c).slave.readsFrom 0b100 = true →
        (run Counter.Entity.step e i (c + 1)).readData =
          if (i w).slave.writeData.getLsbD 0 then 1 else 0) ∧
      ∀ t, (i t).slave.writes = false →
        (run Entity.step e i (t + 1)).iRegDir = (run Entity.step e i t).iRegDir ∧
        (run Entity.step e i (t + 1)).iRegPort = (run Entity.step e i t).iRegPort ∧
        (run Entity.step e i (t + 1)).iIRQEn = (run Entity.step e i t).iIRQEn := by
  refine ⟨?_, fun e i hi w c => counter_readBack hi, fun t => registers_of_not_writes (hi t)⟩
  intro r w c h
  have hcontents := contents_run (e := e) hi h
  have hread : (run Entity.step e i (c + 1)).readData =
      if r = .interruptEnable then 0 else r.contents (run Entity.step e i c) := by
    rw [run_succ, step_of_nReset (hi c)]
    exact pRegRd_of_readsFrom h.read
  rw [hread, hcontents]
  by_cases hr : r = .interruptEnable
  · subst hr
    rw [if_pos rfl, Register.stored]
    cases (i w).slave.writeData.getLsbD 0 <;> simp
  · simp [hr]

/-- The interrupt enable is set, and its address is read. -/
def enableThenRead (t : ℕ) : Inputs 8 :=
  ⟨true, if t = 0 then .iowr32Direct (4 * 4) 1 else .iord32Direct (4 * 4), 0⟩

/-- A set interrupt enable is read back as zero from its address. -/
theorem readBack_fails_interruptEnable :
    WrittenThenRead .interruptEnable enableThenRead 0 1 ∧
      (run Entity.step (⟨0, 0, false, 0⟩ : Entity 8) enableThenRead 2).readData = 0 ∧
      Register.stored 8 .interruptEnable (enableThenRead 0).slave.writeData = 1 ∧
      (run Entity.step (⟨0, 0, false, 0⟩ : Entity 8) enableThenRead 2).readData ≠
        Register.stored 8 .interruptEnable (enableThenRead 0).slave.writeData := by
  refine ⟨⟨by decide, by decide, fun u h0 h1 => by omega, by decide⟩, by decide, by decide,
    by decide⟩

/-- The theorem at the data register of a port of eight pins: the direction register is written and
read in between. -/
theorem readBack_iff_data :
    let i : ℕ → Inputs 8 := fun t =>
      ⟨true, if t = 0 then .iowr32Direct (1 * 4) 0x1AA else if t = 1 then .iowr32Direct 0 0xFF
        else if t = 2 then .iord32Direct 0 else .iord32Direct (1 * 4), 0⟩
    (run Entity.step (⟨0, 0, false, 0⟩ : Entity 8) i 4).readData = 0xAA := by
  intro i
  have hback : WrittenThenRead .data i 0 3 := by
    refine ⟨by decide, by decide, fun u h0 h3 => ?_, by decide⟩
    obtain rfl | rfl : u = 1 ∨ u = 2 := by omega
    · decide
    · decide
  refine (((readBack_iff _ fun _ => rfl).1 .data 0 3 hback).mpr ?_).trans (by decide)
  simp

end CyclonRtes.ParallelPort
