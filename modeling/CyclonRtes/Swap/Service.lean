import CyclonRtes.Swap.Discipline

/-!
# Programming the accelerator

The register offsets of `service.c` and the four register writes with which
`bit_reshuffle_hardware_accelerator` starts a job.  An idle machine that receives them in
successive cycles is five edges later in `LOAD_PARAMETERS`, programmed for exactly the job of the
call (`run_programming`).
-/

namespace CyclonRtes.Swap

open Synchronous

namespace Service

/-- Byte offset of the source address register. -/
def regAddStart : ℕ := 0 * 4

/-- Byte offset of the length register. -/
def regLgt : ℕ := 1 * 4

/-- Byte offset of the destination address register. -/
def resultRegAddStart : ℕ := 3 * 4

/-- Byte offset of the start register. -/
def start : ℕ := 2 * 4

/-- Byte offset of the finish register. -/
def finish : ℕ := 5 * 4

end Service

/-- The arguments of a call `bit_reshuffle_hardware_accelerator(data, result, size)`: the addresses
of the first source and the first result word, and the number of words. -/
structure Call where
  data : Word
  result : Word
  size : Word
  deriving DecidableEq, Repr

/-- The first register write of a call: the source address. -/
def Call.writeData (c : Call) : SlavePort := .iowr32Direct Service.regAddStart c.data

/-- The second register write of a call: the length. -/
def Call.writeSize (c : Call) : SlavePort := .iowr32Direct Service.regLgt c.size

/-- The third register write of a call: the destination address. -/
def Call.writeResult (c : Call) : SlavePort := .iowr32Direct Service.resultRegAddStart c.result

/-- The last register write of a call: the start command. -/
def writeStart : SlavePort := .iowr32Direct Service.start 0x00000001

/-- The read cycles of the polling loop. -/
def readFinish : SlavePort := .iord32Direct Service.finish

section Writes

variable {r : SlaveRegisters} {c : Call}

/-- The source address register receives the source address. -/
lemma slaveWriteProcess_writeData :
    slaveWriteProcess true c.writeData r = { r with start := false, regAddStart := c.data } := rfl

/-- The length register receives the length. -/
lemma slaveWriteProcess_writeSize :
    slaveWriteProcess true c.writeSize r = { r with start := false, regLgt := c.size } := rfl

/-- The destination address register receives the destination address. -/
lemma slaveWriteProcess_writeResult :
    slaveWriteProcess true c.writeResult r =
      { r with start := false, resultRegAddStart := c.result } := rfl

/-- The start command raises the start pulse. -/
lemma slaveWriteProcess_writeStart :
    slaveWriteProcess true writeStart r = { r with start := true } := rfl

/-- A read of the finish register returns the finish flag. -/
lemma slaveReadProcess_readFinish {f : Bool} {d : Word} :
    slaveReadProcess readFinish r f d = flagWord f := rfl

end Writes

/-- The slave cycles of the register writes of a call without pauses, and deselected from then
on. -/
def Call.programming (c : Call) : ℕ → SlavePort
  | 0 => c.writeData
  | 1 => c.writeSize
  | 2 => c.writeResult
  | 3 => writeStart
  | _ => writeStart.deselect

/-- The inputs that program a call and then let it run on a bus that never stalls and always
answers with the word `d`. -/
def Call.inputs (c : Call) (d : Word) (t : ℕ) : Inputs :=
  { nReset := true, slave := c.programming t, mWaitRequest := false, mReadData := d }

/-- An idle machine without a start pulse stays idle for one more cycle. -/
lemma idle_step {v : Variant} {e : Entity} {i : Inputs} (hi : i.nReset = true)
    (hm : e.master.state = .idle) (hs : e.regs.start = false) :
    (e.step v i).master.state = .idle := by
  rw [step_master hi, fsm_idle hm hs]
  exact hm

/-- Four register writes in successive cycles take an idle machine to `LOAD_PARAMETERS` with the
parameters of the call. -/
theorem run_programming {v : Variant} {e : Entity} {i : ℕ → Inputs} {c : Call}
    (hidle : e.master.state = .idle) (hstart : e.regs.start = false)
    (hi : ∀ t, (i t).nReset = true) (hs : ∀ t, t < 5 → (i t).slave = c.programming t) :
    (run (Entity.step v) e i 5).master.state = .loadParameters ∧
      (run (Entity.step v) e i 5).regs = ⟨c.data, c.size, c.result, false⟩ := by
  have hregs : ∀ t, t < 5 → (run (Entity.step v) e i (t + 1)).regs =
      slaveWriteProcess true (c.programming t) (run (Entity.step v) e i t).regs := by
    intro t ht
    rw [run_succ, step_regs (hi t), hs t ht]
  have h1 := hregs 0 (by decide)
  have h2 := hregs 1 (by decide)
  have h3 := hregs 2 (by decide)
  have h4 := hregs 3 (by decide)
  have h5 := hregs 4 (by decide)
  simp only [Call.programming, Nat.zero_add, run_zero] at h1 h2 h3 h4 h5
  rw [slaveWriteProcess_writeData] at h1
  rw [slaveWriteProcess_writeSize, h1] at h2
  rw [slaveWriteProcess_writeResult, h2] at h3
  rw [slaveWriteProcess_writeStart, h3] at h4
  rw [slaveWriteProcess_of_not_writes rfl, h4] at h5
  have hkeep : ∀ t, (run (Entity.step v) e i t).master.state = .idle →
      (run (Entity.step v) e i t).regs.start = false →
      (run (Entity.step v) e i (t + 1)).master.state = .idle := fun t => idle_step (hi t)
  -- the pulse is low in cycles 0 to 3 and high in cycle 4
  have m1 := hkeep 0 hidle hstart
  have m2 := hkeep 1 m1 (by rw [h1])
  have m3 := hkeep 2 m2 (by rw [h2])
  have m4 := hkeep 3 m3 (by rw [h3])
  refine ⟨?_, h5⟩
  rw [run_succ, step_master (hi 4), fsm_idle_start m4 (by rw [h4])]

end CyclonRtes.Swap
