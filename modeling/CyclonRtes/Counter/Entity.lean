import CyclonRtes.Avalon.Port
import CyclonRtes.Synchronous.Trace

/-!
# The `counter` entities

The 32-bit counter with interrupt, `counter.vhd`, in its two versions.  In `counter_parallel_port`
it counts clock cycles while it is started (process `pCounter`).  In `multiprocessor` that process
is commented out; the counter changes only by two additional register writes, which load it and add
to it.  Everything else is common: `pRegWr` up to those two writes, `pRegRd`, `pInterrupt` and the
assignment of `IRQ`.

The reset branch of `pRegWr` clears `iEn`, `iRz` and `iIRQEn` only.  The other registers have no
initial value.
-/

namespace CyclonRtes.Counter

/-- The state of the counter between two clock edges.  `iRz` and `iClrEOT` are pulses that reset the
count and clear the end-of-time flag `iEOT`. -/
structure Entity where
  iCounter : Word
  iEn : Bool
  iRz : Bool
  iEOT : Bool
  iClrEOT : Bool
  iIRQEn : Bool
  readData : Word
  deriving DecidableEq, Repr

/-- The inputs of the counter in one clock cycle. -/
structure Inputs where
  nReset : Bool
  slave : SlavePort
  deriving DecidableEq, Repr

/-- The reset branch of `pRegWr`. -/
def Entity.reset (e : Entity) : Entity := { e with iEn := false, iRz := false, iIRQEn := false }

/-- Process `pCounter`: the new `iCounter`. -/
def pCounter (e : Entity) : Word :=
  if e.iRz then 0 else if e.iEn then e.iCounter + 1 else e.iCounter

/-- The register writes that both versions of `pRegWr` have. -/
def commandWrite (address : BitVec 3) (writeData : Word) (e : Entity) : Entity :=
  match address with
  | 0b001#3 => { e with iRz := true }
  | 0b010#3 => { e with iEn := true }
  | 0b011#3 => { e with iEn := false }
  | 0b100#3 => { e with iIRQEn := writeData.getLsbD 0 }
  | 0b101#3 => { e with iClrEOT := writeData.getLsbD 0 }
  | _ => e

/-- Process `pRegWr` of `counter_parallel_port`. -/
def pRegWr (nReset : Bool) (p : SlavePort) (e : Entity) : Entity :=
  if !nReset then e.reset
  else
    let e := { e with iRz := false, iClrEOT := false }
    if p.writes then commandWrite p.address p.writeData e else e

/-- Process `pRegWr` of `multiprocessor`. -/
def sharedPRegWr (nReset : Bool) (p : SlavePort) (e : Entity) : Entity :=
  if !nReset then e.reset
  else
    let e := { e with iRz := false, iClrEOT := false }
    if p.writes then
      match p.address with
      | 0b110#3 => { e with iCounter := p.writeData }
      | 0b111#3 => { e with iCounter := e.iCounter + p.writeData }
      | a => commandWrite a p.writeData e
    else e

/-- Process `pRegRd`: the new `ReadData`. -/
def pRegRd (p : SlavePort) (e : Entity) : Word :=
  if p.reads then
    match p.address with
    | 0b000#3 => e.iCounter
    | 0b100#3 => if e.iIRQEn then 1 else 0
    | 0b101#3 => (if e.iEOT then 1 else 0) ||| (if e.iEn then 2 else 0)
    | _ => 0
  else 0

/-- Process `pInterrupt`: the new `iEOT`. -/
def pInterrupt (e : Entity) : Bool :=
  if e.iCounter = 0 then true else if e.iClrEOT then false else e.iEOT

/-- The interrupt line. -/
def irq (e : Entity) : Bool := e.iEOT && e.iIRQEn && e.iEn

/-- The values that the processes find in a cycle: a low `nReset` acts at once. -/
def Entity.settle (nReset : Bool) (e : Entity) : Entity := if nReset then e else e.reset

/-- One rising edge of `Clk`, in `counter_parallel_port`. -/
def Entity.step (e : Entity) (i : Inputs) : Entity :=
  let e := e.settle i.nReset
  { pRegWr i.nReset i.slave e with
    iCounter := pCounter e
    iEOT := pInterrupt e
    readData := pRegRd i.slave e }

/-- One rising edge of `Clk`, in `multiprocessor`. -/
def Entity.sharedStep (e : Entity) (i : Inputs) : Entity :=
  let e := e.settle i.nReset
  { sharedPRegWr i.nReset i.slave e with
    iEOT := pInterrupt e
    readData := pRegRd i.slave e }

/-- The command that resets the count. -/
def resetCommand (i : Inputs) : Bool := i.slave.writesTo 0b001

/-- The commands that start (`true`) and stop (`false`) the count. -/
def startStop (i : Inputs) : Option Bool :=
  if i.slave.writesTo 0b010 then some true
  else if i.slave.writesTo 0b011 then some false
  else none

/-- The command that enables (`true`) and disables (`false`) the interrupt. -/
def enableCommand (i : Inputs) : Option Bool :=
  if i.slave.writesTo 0b100 then some (i.slave.writeData.getLsbD 0) else none

/-- The command that clears the end-of-time flag. -/
def clearCommand (i : Inputs) : Bool := i.slave.writesTo 0b101 && i.slave.writeData.getLsbD 0

section Edge

variable {e : Entity} {i : Inputs}

/-- The count after an edge without reset. -/
lemma step_iCounter (hi : i.nReset = true) : (e.step i).iCounter = pCounter e := by
  simp [Entity.step, Entity.settle, hi]

/-- The read data after an edge without reset. -/
lemma step_readData (hi : i.nReset = true) : (e.step i).readData = pRegRd i.slave e := by
  simp [Entity.step, Entity.settle, hi]

/-- The reset pulse follows the reset command. -/
lemma step_iRz (hi : i.nReset = true) : (e.step i).iRz = resetCommand i := by
  unfold Entity.step Entity.settle pRegWr resetCommand SlavePort.writesTo
  rw [hi]
  cases hw : i.slave.writes
  · simp
  · simp only [Bool.not_true, Bool.false_eq_true, if_false, if_true, Bool.true_and, commandWrite]
    split <;> simp_all

/-- The run flag follows the start and stop commands. -/
lemma step_iEn (hi : i.nReset = true) : (e.step i).iEn = (startStop i).getD e.iEn := by
  unfold Entity.step Entity.settle pRegWr startStop SlavePort.writesTo
  rw [hi]
  cases hw : i.slave.writes
  · simp
  · simp only [Bool.not_true, Bool.false_eq_true, if_false, if_true, Bool.true_and, commandWrite]
    split <;> simp_all

/-- The interrupt enable follows its commands. -/
lemma step_iIRQEn (hi : i.nReset = true) :
    (e.step i).iIRQEn = (enableCommand i).getD e.iIRQEn := by
  unfold Entity.step Entity.settle pRegWr enableCommand SlavePort.writesTo
  rw [hi]
  cases hw : i.slave.writes
  · simp
  · simp only [Bool.not_true, Bool.false_eq_true, if_false, if_true, Bool.true_and, commandWrite]
    split <;> simp_all

/-- The clear pulse follows the clear command. -/
lemma step_iClrEOT (hi : i.nReset = true) : (e.step i).iClrEOT = clearCommand i := by
  unfold Entity.step Entity.settle pRegWr clearCommand SlavePort.writesTo
  rw [hi]
  cases hw : i.slave.writes
  · simp
  · simp only [Bool.not_true, Bool.false_eq_true, if_false, if_true, Bool.true_and, commandWrite]
    split <;> simp_all

/-- The end-of-time flag after an edge without reset. -/
lemma step_iEOT (hi : i.nReset = true) : (e.step i).iEOT = pInterrupt e := by
  simp [Entity.step, Entity.settle, hi]

/-- Clearing the end-of-time flag neither resets nor starts nor stops the counter. -/
lemma commands_of_clear (h : clearCommand i = true) :
    resetCommand i = false ∧ startStop i = none := by
  have hw : i.slave.writesTo 0b101 = true := by
    unfold clearCommand at h
    exact (Bool.and_eq_true_iff.mp h).1
  obtain ⟨hw, ha⟩ := SlavePort.writesTo_iff.mp hw
  simp [resetCommand, startStop, SlavePort.writesTo, hw, ha]

/-- A reset cycle stops the counter and ends the reset pulse. -/
lemma step_of_reset (hi : i.nReset = false) : (e.step i).iEn = false ∧ (e.step i).iRz = false := by
  simp [Entity.step, Entity.settle, pRegWr, Entity.reset, hi]

end Edge

end CyclonRtes.Counter
