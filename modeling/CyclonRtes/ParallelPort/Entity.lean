import CyclonRtes.Avalon.Port
import CyclonRtes.Synchronous.Trace

/-!
# The `parallel_port` entity

The general purpose port `parallel_port.vhd` of `counter_parallel_port`: `N` pins with a direction
and a data register, an interrupt enable, and an interrupt line that looks at bit 2.  The clocked
processes are `pRegWr` and `pRegRd`, the combinational ones `pPort` and the assignment of `IRQ`.

A pin that the port drives carries the data bit; any other pin carries the level `external` that
the outside gives it.  The reset branch of `pRegWr` clears the direction register only.  The data
register has no initial value and the interrupt enable starts set.
-/

namespace CyclonRtes.ParallelPort

open Synchronous

variable {N : ℕ}

/-- The state of the port between two clock edges.  A set bit of `iRegDir` makes the pin an
output. -/
structure Entity (N : ℕ) where
  iRegDir : BitVec N
  iRegPort : BitVec N
  iIRQEn : Bool
  readData : Word
  deriving DecidableEq, Repr

/-- The inputs of the port in one clock cycle; `external` are the levels that the outside gives to
the pins. -/
structure Inputs (N : ℕ) where
  nReset : Bool
  slave : SlavePort
  external : BitVec N
  deriving DecidableEq, Repr

/-- The reset branch of `pRegWr`. -/
def Entity.reset (e : Entity N) : Entity N := { e with iRegDir := 0 }

/-- Process `pRegWr`. -/
def pRegWr (nReset : Bool) (p : SlavePort) (e : Entity N) : Entity N :=
  if !nReset then e.reset
  else if p.writes then
    match p.address with
    | 0b000#3 => { e with iRegDir := p.writeData.setWidth N }
    | 0b001#3 => { e with iRegPort := p.writeData.setWidth N }
    | 0b010#3 => { e with iRegPort := e.iRegPort ||| p.writeData.setWidth N }
    -- iRegPort NAND WriteData
    | 0b011#3 => { e with iRegPort := ~~~(e.iRegPort &&& p.writeData.setWidth N) }
    | 0b100#3 => { e with iIRQEn := p.writeData.getLsbD 0 }
    | _ => e
  else e

/-- Process `pPort`: what the port puts on pin `i`, `none` for high impedance. -/
def pPort (e : Entity N) (i : ℕ) : Option Bool :=
  if e.iRegDir.getLsbD i then some (e.iRegPort.getLsbD i) else none

/-- `iRegPin`, the levels of the pins. -/
def iRegPin (e : Entity N) (external : BitVec N) : BitVec N :=
  (e.iRegPort &&& e.iRegDir) ||| (external &&& ~~~e.iRegDir)

/-- Process `pRegRd`: the new `ReadData`. -/
def pRegRd (p : SlavePort) (external : BitVec N) (e : Entity N) : Word :=
  if p.reads then
    match p.address with
    | 0b000#3 => e.iRegDir.setWidth 32
    | 0b001#3 => e.iRegPort.setWidth 32
    | 0b010#3 => (iRegPin e external).setWidth 32
    | 0b011#3 => if e.iIRQEn then 1 else 0
    | _ => 0
  else 0

/-- The interrupt line. -/
def irq (e : Entity N) : Bool := e.iIRQEn && e.iRegDir.getLsbD 2 && e.iRegPort.getLsbD 2

/-- The values that the processes find in a cycle: a low `nReset` acts at once. -/
def Entity.settle (nReset : Bool) (e : Entity N) : Entity N := if nReset then e else e.reset

/-- One rising edge of `Clk`. -/
def Entity.step (e : Entity N) (i : Inputs N) : Entity N :=
  let e := e.settle i.nReset
  { pRegWr i.nReset i.slave e with readData := pRegRd i.slave i.external e }

/-- A pin has the level that the port drives, or else the one from outside. -/
lemma getLsbD_iRegPin (e : Entity N) (external : BitVec N) {i : ℕ} (hi : i < N) :
    (iRegPin e external).getLsbD i = (pPort e i).getD (external.getLsbD i) := by
  unfold iRegPin pPort
  simp only [BitVec.getLsbD_or, BitVec.getLsbD_and, BitVec.getLsbD_not, hi, decide_true]
  cases e.iRegDir.getLsbD i <;> simp

section Edge

variable {e : Entity N} {i : Inputs N}

/-- Without reset the registers follow `pRegWr`. -/
lemma step_of_nReset (hi : i.nReset = true) :
    e.step i = { pRegWr true i.slave e with readData := pRegRd i.slave i.external e } := by
  simp [Entity.step, Entity.settle, hi]

/-- A reset cycle leaves the reset value in the direction register and the other registers as they
are. -/
lemma step_of_reset (hi : i.nReset = false) :
    e.step i = { e.reset with readData := pRegRd i.slave i.external e.reset } := by
  simp [Entity.step, Entity.settle, pRegWr, Entity.reset, hi]

end Edge

end CyclonRtes.ParallelPort
