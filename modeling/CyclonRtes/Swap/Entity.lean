import CyclonRtes.Avalon.Memory
import CyclonRtes.Swap.Reshuffle
import CyclonRtes.Synchronous.Trace

/-!
# The `swap` entity

The accelerator `swap.vhd`: an Avalon slave with four programming registers and an Avalon master
driven by a state machine that reads a word, transforms it and writes it back, once per element.
The three clocked processes of the source are `slaveWriteProcess`, `slaveReadProcess` and
`transitionMasterFSM`; each owns the registers it assigns, and `Entity.step` is one rising edge of
`Clk`, at which all three read the values of the cycle that ends.

`nReset` is asynchronous: while it is low the registers with a reset branch already hold their
reset values in that cycle, which is what the read process, which has no reset, sees at the edge.
-/

namespace CyclonRtes.Swap

open Synchronous

/-- The states of the master state machine. -/
inductive StatesT where
  | idle | loadParameters | rdAcc | waitRd | calculate | sendWriteRequest | waitForWrite
  deriving DecidableEq, Repr

/-- The registers assigned by `slaveWriteProcess`: the parameters of the next job and the start
pulse. -/
structure SlaveRegisters where
  regAddStart : Word
  regLgt : Word
  resultRegAddStart : Word
  start : Bool
  deriving DecidableEq, Repr

/-- The registers assigned by `transitionMasterFSM`: the state, the counters of the job, the word
read and the word to be written, the flag that the driver polls and the outputs of the master
port. -/
structure Master where
  state : StatesT
  cntAdd : Word
  cntLgt : Word
  cntResultAdd : Word
  dataRd : Word
  result : Word
  finish : Bool
  mAddress : Word
  mByteEnable : BitVec 4
  mWrite : Bool
  mWriteData : Word
  mRead : Bool
  deriving DecidableEq, Repr

/-- The state of the entity between two clock edges: the registers of the three processes. -/
structure Entity where
  regs : SlaveRegisters
  sReadData : Word
  master : Master
  deriving DecidableEq, Repr

/-- The inputs of the entity in one clock cycle; `nReset` is active low. -/
structure Inputs where
  nReset : Bool
  slave : SlavePort
  mWaitRequest : Bool
  mReadData : Word
  deriving DecidableEq, Repr

/-! ## The three processes -/

/-- The reset branch of `slaveWriteProcess`. -/
def SlaveRegisters.reset (_r : SlaveRegisters) : SlaveRegisters :=
  { regAddStart := 0, regLgt := 0, resultRegAddStart := 0, start := false }

/-- The reset branch of `transitionMasterFSM`.  It leaves `state` and the bus outputs alone. -/
def Master.reset (m : Master) : Master :=
  { m with finish := false, cntAdd := 0, cntLgt := 0, cntResultAdd := 0, result := 0 }

/-- Process `slaveWriteProcess`. -/
def slaveWriteProcess (nReset : Bool) (p : SlavePort) (r : SlaveRegisters) : SlaveRegisters :=
  if !nReset then r.reset
  else
    let r := { r with start := false }
    if p.writes then
      match p.address with
      | 0b000#3 => { r with regAddStart := p.writeData }
      | 0b001#3 => { r with regLgt := p.writeData }
      | 0b010#3 => { r with start := p.writeData.getLsbD 0 }
      | 0b011#3 => { r with resultRegAddStart := p.writeData }
      | _ => r
    else r

/-- A word whose bit 0 is `b` and whose other bits are zero. -/
def flagWord (b : Bool) : Word := if b then 1 else 0

/-- Process `slaveReadProcess`. -/
def slaveReadProcess (p : SlavePort) (r : SlaveRegisters) (finish : Bool) (sReadData : Word) :
    Word :=
  if p.reads then
    match p.address with
    | 0b000#3 => r.regAddStart
    | 0b001#3 => r.regLgt
    | 0b010#3 => flagWord r.start
    | 0b011#3 => r.resultRegAddStart
    | 0b101#3 => flagWord finish
    | _ => 0
  else sReadData

/-- Process `transitionMasterFSM`. -/
def transitionMasterFSM (v : Variant) (nReset : Bool) (r : SlaveRegisters) (mWaitRequest : Bool)
    (mReadData : Word) (m : Master) : Master :=
  if !nReset then m.reset
  else
    match m.state with
    | .idle =>
      let m := { m with mAddress := 0, mByteEnable := 0b0000, mWrite := false, mRead := false }
      if r.start then { m with state := .loadParameters, finish := false } else m
    | .loadParameters =>
      { m with cntAdd := r.regAddStart, cntLgt := r.regLgt, cntResultAdd := r.resultRegAddStart,
               result := 0, state := .rdAcc }
    | .rdAcc =>
      { m with mAddress := m.cntAdd, mByteEnable := 0b1111, mRead := true, mWrite := false,
               state := .waitRd }
    | .waitRd =>
      if mWaitRequest then m
      else { m with dataRd := mReadData, mRead := false, state := .calculate }
    | .calculate =>
      { m with result := v.calculate m.dataRd m.result, state := .sendWriteRequest }
    | .sendWriteRequest =>
      { m with mAddress := m.cntResultAdd, mByteEnable := 0b1111, mWrite := true,
               mWriteData := m.result, state := .waitForWrite }
    | .waitForWrite =>
      if mWaitRequest then m
      else
        let m : Master := { m with mWrite := false }
        -- the counter is tested before it is decremented, after the word has been written
        if m.cntLgt > 0 then
          { m with cntAdd := m.cntAdd + v.increment, cntResultAdd := m.cntResultAdd + v.increment,
                   cntLgt := m.cntLgt - 1, state := .rdAcc }
        else { m with mByteEnable := 0b0000, finish := true, state := .idle }

/-- The values that the processes find in a cycle: a low `nReset` acts at once. -/
def Entity.settle (nReset : Bool) (e : Entity) : Entity :=
  if nReset then e else { e with regs := e.regs.reset, master := e.master.reset }

/-- One rising edge of `Clk`. -/
def Entity.step (v : Variant) (e : Entity) (i : Inputs) : Entity :=
  let e := e.settle i.nReset
  { regs := slaveWriteProcess i.nReset i.slave e.regs
    sReadData := slaveReadProcess i.slave e.regs e.master.finish e.sReadData
    master := transitionMasterFSM v i.nReset e.regs i.mWaitRequest i.mReadData e.master }

/-- The transfers that the master port completes in a cycle: a request is accepted when
`mWaitRequest` is low. -/
def Master.transfers (m : Master) (mWaitRequest : Bool) (mReadData : Word) : List Transfer :=
  (if m.mRead && !mWaitRequest then [.read m.mAddress mReadData] else []) ++
    (if m.mWrite && !mWaitRequest then [.write m.mAddress m.mByteEnable m.mWriteData] else [])

/-- The transfers completed in a cycle of the entity. -/
def Entity.transfers (e : Entity) (i : Inputs) : List Transfer :=
  e.master.transfers i.mWaitRequest i.mReadData

/-- The slave port carries a write to the start register with bit 0 set. -/
def startCommand (p : SlavePort) : Bool := p.writesTo 0b010 && p.writeData.getLsbD 0

/-- Power-up: the state machine is in its first state and requests nothing. -/
def PowerUp (e : Entity) : Prop :=
  e.master.state = .idle ∧ e.master.mRead = false ∧ e.master.mWrite = false

/-- Power-up with every register zero, as the device configures it. -/
def Entity.zero : Entity where
  regs := { regAddStart := 0, regLgt := 0, resultRegAddStart := 0, start := false }
  sReadData := 0
  master :=
    { state := .idle, cntAdd := 0, cntLgt := 0, cntResultAdd := 0, dataRd := 0, result := 0,
      finish := false, mAddress := 0, mByteEnable := 0, mWrite := false, mWriteData := 0,
      mRead := false }

/-- The entity with all registers zero is in a power-up state. -/
lemma powerUp_zero : PowerUp Entity.zero := ⟨rfl, rfl, rfl⟩

/-! ## One edge without reset -/

section Edge

variable {v : Variant} {e : Entity} {i : Inputs} {m : Master} {r : SlaveRegisters} {w : Bool}
  {d : Word}

/-- Without reset the slave registers follow `slaveWriteProcess`. -/
lemma step_regs (hi : i.nReset = true) :
    (e.step v i).regs = slaveWriteProcess true i.slave e.regs := by
  simp [Entity.step, Entity.settle, hi]

/-- Without reset the read data follow `slaveReadProcess`. -/
lemma step_sReadData (hi : i.nReset = true) :
    (e.step v i).sReadData = slaveReadProcess i.slave e.regs e.master.finish e.sReadData := by
  simp [Entity.step, Entity.settle, hi]

/-- Without reset the master registers follow `transitionMasterFSM`. -/
lemma step_master (hi : i.nReset = true) :
    (e.step v i).master =
      transitionMasterFSM v true e.regs i.mWaitRequest i.mReadData e.master := by
  simp [Entity.step, Entity.settle, hi]

/-- A reset cycle leaves the reset values in the slave registers. -/
lemma step_regs_of_reset (hi : i.nReset = false) : (e.step v i).regs = e.regs.reset := by
  simp [Entity.step, Entity.settle, slaveWriteProcess, SlaveRegisters.reset, hi]

/-- A reset cycle leaves the reset values in the master registers. -/
lemma step_master_of_reset (hi : i.nReset = false) : (e.step v i).master = e.master.reset := by
  simp [Entity.step, Entity.settle, transitionMasterFSM, Master.reset, hi]

/-- The start pulse of the next cycle is the start command of this one. -/
lemma slaveWriteProcess_start (p : SlavePort) :
    (slaveWriteProcess true p r).start = startCommand p := by
  unfold slaveWriteProcess startCommand SlavePort.writesTo
  cases hw : p.writes
  · simp
  · simp only [Bool.not_true, Bool.false_eq_true, if_false, if_true, Bool.true_and]
    split <;> simp_all

/-- Without a write the programming registers keep their values and the pulse ends. -/
lemma slaveWriteProcess_of_not_writes {p : SlavePort} (hp : p.writes = false) :
    slaveWriteProcess true p r = { r with start := false } := by
  simp [slaveWriteProcess, hp]

/-- An idle machine without a start pulse clears its bus outputs and stays idle. -/
lemma fsm_idle (hm : m.state = .idle) (hs : r.start = false) :
    transitionMasterFSM v true r w d m =
      { m with mAddress := 0, mByteEnable := 0, mWrite := false, mRead := false } := by
  simp [transitionMasterFSM, hm, hs]

/-- A start pulse takes an idle machine to `LOAD_PARAMETERS` and clears the finish flag. -/
lemma fsm_idle_start (hm : m.state = .idle) (hs : r.start = true) :
    transitionMasterFSM v true r w d m =
      { m with mAddress := 0, mByteEnable := 0, mWrite := false, mRead := false,
               state := .loadParameters, finish := false } := by
  simp [transitionMasterFSM, hm, hs]

/-- The job parameters are copied from the programming registers. -/
lemma fsm_loadParameters (hm : m.state = .loadParameters) :
    transitionMasterFSM v true r w d m =
      { m with cntAdd := r.regAddStart, cntLgt := r.regLgt, cntResultAdd := r.resultRegAddStart,
               result := 0, state := .rdAcc } := by
  simp [transitionMasterFSM, hm]

/-- A read request for the next source word is put on the bus. -/
lemma fsm_rdAcc (hm : m.state = .rdAcc) :
    transitionMasterFSM v true r w d m =
      { m with mAddress := m.cntAdd, mByteEnable := 0b1111, mRead := true, mWrite := false,
               state := .waitRd } := by
  simp [transitionMasterFSM, hm]

/-- The machine waits while its read is stalled. -/
lemma fsm_waitRd_stall (hm : m.state = .waitRd) :
    transitionMasterFSM v true r true d m = m := by
  simp [transitionMasterFSM, hm]

/-- An accepted read is withdrawn and its data are kept. -/
lemma fsm_waitRd (hm : m.state = .waitRd) :
    transitionMasterFSM v true r false d m =
      { m with dataRd := d, mRead := false, state := .calculate } := by
  simp [transitionMasterFSM, hm]

/-- The word read is transformed. -/
lemma fsm_calculate (hm : m.state = .calculate) :
    transitionMasterFSM v true r w d m =
      { m with result := v.image m.dataRd, state := .sendWriteRequest } := by
  simp [transitionMasterFSM, hm, v.calculate_eq]

/-- A write request for the result is put on the bus. -/
lemma fsm_sendWriteRequest (hm : m.state = .sendWriteRequest) :
    transitionMasterFSM v true r w d m =
      { m with mAddress := m.cntResultAdd, mByteEnable := 0b1111, mWrite := true,
               mWriteData := m.result, state := .waitForWrite } := by
  simp [transitionMasterFSM, hm]

/-- The machine waits while its write is stalled. -/
lemma fsm_waitForWrite_stall (hm : m.state = .waitForWrite) :
    transitionMasterFSM v true r true d m = m := by
  simp [transitionMasterFSM, hm]

/-- After an accepted write the machine goes on to the next word while the counter is positive. -/
lemma fsm_waitForWrite_next (hm : m.state = .waitForWrite) (hc : m.cntLgt > 0) :
    transitionMasterFSM v true r false d m =
      { m with mWrite := false, cntAdd := m.cntAdd + v.increment,
               cntResultAdd := m.cntResultAdd + v.increment, cntLgt := m.cntLgt - 1,
               state := .rdAcc } := by
  simp only [transitionMasterFSM, hm, Bool.not_true, Bool.false_eq_true, if_false, if_pos hc]

/-- After an accepted write the machine is finished when the counter is zero. -/
lemma fsm_waitForWrite_last (hm : m.state = .waitForWrite) (hc : ¬ m.cntLgt > 0) :
    transitionMasterFSM v true r false d m =
      { m with mWrite := false, mByteEnable := 0, finish := true, state := .idle } := by
  simp only [transitionMasterFSM, hm, Bool.not_true, Bool.false_eq_true, if_false, if_neg hc]

/-- Decrementing a positive counter takes one off its value. -/
lemma toNat_sub_one {c : Word} (hc : c > 0) : (c - 1).toNat + 1 = c.toNat := by
  have h1 : (1 : Word).toNat = 1 := rfl
  have hpos : 0 < c.toNat := hc
  rw [BitVec.toNat_sub_of_le (by rw [BitVec.le_def, h1]; exact hpos), h1]
  omega

/-- A counter that is not positive is zero. -/
lemma toNat_eq_zero {c : Word} (hc : ¬ c > 0) : c.toNat = 0 := by
  rw [gt_iff_lt, BitVec.lt_def] at hc
  simpa using hc

end Edge

end CyclonRtes.Swap
