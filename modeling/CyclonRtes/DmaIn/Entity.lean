import CyclonRtes.Avalon.Port
import CyclonRtes.Bits.Assign
import CyclonRtes.Synchronous.Trace

/-!
# The audio recorder

The entity `DMA_in.vhd`: it is to collect the bits of a sample from a serial converter and to write
the sample to memory, over and over.  `Entity.step` is the process `mainReadWrite` at one rising
edge of `extClk`.

The description does not compile as it stands.  The input of the converter is declared as `adcData`
and used as `data_in`, the vector `dataCount` is used as a number, and the 17 bits of `SampleData`
are assigned to the 16 bits of `mWriteData`.  The first two have an obvious reading; for the last
one the function `fit` stands for whatever is meant.
-/

namespace CyclonRtes.DmaIn

open Bits Synchronous

/-- The states of the machine. -/
inductive StatesT where
  | idle | sendWriteRequest | waitForWrite | readingData
  deriving DecidableEq, Repr

/-- The registers of the entity. -/
structure Entity where
  state : StatesT
  dataCount : BitVec 6
  sampleData : BitVec 17
  writeReg : Word
  mAddress : Word
  mWriteData : BitVec 16
  deriving DecidableEq, Repr

/-- The inputs of the entity at one edge. -/
structure Inputs where
  adcData : Bool
  mWaitRequest : Bool
  deriving DecidableEq, Repr

/-- `RegWriteStart`, the first address of the memory area. -/
def regWriteStart : Word := 0x0010000

/-- `RegWriteMax`, the end of the memory area. -/
def regWriteMax : Word := 0x0110000

/-- Process `mainReadWrite`. -/
def Entity.step (fit : BitVec 17 → BitVec 16) (e : Entity) (i : Inputs) : Entity :=
  match e.state with
  | .readingData =>
    let e : Entity :=
      { e with mAddress := 0, sampleData := assignBit e.sampleData e.dataCount.toNat i.adcData }
    -- the counter is tested after the bit has been sampled
    if e.dataCount ≥ 16 then { e with state := .sendWriteRequest }
    else { e with dataCount := e.dataCount + 1 }
  | .sendWriteRequest =>
    { e with mAddress := e.writeReg, mWriteData := fit e.sampleData, state := .waitForWrite }
  | .waitForWrite =>
    if i.mWaitRequest then e else { e with writeReg := e.writeReg + 1, state := .idle }
  -- when others
  | .idle => { e with state := .idle }

/-- The machine is about to sample the first bit of a word, and the address of the word lies in the
memory area. -/
structure Entity.Start (e : Entity) : Prop where
  state : e.state = .readingData
  dataCount : e.dataCount = 0
  writeReg : regWriteStart ≤ e.writeReg ∧ e.writeReg < regWriteMax

/-! ## What the recorder is for -/

section Framing

variable (fit : BitVec 17 → BitVec 16) (e : Entity) (i : ℕ → Inputs)

/-- The registers after `t` edges. -/
def entity (t : ℕ) : Entity := run (Entity.step fit) e i t

/-- The bits sampled in the first `t` edges and not yet put on `mWriteData`, oldest first. -/
def sampled : ℕ → List Bool
  | 0 => []
  | t + 1 =>
    match (entity fit e i t).state with
    | .readingData => sampled t ++ [(i t).adcData]
    | .sendWriteRequest => []
    | .waitForWrite | .idle => sampled t

/-- Edge `t` leads to `SEND_WRITE_REQUEST`. -/
def Enters (t : ℕ) : Prop :=
  (entity fit e i t).state ≠ .sendWriteRequest ∧
    (entity fit e i (t + 1)).state = .sendWriteRequest

/-- The write that the machine waits for is accepted at edge `t`. -/
def Accepts (t : ℕ) : Prop :=
  (entity fit e i t).state = .waitForWrite ∧ (i t).mWaitRequest = false

/-- The recorder cuts the stream of bits into words of 16 and writes them to the memory area. -/
structure Framing : Prop where
  /-- A word is complete when 16 bits have been sampled. -/
  count : ∀ t, Enters fit e i t → (sampled fit e i (t + 1)).length = 16
  /-- The word consists of these bits in order. -/
  word : ∀ t, (entity fit e i t).state = .sendWriteRequest → ∀ j < 16,
    (sampled fit e i t)[j]? = some ((entity fit e i (t + 1)).mWriteData.getLsbD j)
  /-- After a word the counter starts afresh. -/
  restart : ∀ t, Accepts fit e i t → (entity fit e i (t + 1)).dataCount = 0
  /-- The word is written to the memory area. -/
  address : ∀ t, (entity fit e i t).state = .waitForWrite →
    regWriteStart ≤ (entity fit e i t).mAddress ∧ (entity fit e i t).mAddress < regWriteMax

end Framing

/-! ## One edge -/

section Edge

variable {fit : BitVec 17 → BitVec 16} {e : Entity} {i : Inputs}

/-- A bit is sampled, and the counter goes on. -/
lemma step_readingData (h : e.state = .readingData) (hc : ¬ e.dataCount ≥ 16) :
    e.step fit i =
      { e with mAddress := 0, sampleData := assignBit e.sampleData e.dataCount.toNat i.adcData,
               dataCount := e.dataCount + 1 } := by
  simp only [Entity.step, h, if_neg hc]

/-- A bit is sampled, and the word is complete. -/
lemma step_readingData_last (h : e.state = .readingData) (hc : e.dataCount ≥ 16) :
    e.step fit i =
      { e with mAddress := 0, sampleData := assignBit e.sampleData e.dataCount.toNat i.adcData,
               state := .sendWriteRequest } := by
  simp only [Entity.step, h, if_pos hc]

/-- The word and its address are put on the bus. -/
lemma step_sendWriteRequest (h : e.state = .sendWriteRequest) :
    e.step fit i =
      { e with mAddress := e.writeReg, mWriteData := fit e.sampleData,
               state := .waitForWrite } := by
  simp [Entity.step, h]

/-- The machine waits while its write is stalled. -/
lemma step_waitForWrite_stall (h : e.state = .waitForWrite) (hw : i.mWaitRequest = true) :
    e.step fit i = e := by
  simp [Entity.step, h, hw]

/-- After an accepted write the address goes on. -/
lemma step_waitForWrite (h : e.state = .waitForWrite) (hw : i.mWaitRequest = false) :
    e.step fit i = { e with writeReg := e.writeReg + 1, state := .idle } := by
  simp [Entity.step, h, hw]

/-- The machine never leaves `IDLE`. -/
lemma step_idle (h : e.state = .idle) : e.step fit i = e := by
  obtain ⟨state, _, _, _, _, _⟩ := e
  obtain rfl : state = .idle := h
  rfl

end Edge

end CyclonRtes.DmaIn
