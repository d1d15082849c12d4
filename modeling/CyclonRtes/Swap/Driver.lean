import CyclonRtes.Swap.Correctness
import CyclonRtes.Swap.Reset

/-!
# The polling driver

`bit_reshuffle_hardware_accelerator` as a machine that makes one slave access after the other: four
register writes, then reads of the finish register until one of them returns a non-zero word.  A
write takes one clock cycle; a read is held for two cycles and its data are taken at the end of the
second one.  The processor may pause for any number of cycles before each access.

`System` is this driver, working through a list of calls, together with the accelerator and its
memory.  `Honoured` is what the end of a polling loop should mean.
-/

namespace CyclonRtes.Swap

open Synchronous

/-- The next thing that the driver does. -/
inductive DriverPc where
  | writeData | writeSize | writeResult | writeStart
  /-- The first cycle of a read of the finish register. -/
  | poll
  /-- The second cycle of the read. -/
  | pollHold
  deriving DecidableEq, Repr

/-- The state of the driver: the number of calls that have returned and the next step of the current
one. -/
structure Driver where
  call : ℕ
  pc : DriverPc
  deriving DecidableEq, Repr

/-- The choices of the environment in one clock cycle.  With `go` the driver makes its next access,
if it is not in the middle of one; `idlePort` stands on the lines of a slave port that is not
selected; the rest is as in `BusInputs`. -/
structure Environment where
  go : Bool
  idlePort : SlavePort
  mWaitRequest : Bool
  idleData : Word
  other : Option (BitVec 30 × Word)
  deriving DecidableEq, Repr

/-- The driver, the accelerator and the memory. -/
structure System where
  bus : OnBus
  driver : Driver

namespace Call

/-- The job that a call asks for. -/
def job (c : Call) : Job := ⟨c.data, c.result, c.size⟩

/-- The words of the source and the result area, one word more than `size` in each. -/
def area (c : Call) : Set (BitVec 30) := OnBus.area customInstruction c.job

/-- The requirements on the arguments of a call: aligned areas of `size + 1` words that have no
word in common and fit into the address space. -/
structure WellFormed (c : Call) : Prop where
  data : WordAligned c.data
  result : WordAligned c.result
  size : c.size.toNat < 2 ^ 30
  disjoint : ∀ i ≤ c.size.toNat, ∀ k ≤ c.size.toNat, element c.result 4 i ≠ element c.data 4 k

/-- The slave access of a step of a call. -/
def access (c : Call) : DriverPc → SlavePort
  | .writeData => c.writeData
  | .writeSize => c.writeSize
  | .writeResult => c.writeResult
  | .writeStart => Swap.writeStart
  | .poll | .pollHold => readFinish

end Call

/-- The driver makes an access of its current call in this cycle. -/
def Driver.acts (d : Driver) (go : Bool) : Bool := go || d.pc == .pollHold

/-- What the driver puts on the slave port. -/
def Driver.port (calls : List Call) (d : Driver) (x : Environment) : SlavePort :=
  match calls[d.call]? with
  | some c => if d.acts x.go then c.access d.pc else x.idlePort.deselect
  | none => x.idlePort.deselect

/-- The driver after a cycle in which `sReadData` is on the data lines of the slave port. -/
def Driver.next (calls : List Call) (d : Driver) (go : Bool) (sReadData : Word) : Driver :=
  if d.call < calls.length ∧ d.acts go then
    match d.pc with
    | .writeData => { d with pc := .writeSize }
    | .writeSize => { d with pc := .writeResult }
    | .writeResult => { d with pc := .writeStart }
    | .writeStart => { d with pc := .poll }
    | .poll => { d with pc := .pollHold }
    | .pollHold =>
      -- while (!IORD_32DIRECT(SWAP_ACCELERATOR_0_BASE, finish))
      if sReadData = 0 then { d with pc := .poll }
      else { call := d.call + 1, pc := .writeData }
  else d

/-- What the bus sees in a cycle; the reset is over. -/
def System.busInputs (calls : List Call) (s : System) (x : Environment) : BusInputs where
  nReset := true
  slave := s.driver.port calls x
  mWaitRequest := x.mWaitRequest
  idleData := x.idleData
  other := x.other

/-- One rising edge of the clock. -/
def System.step (calls : List Call) (s : System) (x : Environment) : System where
  bus := s.bus.step customInstruction (s.busInputs calls x)
  driver := s.driver.next calls x.go s.bus.entity.sReadData

/-- The accelerator has been reset for one or more cycles at power-up, when its machine is idle.  A
reset that finds the machine at work is not one of these (`SafeAfterReset`). -/
def AfterReset (e : Entity) : Prop :=
  ∃ (e₀ : Entity) (i : ℕ → Inputs) (d : ℕ), PowerUp e₀ ∧ (∀ u ≤ d, (i u).nReset = false) ∧
    run (Entity.step customInstruction) e₀ i (d + 1) = e

/-- The system after the reset, before the first call. -/
structure System.Initial (s : System) : Prop where
  reset : AfterReset s.bus.entity
  driver : s.driver = ⟨0, .writeData⟩

/-! ## What the driver may rely on -/

section Contract

variable (calls : List Call) (s : System) (x : ℕ → Environment)

/-- The system in the cycles of a run. -/
def system (t : ℕ) : System := run (System.step calls) s x t

/-- Call `k` begins in cycle `t`: its first register is written. -/
def Begins (k t : ℕ) : Prop :=
  (system calls s x t).driver = ⟨k, .writeData⟩ ∧ (x t).go = true

/-- Call `k` gives its start command in cycle `t`. -/
def Starts (k t : ℕ) : Prop :=
  (system calls s x t).driver = ⟨k, .writeStart⟩ ∧ (x t).go = true

/-- The polling loop of call `k` ends with cycle `t`. -/
def Returns (k t : ℕ) : Prop :=
  (system calls s x t).driver = ⟨k, .pollHold⟩ ∧ (system calls s x t).bus.entity.sReadData ≠ 0

/-- The finish flag, counted from cycle `t`. -/
def finishFrom (t u : ℕ) : Bool := (system calls s x (t + u)).bus.entity.master.finish

/-- From the beginning of a call to its end nobody else writes to its areas. -/
def LeavesAlone (t : ℕ) : Prop :=
  ∀ c, calls[(system calls s x t).driver.call]? = some c →
    (system calls s x t).driver.pc ≠ .writeData ∨ (x t).go = true →
    ∀ a ∈ c.area, ∀ d, (x t).other ≠ some (a, d)

/-- The end of the polling loop of call `k` in cycle `t` means what it should: the job that this
call has started is completed, and the result words hold the reshuffled words that the source held
when the call began. -/
structure Honoured (c : Call) (k t : ℕ) : Prop where
  /-- The start command of the call made the machine load the job of the call, and `finish` has
  risen since. -/
  completed : ∃ v w, Starts calls s x k v ∧
    (system calls s x (v + 2)).bus.entity.master.state = .loadParameters ∧
    (system calls s x (v + 2)).bus.entity.regs.job = c.job ∧
    FirstRise (finishFrom calls s x (v + 2)) w ∧ v + 2 + w < t
  /-- The result is there. -/
  result : ∃ b ≤ t, Begins calls s x k b ∧ ∀ i < c.size.toNat,
    (system calls s x (t + 1)).bus.mem (wordIndex (element c.result 4 i)) =
      reshuffle ((system calls s x b).bus.mem (wordIndex (element c.data 4 i)))

/-- A start command of a call after the first one is followed by at least one cycle without an
access. -/
def Spaced (t : ℕ) : Prop :=
  (system calls s x t).driver.pc = .writeStart → 0 < (system calls s x t).driver.call →
    (x t).go = true → (x (t + 1)).go = false

end Contract

end CyclonRtes.Swap
