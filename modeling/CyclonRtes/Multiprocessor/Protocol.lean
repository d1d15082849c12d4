import CyclonRtes.Counter.Entity

/-!
# Two processors that count together

The programs `cpu0_counter.c` and `cpu1_counter.c` of `multiprocessor`: each processor, over and
over, locks a mutex, adds one to the shared counter, reads the counter, writes the value to the LEDs
and unlocks the mutex.  The programs differ in the delay loops only, which are pauses here.

In every clock cycle the schedule may let one processor make its next access.  A read of the counter
is held for two cycles; as long as it lasts, the other processor has no access to the counter, but
it may go on elsewhere.  The mutex driver is not part of the repository: `MutexDriver` is what the
programs see of it, and `MutexDriver.Excludes` is what they rely on.
-/

namespace CyclonRtes.Multiprocessor

open Synchronous

/-- The processors. -/
inductive Cpu where
  | cpu0 | cpu1
  deriving DecidableEq, Repr

/-- The mutex and its driver. -/
structure MutexDriver (μ : Type*) where
  /-- `altera_avalon_mutex_lock` returns with this state of the mutex, or goes on waiting. -/
  lock : Cpu → μ → Option μ
  /-- `altera_avalon_mutex_unlock`. -/
  unlock : Cpu → μ → μ
  /-- The processor that holds the mutex. -/
  holder : μ → Option Cpu

/-- A processor holds the mutex when its call of `altera_avalon_mutex_lock` has returned, and the
call does not return while the other processor holds the mutex. -/
structure MutexDriver.Excludes {μ : Type*} (M : MutexDriver μ) : Prop where
  /-- The caller holds the mutex when the call returns. -/
  holder_lock : ∀ {c m m'}, M.lock c m = some m' → M.holder m' = some c
  /-- The call blocks while another processor holds the mutex. -/
  blocks : ∀ {c d m}, M.holder m = some d → d ≠ c → M.lock c m = none

/-- The next step of a processor. -/
inductive CpuPc where
  | lock | add
  /-- The first cycle of the read. -/
  | read
  /-- The second cycle of the read. -/
  | readHold
  | led | unlock
  deriving DecidableEq, Repr

/-- The state of a processor: its next step and its variable `value`. -/
structure CpuState where
  pc : CpuPc
  value : Word
  deriving DecidableEq, Repr

/-- The counter, the mutex and the processors. -/
structure System (μ : Type*) where
  counter : Counter.Entity
  mutex : μ
  cpu : Cpu → CpuState

/-- What happens in a clock cycle: `turn` is the processor that may make its next access, `idlePort`
stands on the lines of the counter's slave port when it is not selected. -/
structure Schedule where
  turn : Option Cpu
  idlePort : SlavePort
  deriving DecidableEq, Repr

/-! ## The programs -/

/-- `COUNTER_ADD_WR_ADRESS`. -/
def counterAddWrAdress : ℕ := 7 * 4

/-- `COUNTER_VALUE_RD_ADRESS`. -/
def counterValueRdAdress : ℕ := 0 * 4

/-- The counter access of a step of the program. -/
def CpuPc.access : CpuPc → Option SlavePort
  | .add => some (.iowr32Direct counterAddWrAdress 1)
  | .read | .readHold => some (.iord32Direct counterValueRdAdress)
  | .lock | .led | .unlock => none

variable {μ : Type*}

/-- A processor after its step. -/
def CpuState.next (M : MutexDriver μ) (c : Cpu) (m : μ) (readData : Word) (st : CpuState) :
    CpuState :=
  match st.pc with
  | .lock => if (M.lock c m).isSome then { st with pc := .add } else st
  | .add => { st with pc := .read }
  | .read => { st with pc := .readHold }
  | .readHold => { pc := .led, value := readData }
  | .led => { st with pc := .unlock }
  | .unlock => { st with pc := .lock }

/-- The mutex after a step of a processor. -/
def MutexDriver.next (M : MutexDriver μ) (c : Cpu) (pc : CpuPc) (m : μ) : μ :=
  match pc with
  | .lock => (M.lock c m).getD m
  | .unlock => M.unlock c m
  | _ => m

namespace System

/-- The counter is in the middle of a read. -/
def busy (s : System μ) : Bool := (s.cpu .cpu0).pc == .readHold || (s.cpu .cpu1).pc == .readHold

/-- Processor `c` makes a step in this cycle: it completes a read, or it is its turn and the counter
is free if the step needs it. -/
def moves (s : System μ) (x : Schedule) (c : Cpu) : Bool :=
  match (s.cpu c).pc with
  | .readHold => true
  | .add | .read => x.turn == some c && !s.busy
  | .lock | .led | .unlock => x.turn == some c

/-- What stands on the slave port of the counter. -/
def port (s : System μ) (x : Schedule) : SlavePort :=
  if s.busy then .iord32Direct counterValueRdAdress
  else
    match x.turn with
    | some c => (s.cpu c).pc.access.getD x.idlePort.deselect
    | none => x.idlePort.deselect

/-- One clock cycle. -/
def step (M : MutexDriver μ) (s : System μ) (x : Schedule) : System μ where
  counter := s.counter.sharedStep ⟨true, s.port x⟩
  mutex :=
    match x.turn with
    | some c => M.next c (s.cpu c).pc s.mutex
    | none => s.mutex
  cpu c := if s.moves x c then (s.cpu c).next M c s.mutex s.counter.readData else s.cpu c

/-- The processor that adds one to the counter in this cycle. -/
def adds (s : System μ) (x : Schedule) : List Cpu :=
  match x.turn with
  | some c => if (s.cpu c).pc = .add ∧ s.busy = false then [c] else []
  | none => []

/-- The processor that writes to the LEDs in this cycle, with the value. -/
def shows (s : System μ) (x : Schedule) : List (Cpu × Word) :=
  match x.turn with
  | some c => if (s.cpu c).pc = .led then [(c, (s.cpu c).value)] else []
  | none => []

/-- Both processors are before their loops. -/
def Initial (s : System μ) : Prop := ∀ c, (s.cpu c).pc = .lock

end System

/-- The additions of a run before cycle `t`, oldest first. -/
def additions (M : MutexDriver μ) (s : System μ) (x : ℕ → Schedule) (t : ℕ) : List Cpu :=
  log System.adds (System.step M) s x t

/-- The LED writes of a run before cycle `t`, oldest first. -/
def ledWrites (M : MutexDriver μ) (s : System μ) (x : ℕ → Schedule) (t : ℕ) : List (Cpu × Word) :=
  log System.shows (System.step M) s x t

/-- The counter and the LEDs count in step: after `m` additions the counter has gone up by `m`, and
the `j`-th LED write, counted from zero, is that of the processor that has made the `j`-th addition
and shows the count after it. -/
structure CountsInOrder (M : MutexDriver μ) (s : System μ) (x : ℕ → Schedule) (t : ℕ) : Prop where
  /-- No increment is lost. -/
  counter : (run (System.step M) s x t).counter.iCounter =
    s.counter.iCounter + BitVec.ofNat 32 (additions M s x t).length
  /-- Every LED write shows its own increment. -/
  shown : ∀ j w, (ledWrites M s x t)[j]? = some w → ∃ c, (additions M s x t)[j]? = some c ∧
    w = (c, s.counter.iCounter + BitVec.ofNat 32 (j + 1))
  /-- At most one increment has not been shown yet. -/
  pending : (additions M s x t).length ≤ (ledWrites M s x t).length + 1

end CyclonRtes.Multiprocessor
