import Mathlib.Tactic.Common
import CyclonRtes.Avalon.Port

/-!
# The interval timer

The timer of the `counter_parallel_port` system, `soc_system_timer_0.v`: a 32-bit counter that runs
down to zero and then starts again from the value in the two period registers.  Reaching zero sets
the timeout flag, which interrupts if bit 0 of the control register is set; without bit 1 the timer
then stops.  Writing one of the period registers stops the timer and reloads it one cycle later.

The lemmas say what one clock edge does to each register, under the conditions in which the programs
find the timer.
-/

namespace CyclonRtes.Timer

/-- The state of the timer between two clock edges. -/
structure Entity where
  internalCounter : Word
  forceReload : Bool
  counterIsRunning : Bool
  delayedCounterIsZero : Bool
  timeoutOccurred : Bool
  readdata : BitVec 16
  periodLRegister : BitVec 16
  periodHRegister : BitVec 16
  counterSnapshot : Word
  controlRegister : BitVec 4
  deriving DecidableEq, Repr

/-- The inputs of the slave port in one clock cycle. -/
structure Port where
  address : BitVec 3
  chipselect : Bool
  writeN : Bool
  writedata : BitVec 16
  deriving DecidableEq, Repr

/-- The inputs of the timer in one clock cycle. -/
structure Inputs where
  resetN : Bool
  port : Port
  deriving DecidableEq, Repr

namespace Port

/-- The cycle of a register write. -/
def iowr (address : BitVec 3) (data : BitVec 16) : Port :=
  { address := address, chipselect := true, writeN := false, writedata := data }

/-- The two equal cycles of a register read. -/
def iord (address : BitVec 3) : Port :=
  { address := address, chipselect := true, writeN := true, writedata := 0 }

/-- The port is not selected; the other lines carry whatever `p` shows. -/
def deselect (p : Port) : Port := { p with chipselect := false }

/-- The port carries a write to the register at address `a`. -/
def strobe (p : Port) (a : BitVec 3) : Bool := p.chipselect && !p.writeN && p.address == a

/-- `control_wr_strobe`. -/
def controlWrStrobe (p : Port) : Bool := p.strobe 1

/-- `start_strobe`. -/
def startStrobe (p : Port) : Bool := p.writedata.getLsbD 2 && p.controlWrStrobe

/-- `stop_strobe`. -/
def stopStrobe (p : Port) : Bool := p.writedata.getLsbD 3 && p.controlWrStrobe

/-- `status_wr_strobe`. -/
def statusWrStrobe (p : Port) : Bool := p.strobe 0

/-- `period_l_wr_strobe`. -/
def periodLWrStrobe (p : Port) : Bool := p.strobe 2

/-- `period_h_wr_strobe`. -/
def periodHWrStrobe (p : Port) : Bool := p.strobe 3

/-- `snap_strobe`. -/
def snapStrobe (p : Port) : Bool := p.strobe 4 || p.strobe 5

@[simp] lemma strobe_iowr (a b : BitVec 3) (d : BitVec 16) : (iowr a d).strobe b = (a == b) := rfl

@[simp] lemma writedata_iowr (a : BitVec 3) (d : BitVec 16) : (iowr a d).writedata = d := rfl

@[simp] lemma strobe_iord (a b : BitVec 3) : (iord a).strobe b = false := rfl

@[simp] lemma strobe_deselect (p : Port) (b : BitVec 3) : p.deselect.strobe b = false := rfl

end Port

namespace Entity

/-- `counter_is_zero`. -/
def counterIsZero (e : Entity) : Bool := e.internalCounter == 0

/-- `counter_load_value`. -/
def counterLoadValue (e : Entity) : Word := e.periodHRegister ++ e.periodLRegister

/-- `control_continuous`. -/
def controlContinuous (e : Entity) : Bool := e.controlRegister.getLsbD 1

/-- `control_interrupt_enable`. -/
def controlInterruptEnable (e : Entity) : Bool := e.controlRegister.getLsbD 0

/-- `timeout_event`. -/
def timeoutEvent (e : Entity) : Bool := e.counterIsZero && !e.delayedCounterIsZero

/-- `irq`. -/
def irq (e : Entity) : Bool := e.timeoutOccurred && e.controlInterruptEnable

/-- `do_stop_counter`. -/
def doStopCounter (e : Entity) (p : Port) : Bool :=
  p.stopStrobe || e.forceReload || e.counterIsZero && !e.controlContinuous

/-- `read_mux_out`. -/
def readMuxOut (e : Entity) (p : Port) : BitVec 16 :=
  (if p.address = 2 then e.periodLRegister else 0) |||
  (if p.address = 3 then e.periodHRegister else 0) |||
  (if p.address = 4 then e.counterSnapshot.extractLsb' 0 16 else 0) |||
  (if p.address = 5 then e.counterSnapshot.extractLsb' 16 16 else 0) |||
  (if p.address = 1 then e.controlRegister.setWidth 16 else 0) |||
  (if p.address = 0 then
    (if e.counterIsRunning then 2 else 0) ||| (if e.timeoutOccurred then 1 else 0) else 0)

/-- The registers after a reset. -/
def reset : Entity :=
  { internalCounter := 0x2FAF07F, forceReload := false, counterIsRunning := false,
    delayedCounterIsZero := false, timeoutOccurred := false, readdata := 0,
    periodLRegister := 61567, periodHRegister := 762, counterSnapshot := 0, controlRegister := 0 }

/-- One rising edge of `clk`. -/
def step (e : Entity) (x : Inputs) : Entity :=
  if x.resetN then
    { internalCounter :=
        if e.counterIsRunning || e.forceReload then
          if e.counterIsZero || e.forceReload then e.counterLoadValue else e.internalCounter - 1
        else e.internalCounter
      forceReload := x.port.periodHWrStrobe || x.port.periodLWrStrobe
      counterIsRunning :=
        if x.port.startStrobe then true
        else if e.doStopCounter x.port then false
        else e.counterIsRunning
      delayedCounterIsZero := e.counterIsZero
      timeoutOccurred :=
        if x.port.statusWrStrobe then false
        else if e.timeoutEvent then true
        else e.timeoutOccurred
      readdata := e.readMuxOut x.port
      periodLRegister := if x.port.periodLWrStrobe then x.port.writedata else e.periodLRegister
      periodHRegister := if x.port.periodHWrStrobe then x.port.writedata else e.periodHRegister
      counterSnapshot := if x.port.snapStrobe then e.internalCounter else e.counterSnapshot
      controlRegister :=
        if x.port.controlWrStrobe then x.port.writedata.extractLsb' 0 4 else e.controlRegister }
  else reset

end Entity

/-! ## Counting down -/

/-- The period that the programs set, `0x00FF` and `0xFFFF` in the period registers. -/
def period : Word := 0x00FFFFFF

/-- The counter, `n` cycles after it has been loaded with the period. -/
def countdown (n : ℕ) : Word := BitVec.ofNat 32 (0xFFFFFF - n % 0x1000000)

/-- The access neither sets the period nor stops the timer. -/
def Port.Keeps (p : Port) : Prop :=
  p.periodLWrStrobe = false ∧ p.periodHWrStrobe = false ∧ p.stopStrobe = false

/-- The period is set, and the timer has been loaded with it. -/
structure Entity.Loaded (e : Entity) : Prop where
  periodL : e.periodLRegister = 0xFFFF
  periodH : e.periodHRegister = 0x00FF
  forceReload : e.forceReload = false
  /-- The timer stops with the period in its counter. -/
  atRest : e.counterIsRunning = false → e.internalCounter = period

/-- A cycle without a write keeps period and timer. -/
lemma Port.keeps_of_passive {p : Port} (hp : ∀ a, p.strobe a = false) : p.Keeps := by
  simp [Port.Keeps, Port.periodLWrStrobe, Port.periodHWrStrobe, Port.stopStrobe,
    Port.controlWrStrobe, hp]

instance (p : Port) : Decidable p.Keeps := inferInstanceAs (Decidable (_ ∧ _ ∧ _))

section Edge

variable {e : Entity} {p : Port} {n : ℕ}

/-- The counter starts again after it has reached zero. -/
lemma countdown_succ (n : ℕ) :
    (if countdown n = 0 then period else countdown n - 1) = countdown (n + 1) := by
  by_cases hn : n % 0x1000000 = 0xFFFFFF
  · have hzero : countdown n = 0 := by
      rw [countdown, hn]
      rfl
    have hsucc : (n + 1) % 0x1000000 = 0 := by omega
    rw [if_pos hzero, countdown, hsucc, Nat.sub_zero]
    rfl
  · have hlt : n % 0x1000000 < 0x1000000 := Nat.mod_lt n (by decide)
    have hne : countdown n ≠ 0 := by
      intro hzero
      have := congrArg BitVec.toNat hzero
      simp only [countdown, BitVec.toNat_ofNat, BitVec.ofNat_eq_ofNat, Nat.zero_mod] at this
      omega
    rw [if_neg hne]
    apply BitVec.eq_of_toNat_eq
    simp only [countdown, BitVec.toNat_sub, BitVec.toNat_ofNat, BitVec.ofNat_eq_ofNat]
    omega

/-- The lower half of the counter. -/
lemma toNat_extractLsb'_countdown (n : ℕ) :
    ((countdown n).extractLsb' 0 16).toNat = 0xFFFF - n % 0x10000 := by
  rw [BitVec.extractLsb'_toNat, countdown, BitVec.toNat_ofNat, Nat.shiftRight_zero]
  omega

/-- A loaded timer that is at zero is running. -/
lemma Entity.Loaded.running_of_zero (h : e.Loaded) (hz : e.counterIsZero = true) :
    e.counterIsRunning = true := by
  by_contra hr
  have hrest := h.atRest (by simpa using hr)
  rw [Entity.counterIsZero, hrest] at hz
  exact absurd hz (by decide)

/-- The counter of a loaded timer. -/
lemma Entity.Loaded.counter_step (h : e.Loaded) : (e.step ⟨true, p⟩).internalCounter =
    if e.counterIsRunning then (if e.internalCounter = 0 then period else e.internalCounter - 1)
    else e.internalCounter := by
  simp [Entity.step, h.forceReload, Entity.counterIsZero, Entity.counterLoadValue, h.periodL,
    h.periodH, period]

/-- A running timer counts down. -/
lemma Entity.Loaded.counter_of_running (h : e.Loaded) (hr : e.counterIsRunning = true)
    (hn : e.internalCounter = countdown n) :
    (e.step ⟨true, p⟩).internalCounter = countdown (n + 1) := by
  rw [h.counter_step, if_pos hr, hn, countdown_succ]

/-- A timer at rest keeps the period in its counter. -/
lemma Entity.Loaded.counter_of_rest (h : e.Loaded) (hr : e.counterIsRunning = false) :
    (e.step ⟨true, p⟩).internalCounter = period := by
  rw [h.counter_step, hr]
  exact h.atRest hr

/-- When the counter reaches zero it is loaded with the period. -/
lemma Entity.Loaded.counter_of_zero (h : e.Loaded) (hz : e.counterIsZero = true) :
    (e.step ⟨true, p⟩).internalCounter = period := by
  have hz' : e.internalCounter = 0 := by simpa [Entity.counterIsZero] using hz
  rw [h.counter_step, if_pos (h.running_of_zero hz), if_pos hz']

/-- The timer stays loaded. -/
lemma Entity.Loaded.step (h : e.Loaded) (hp : p.Keeps) : (e.step ⟨true, p⟩).Loaded := by
  obtain ⟨hl, hh, hs⟩ := hp
  refine ⟨?_, ?_, ?_, fun hrest => ?_⟩
  · simp [Entity.step, hl, h.periodL]
  · simp [Entity.step, hh, h.periodH]
  · simp [Entity.step, hl, hh]
  · cases hr : e.counterIsRunning with
    | false => exact h.counter_of_rest hr
    | true =>
      -- a running timer stops at zero only
      refine h.counter_of_zero ?_
      by_contra hz
      simp [Entity.step, Entity.doStopCounter, hs, h.forceReload, hr, hz] at hrest

/-- A timer that is started runs. -/
lemma running_of_start (hp : p.startStrobe = true) :
    (e.step ⟨true, p⟩).counterIsRunning = true := by
  simp [Entity.step, hp]

/-- In continuous mode the timer goes on. -/
lemma Entity.Loaded.running_step (h : e.Loaded) (hp : p.Keeps) (hc : e.controlContinuous = true)
    (hr : e.counterIsRunning = true) : (e.step ⟨true, p⟩).counterIsRunning = true := by
  simp [Entity.step, Entity.doStopCounter, hp.2.2, h.forceReload, hc, hr]

/-- Otherwise the timer stops when it has set the timeout flag. -/
lemma stopped_of_timeout (hp : p.startStrobe = false)
    (hc : e.controlContinuous = false) (hto : (e.step ⟨true, p⟩).timeoutOccurred = true)
    (hr : e.timeoutOccurred = true → e.counterIsRunning = false) :
    (e.step ⟨true, p⟩).counterIsRunning = false := by
  by_cases hz : e.counterIsZero = true
  · simp [Entity.step, Entity.doStopCounter, hp, hz, hc]
  · have hold : e.timeoutOccurred = true := by
      simp only [Entity.step, Entity.timeoutEvent, hz] at hto
      simp_all
    simp [Entity.step, hp, hr hold]

/-- Without a write to it the control register stays as it is. -/
lemma control_of_not_writes (hp : p.controlWrStrobe = false) :
    (e.step ⟨true, p⟩).controlRegister = e.controlRegister := by
  simp [Entity.step, hp]

/-- The written data go to the control register. -/
lemma control_of_writes (d : BitVec 16) :
    (e.step ⟨true, .iowr 1 d⟩).controlRegister = d.extractLsb' 0 4 := by
  simp [Entity.step, Port.controlWrStrobe]

end Edge

end CyclonRtes.Timer
