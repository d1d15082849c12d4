import Mathlib.Tactic.IntervalCases
import CyclonRtes.Counter.Entity
import CyclonRtes.Interrupts.Processor
import CyclonRtes.Timer.Entity

/-!
# Measuring the recovery time

`setup_recovery_timer`, `recovery_isr` and `measure_recovery_time` of `interrupts_measurment.c`.
The interrupt service routine of the timer starts the counter; the main program polls the counter,
prints its value when it is no longer zero, and prepares timer and counter for the next time.
-/

namespace CyclonRtes.Timer.Recovery

open Synchronous Interrupts

/-! ## The program -/

/-- The next step of the main program: `setup_recovery_timer`, and then the calls of
`measure_recovery_time`.  The reads have a second cycle. -/
inductive MainPc where
  | clearControl | continuousMode | periodL | periodH
  /-- The reset of the counter in the setup. -/
  | setupReset
  | enableInterrupt | startTimer
  /-- `while (IORD(INTERRUPT_COUNTER_0_BASE, ICOUNTER) == 0)`. -/
  | poll | holdPoll
  /-- `alt_printf("recovery time %x \n", IORD(INTERRUPT_COUNTER_0_BASE, ICOUNTER))`. -/
  | read | print
  | stop
  | resetCount
  | rearm
  deriving DecidableEq, Repr

/-- The next step of `recovery_isr`. -/
inductive IsrPc where
  | clearControl | clearStatus | start
  deriving DecidableEq, Repr

/-- `ICOUNTER`. -/
def icounter : ℕ := 0

/-- `IRZ`. -/
def irz : ℕ := 1

/-- `ISTART`. -/
def istart : ℕ := 2

/-- `ISTOP`. -/
def istop : ℕ := 3

/-- `ARBITVAL`. -/
def arbitval : Word := 0x0000FFFF

/-- `IOWR(INTERRUPT_COUNTER_0_BASE, register, ARBITVAL)`. -/
def command (register : ℕ) : SlavePort := .iowr32Direct (register * 4) arbitval

/-- An access to the timer or to the counter. -/
inductive Access where
  | timer (p : Port)
  | counter (p : SlavePort)
  deriving DecidableEq, Repr

/-- The timer and the counter. -/
structure Devices where
  timer : Timer.Entity
  counter : Counter.Entity
  deriving DecidableEq, Repr

/-- What stands on the lines of the two devices when they are not selected. -/
structure Lines where
  timer : Port
  counter : SlavePort
  deriving DecidableEq, Repr

/-- The access of a step of the main program. -/
def MainPc.access : MainPc → Option Access
  | .clearControl => some (.timer (.iowr 1 0))
  | .continuousMode => some (.timer (.iowr 1 2))
  | .periodL => some (.timer (.iowr 2 0xFFFF))
  | .periodH => some (.timer (.iowr 3 0x00FF))
  | .setupReset | .resetCount => some (.counter (command irz))
  | .enableInterrupt => some (.timer (.iowr 1 3))
  | .startTimer | .rearm => some (.timer (.iowr 1 7))
  | .poll | .holdPoll | .read | .print => some (.counter (.iord32Direct (icounter * 4)))
  | .stop => some (.counter (command istop))

/-- The access of a step of `recovery_isr`. -/
def IsrPc.access : IsrPc → Access
  | .clearControl => .timer (.iowr 1 0)
  | .clearStatus => .timer (.iowr 0 0)
  | .start => .counter (command istart)

/-- The main program after its step.  The processor samples the read data at the end of the second
cycle of a read. -/
def MainPc.next (readData : Word) : MainPc → MainPc
  | .clearControl => .continuousMode
  | .continuousMode => .periodL
  | .periodL => .periodH
  | .periodH => .setupReset
  | .setupReset => .enableInterrupt
  | .enableInterrupt => .startTimer
  | .startTimer => .poll
  | .poll => .holdPoll
  | .holdPoll => if readData = 0 then .poll else .read
  | .read => .print
  | .print => .stop
  | .stop => .resetCount
  | .resetCount => .rearm
  | .rearm => .poll

/-- `recovery_isr` after its step. -/
def IsrPc.next : IsrPc → Option IsrPc
  | .clearControl => some .clearStatus
  | .clearStatus => some .start
  | .start => none

/-- The program with its interrupt service routine. -/
def code : Code MainPc IsrPc Access Word where
  mainAccess := MainPc.access
  mainHolds pc := pc == .holdPoll || pc == .print
  mainStep := MainPc.next
  entry := .clearControl
  isrAccess pc := some pc.access
  isrHolds _ := false
  isrStep _ pc m := (pc.next, m)

/-- The timer and the counter under an access. -/
def Devices.step (d : Devices) (idle : Lines) (access : Option Access) : Devices where
  timer := d.timer.step ⟨true, match access with
    | some (.timer p) => p
    | _ => idle.timer.deselect⟩
  counter := d.counter.step ⟨true, match access with
    | some (.counter p) => p
    | _ => idle.counter.deselect⟩

/-- The devices; only the counter is read, and only the timer interrupts. -/
def device : Device Devices Access Lines Word where
  step := Devices.step
  view d := d.counter.readData
  irq d := d.timer.irq

/-- The processor and the devices. -/
abbrev System := State MainPc IsrPc Devices

namespace System

/-- One clock cycle. -/
def next (s : System) (x : Schedule Lines) : System := s.step code device x

/-- The interrupt service routine starts the counter in this cycle. -/
def starts (s : System) (x : Schedule Lines) : Prop := s.move code device x = .isr .start

/-- The main program prints in this cycle, in the second cycle of a read. -/
def prints (s : System) : Prop := s.isr = none ∧ s.main = .print

/-- The value that it prints. -/
def recovery (s : System) : Word := s.device.counter.readData

end System

/-- The setup has not been completed. -/
def MainPc.inSetup : MainPc → Bool
  | .clearControl | .continuousMode | .periodL | .periodH | .setupReset | .enableInterrupt
  | .startTimer => true
  | _ => false

/-! ## The counter -/

/-- The counter stands still at zero. -/
structure AtRest (c : Counter.Entity) : Prop where
  iEn : c.iEn = false
  iRz : c.iRz = false
  iCounter : c.iCounter = 0

/-- The counter stands still and is zero, or is going to be after the next edge. -/
def Zeroed (c : Counter.Entity) : Prop := c.iEn = false ∧ (c.iRz = true ∨ c.iCounter = 0)

/-- The counter counts. -/
structure Counting (c : Counter.Entity) : Prop where
  iEn : c.iEn = true
  iRz : c.iRz = false

/-- The access is not a command to the counter. -/
def Harmless (p : SlavePort) : Prop :=
  Counter.resetCommand ⟨true, p⟩ = false ∧ Counter.startStop ⟨true, p⟩ = none

section Counter

variable {c : Counter.Entity} {p : SlavePort}

/-- No access is not a command. -/
lemma harmless_deselect (p : SlavePort) : Harmless p.deselect := by
  simp [Harmless, Counter.resetCommand, Counter.startStop, SlavePort.writesTo]

/-- A read is not a command. -/
lemma harmless_iord (o : ℕ) : Harmless (.iord32Direct o) := by
  simp [Harmless, Counter.resetCommand, Counter.startStop, SlavePort.writesTo]

/-- Without a command the counter that stands still goes on to do so. -/
lemma iEn_step (hp : Harmless p) : (c.step ⟨true, p⟩).iEn = c.iEn := by
  rw [Counter.step_iEn rfl, hp.2, Option.getD_none]

/-- Without a command a counter at rest stays there. -/
lemma Zeroed.step (h : Zeroed c) (hp : Harmless p) : AtRest (c.step ⟨true, p⟩) := by
  refine ⟨(iEn_step hp).trans h.1, (Counter.step_iRz rfl).trans hp.1, ?_⟩
  rw [Counter.step_iCounter rfl, Counter.pCounter]
  rcases h with ⟨hEn, hRz | hzero⟩
  · rw [if_pos hRz]
  · simp [hEn, hzero]

/-- A counter at rest is zeroed. -/
lemma AtRest.zeroed (h : AtRest c) : Zeroed c := ⟨h.iEn, .inr h.iCounter⟩

/-- The reset command zeroes a counter that stands still. -/
lemma zeroed_of_reset (h : c.iEn = false) : Zeroed (c.step ⟨true, command irz⟩) :=
  ⟨(Counter.step_iEn rfl).trans h, .inl (Counter.step_iRz rfl)⟩

/-- The start command starts a counter at rest from zero. -/
lemma counting_of_start (h : AtRest c) :
    Counting (c.step ⟨true, command istart⟩) ∧ (c.step ⟨true, command istart⟩).iCounter = 0 := by
  refine ⟨⟨Counter.step_iEn rfl, Counter.step_iRz rfl⟩, ?_⟩
  rw [Counter.step_iCounter rfl, Counter.pCounter, h.iRz, h.iEn]
  exact h.iCounter

/-- The stop command stops the counter. -/
lemma iEn_of_stop : (c.step ⟨true, command istop⟩).iEn = false := Counter.step_iEn rfl

/-- Without a command the counter goes on counting. -/
lemma Counting.step (h : Counting c) (hp : Harmless p) :
    Counting (c.step ⟨true, p⟩) ∧ (c.step ⟨true, p⟩).iCounter = c.iCounter + 1 := by
  refine ⟨⟨(iEn_step hp).trans h.iEn, (Counter.step_iRz rfl).trans hp.1⟩, ?_⟩
  rw [Counter.step_iCounter rfl, Counter.pCounter, h.iRz, h.iEn]
  rfl

/-- A read of the counter shows its value in the next cycle. -/
lemma readData_of_read : (c.step ⟨true, .iord32Direct (icounter * 4)⟩).readData = c.iCounter :=
  Counter.step_readData rfl

end Counter

/-! ## The phases of a measurement -/

/-- What is known of the counter `c` and of the control register of the timer. -/
def Phase (isr : Option IsrPc) (main : MainPc) (c : Counter.Entity) (control : BitVec 4) : Prop :=
  match isr, main with
  | none, .clearControl | none, .continuousMode | none, .periodL | none, .periodH
  | none, .setupReset => c.iEn = false
  | none, .enableInterrupt | none, .startTimer => Zeroed c
  | none, .poll => AtRest c ∨ Counting c ∧ control = 0
  | none, .holdPoll => AtRest c ∧ c.readData = 0 ∨ Counting c ∧ control = 0
  | none, .read | none, .print | none, .stop => Counting c ∧ control = 0
  | none, .resetCount => c.iEn = false ∧ control = 0
  | none, .rearm => Zeroed c ∧ control = 0
  | some .clearControl, .poll => AtRest c
  | some .clearStatus, .poll | some .start, .poll => AtRest c ∧ control = 0
  | _, _ => False

section Step

variable {d : Devices} {main : MainPc} {isr : Option IsrPc} {lines : Lines}

/-- Without an access to the timer its control register stays as it is. -/
lemma control_of_counter (p : SlavePort) :
    (d.step lines (some (.counter p))).timer.controlRegister = d.timer.controlRegister :=
  control_of_not_writes (Port.strobe_deselect _ _)

/-- Between two accesses. -/
lemma Phase.idle (h : Phase isr main d.counter d.timer.controlRegister)
    (hholds : main = .holdPoll → isr ≠ none) :
    Phase isr main (d.step lines none).counter (d.step lines none).timer.controlRegister := by
  have hcontrol : (d.step lines none).timer.controlRegister = d.timer.controlRegister :=
    control_of_not_writes (Port.strobe_deselect _ _)
  have hp : Harmless lines.counter.deselect := harmless_deselect _
  rw [hcontrol]
  match isr, main with
  | none, .clearControl | none, .continuousMode | none, .periodL | none, .periodH
  | none, .setupReset => exact (iEn_step hp).trans h
  | none, .enableInterrupt | none, .startTimer => exact (h.step hp).zeroed
  | none, .poll => exact h.imp (fun h => h.zeroed.step hp) fun h => ⟨(h.1.step hp).1, h.2⟩
  | none, .holdPoll => exact absurd rfl (hholds rfl)
  | none, .read | none, .print | none, .stop => exact ⟨(h.1.step hp).1, h.2⟩
  | none, .resetCount => exact ⟨(iEn_step hp).trans h.1, h.2⟩
  | none, .rearm => exact ⟨(h.1.step hp).zeroed, h.2⟩
  | some .clearControl, .poll => exact h.zeroed.step hp
  | some .clearStatus, .poll | some .start, .poll => exact ⟨h.1.zeroed.step hp, h.2⟩

/-- A step of the main program. -/
lemma Phase.mainStep (h : Phase none main d.counter d.timer.controlRegister) :
    Phase none (main.next d.counter.readData) (d.step lines main.access).counter
      (d.step lines main.access).timer.controlRegister := by
  have hidle : Harmless lines.counter.deselect := harmless_deselect _
  have hread : Harmless (.iord32Direct (icounter * 4)) := harmless_iord _
  cases main with
  | clearControl | continuousMode | periodL | periodH => exact (iEn_step hidle).trans h
  | setupReset => exact zeroed_of_reset h
  | enableInterrupt => exact (h.step hidle).zeroed
  | startTimer => exact .inl (h.step hidle)
  | poll =>
    refine h.imp (fun h => ⟨h.zeroed.step hread, readData_of_read.trans h.iCounter⟩) fun h =>
      ⟨(h.1.step hread).1, (control_of_counter _).trans h.2⟩
  | holdPoll =>
    rcases h with ⟨hrest, hzero⟩ | ⟨hcount, hcontrol⟩
    · rw [MainPc.next, if_pos hzero]
      exact .inl (hrest.zeroed.step hread)
    · have hnext := (hcount.step hread).1
      rw [MainPc.next]
      split
      · exact .inr ⟨hnext, (control_of_counter _).trans hcontrol⟩
      · exact ⟨hnext, (control_of_counter _).trans hcontrol⟩
  | read | print => exact ⟨(h.1.step hread).1, (control_of_counter _).trans h.2⟩
  | stop => exact ⟨iEn_of_stop, (control_of_counter _).trans h.2⟩
  | resetCount => exact ⟨zeroed_of_reset h.1, (control_of_counter _).trans h.2⟩
  | rearm => exact .inl (h.1.step hidle)

/-- A step of the interrupt service routine. -/
lemma Phase.isrStep {pc : IsrPc} (h : Phase (some pc) main d.counter d.timer.controlRegister) :
    Phase pc.next main (d.step lines (some pc.access)).counter
      (d.step lines (some pc.access)).timer.controlRegister := by
  have hidle : Harmless lines.counter.deselect := harmless_deselect _
  match pc, main with
  | .clearControl, .poll => exact ⟨h.zeroed.step hidle, control_of_writes 0⟩
  | .clearStatus, .poll =>
    exact ⟨h.1.zeroed.step hidle, (control_of_not_writes (p := .iowr 0 0) rfl).trans h.2⟩
  | .start, .poll =>
    exact .inr ⟨(counting_of_start h.1).1, (control_of_counter _).trans h.2⟩

/-- The interrupt service routine begins while the main program polls. -/
lemma Phase.enter (h : Phase none main d.counter d.timer.controlRegister)
    (hmain : main.inSetup = false) (hholds : main ≠ .holdPoll) (hirq : d.timer.irq = true) :
    Phase (some .clearControl) main (d.step lines none).counter
      (d.step lines none).timer.controlRegister := by
  have hcontrol : d.timer.controlRegister ≠ 0 := by
    intro h0
    simp [Timer.Entity.irq, Timer.Entity.controlInterruptEnable, h0] at hirq
  cases main with
  | poll => exact (h.resolve_right fun h => hcontrol h.2).zeroed.step (harmless_deselect _)
  | holdPoll => exact absurd rfl hholds
  | read | print | stop | resetCount | rearm => exact absurd h.2 hcontrol
  | clearControl | continuousMode | periodL | periodH | setupReset | enableInterrupt
  | startTimer => exact absurd hmain (by decide)

end Step

/-- The phase that the system is in. -/
def System.InPhase (s : System) : Prop :=
  Phase s.isr s.main s.device.counter s.device.timer.controlRegister

/-- A clock cycle leads from phase to phase. -/
lemma inPhase_next {s : System} (y : Schedule Lines) (h : s.InPhase)
    (hsetup : (s.next y).main.inSetup = true → (s.next y).isr = none) : (s.next y).InPhase := by
  unfold System.next at hsetup ⊢
  unfold System.InPhase at h ⊢
  obtain ⟨-, hholds, hs⟩ | ⟨-, hnone, hs⟩ | ⟨pc, -, hpc, hs⟩ | ⟨-, hnone, hholds, hirq, hs⟩ :=
    State.step_cases code device s y
  · rw [hs]
    refine h.idle fun hmain hnone => ?_
    simp [State.holds, hnone, hmain, code] at hholds
  · rw [hs]
    rw [hnone] at h
    exact h.mainStep
  · rw [hs]
    rw [hpc] at h
    exact h.isrStep
  · rw [hs] at hsetup ⊢
    rw [hnone] at h
    refine h.enter ?_ (fun hmain => ?_) hirq
    · by_contra hin
      exact absurd (hsetup (by simpa using hin)) (by simp)
    · simp [State.holds, hnone, hmain, code] at hholds

section Run

variable {s₀ : System} {x : ℕ → Schedule Lines} {t : ℕ}

/-- The program has just begun with the setup, and the counter stands still. -/
structure Begins (s : System) : Prop where
  main : s.main = .clearControl
  isr : s.isr = none
  iEn : s.device.counter.iEn = false

/-- The timer does not interrupt the setup. -/
def QuietSetup (s₀ : System) (x : ℕ → Schedule Lines) : Prop :=
  ∀ t, (run System.next s₀ x t).main.inSetup = true → (run System.next s₀ x t).isr = none

/-- Every cycle is in one of the phases. -/
lemma inPhase_run (h : Begins s₀) (hq : QuietSetup s₀ x) (t : ℕ) :
    (run System.next s₀ x t).InPhase := by
  induction t with
  | zero =>
    unfold System.InPhase
    rw [run_zero, h.main, h.isr]
    exact h.iEn
  | succ t ih => exact inPhase_next (x t) ih (hq (t + 1))

/-- The counter measures, and the main program has not printed yet. -/
def Measuring (s : System) : Prop :=
  s.isr = none ∧ s.device.counter.iEn = true ∧
    (s.main = .poll ∨ s.main = .holdPoll ∨ s.main = .read ∨ s.main = .print)

/-- A counter that measures is counting. -/
lemma counting_of_measuring {s : System} (h : s.InPhase) (hm : Measuring s) :
    Counting s.device.counter := by
  obtain ⟨hisr, hEn, hmain⟩ := hm
  unfold System.InPhase at h
  rw [hisr] at h
  have hrest : ¬ AtRest s.device.counter := fun hr => by simp [hr.iEn] at hEn
  rcases hmain with hmain | hmain | hmain | hmain <;> rw [hmain] at h
  · exact (h.resolve_left hrest).1
  · exact (h.resolve_left fun h => hrest h.1).1
  · exact h.1
  · exact h.1

/-- If the main program polls a counter that counts, it has done so before. -/
lemma Phase.polls {d : Devices} {main : MainPc} {lines : Lines}
    (h : Phase none main d.counter d.timer.controlRegister)
    (hEn : (d.step lines main.access).counter.iEn = true)
    (hmain : main.next d.counter.readData = .poll ∨ main.next d.counter.readData = .holdPoll ∨
      main.next d.counter.readData = .read ∨ main.next d.counter.readData = .print) :
    (main = .poll ∨ main = .holdPoll ∨ main = .read) ∧
      main.access = some (.counter (.iord32Direct (icounter * 4))) ∧ d.counter.iEn = true := by
  have hread : Harmless (.iord32Direct (icounter * 4)) := harmless_iord _
  have hidle : Harmless lines.counter.deselect := harmless_deselect _
  cases main with
  | clearControl | continuousMode | periodL | periodH | setupReset | enableInterrupt | print
  | stop | resetCount => simp [MainPc.next] at hmain
  | startTimer =>
    have hrest : (d.counter.step ⟨true, lines.counter.deselect⟩).iEn = false := (h.step hidle).iEn
    exact absurd (hrest.symm.trans hEn) Bool.false_ne_true
  | rearm =>
    have hrest : (d.counter.step ⟨true, lines.counter.deselect⟩).iEn = false :=
      (h.1.step hidle).iEn
    exact absurd (hrest.symm.trans hEn) Bool.false_ne_true
  | poll => exact ⟨.inl rfl, rfl, (iEn_step hread).symm.trans hEn⟩
  | holdPoll => exact ⟨.inr (.inl rfl), rfl, (iEn_step hread).symm.trans hEn⟩
  | read => exact ⟨.inr (.inr rfl), rfl, (iEn_step hread).symm.trans hEn⟩

/-- The interrupt service routine starts the counter at rest, while the main program polls. -/
lemma Phase.start {main : MainPc} {c : Counter.Entity} {control : BitVec 4}
    (h : Phase (some .start) main c control) : main = .poll ∧ AtRest c := by
  cases main <;> first | exact h.elim | exact ⟨rfl, h.1⟩

/-- A cycle after which the counter measures has started it, or the counter has been measuring
before. -/
lemma measuring_next {s : System} {y : Schedule Lines} (h : s.InPhase)
    (hm : Measuring (s.next y)) :
    s.starts y ∧ (s.next y).device.counter.iCounter = 0 ∧ (s.next y).main ≠ .print ∨
      Measuring s ∧ ¬ s.starts y ∧ ¬ s.prints ∧
        (s.next y).device.counter.iCounter = s.device.counter.iCounter + 1 ∧
        ((s.next y).main = .print →
          (s.next y).device.counter.readData = s.device.counter.iCounter) := by
  have hread : Harmless (.iord32Direct (icounter * 4)) := harmless_iord _
  have hidle : Harmless y.env.counter.deselect := harmless_deselect _
  unfold System.next at hm ⊢
  unfold System.starts
  obtain ⟨hmove, hholds, hs⟩ | ⟨hmove, hnone, hs⟩ | ⟨pc, hmove, hpc, hs⟩ | ⟨-, hnone, -, -, hs⟩ :=
    State.step_cases code device s y
  · rw [hs] at hm ⊢
    obtain ⟨hisr, hEn, hmain⟩ := hm
    have hprint : s.main ≠ .print := fun hmain => by
      have hisr' : s.isr = none := hisr
      simp [State.holds, hisr', hmain, code] at hholds
    have hms : Measuring s := ⟨hisr, (iEn_step hidle).symm.trans hEn, hmain⟩
    refine .inr ⟨hms, by simp [hmove], fun hp => hprint hp.2, ?_, fun hmain => absurd hmain hprint⟩
    exact ((counting_of_measuring h hms).step hidle).2
  · rw [hs] at hm ⊢
    obtain ⟨-, hEn, hmain⟩ := hm
    have hphase := h
    unfold System.InPhase at hphase
    rw [hnone] at hphase
    obtain ⟨hpolls, haccess, hEn'⟩ := hphase.polls hEn hmain
    have hms : Measuring s := ⟨hnone, hEn', hpolls.imp_right (Or.imp_right .inl)⟩
    have hcounter : (device.step s.device y.env (code.mainAccess s.main)).counter =
        s.device.counter.step ⟨true, .iord32Direct (icounter * 4)⟩ := by
      change (s.device.step y.env s.main.access).counter = _
      rw [haccess]
      rfl
    refine .inr ⟨hms, by simp [hmove], fun hp => ?_, ?_, fun _ => ?_⟩
    · rcases hpolls with hmain | hmain | hmain <;> simp [System.prints, hmain] at hp
    · exact (congrArg _ hcounter).trans ((counting_of_measuring h hms).step hread).2
    · exact (congrArg _ hcounter).trans readData_of_read
  · rw [hs] at hm ⊢
    obtain ⟨hisr, -, -⟩ := hm
    unfold System.InPhase at h
    rw [hpc] at h
    cases pc with
    | clearControl | clearStatus => exact absurd hisr (by simp [code, IsrPc.next])
    | start =>
      refine .inl ⟨hmove, ?_, ?_⟩
      · exact (counting_of_start h.start.2).2
      · change s.main ≠ .print
        rw [h.start.1]
        simp
  · rw [hs] at hm
    exact absurd hm.1 (by simp)

/-- Cycle `i` is the last start of the counter before cycle `t`, and nothing has been printed
since. -/
structure LastStart (s₀ : System) (x : ℕ → Schedule Lines) (i t : ℕ) : Prop where
  lt : i < t
  starts : (run System.next s₀ x i).starts (x i)
  silent : ∀ v, i < v → v < t →
    ¬ (run System.next s₀ x v).starts (x v) ∧ ¬ (run System.next s₀ x v).prints

/-- While the counter measures, it shows how long ago it has been started. -/
lemma count_of_measuring (h : Begins s₀) (hq : QuietSetup s₀ x) (t : ℕ)
    (hm : Measuring (run System.next s₀ x t)) :
    ∃ i, LastStart s₀ x i t ∧
      (run System.next s₀ x t).device.counter.iCounter = BitVec.ofNat 32 (t - i - 1) ∧
      ((run System.next s₀ x t).main = .print → i + 2 ≤ t ∧
        (run System.next s₀ x t).device.counter.readData = BitVec.ofNat 32 (t - i - 2)) := by
  induction t with
  | zero =>
    obtain ⟨-, hEn, -⟩ := hm
    rw [run_zero, h.iEn] at hEn
    exact absurd hEn Bool.false_ne_true
  | succ t ih =>
    rw [run_succ] at hm ⊢
    obtain ⟨hstart, hzero, hmain⟩ | ⟨hms, hnostart, hnoprint, hcount, hdata⟩ :=
      measuring_next (inPhase_run h hq t) hm
    · refine ⟨t, ⟨Nat.lt_succ_self t, hstart, fun v htv hvt => by omega⟩, ?_, fun hp =>
        absurd hp hmain⟩
      rw [hzero, show t + 1 - t - 1 = 0 by omega]
      rfl
    · obtain ⟨i, hlast, hi, -⟩ := ih hms
      have hit := hlast.lt
      refine ⟨i, ⟨Nat.lt_succ_of_lt hit, hlast.starts, fun v hiv hvt => ?_⟩, ?_, fun hp => ⟨?_, ?_⟩⟩
      · rcases Nat.lt_succ_iff_lt_or_eq.mp hvt with hvt | rfl
        · exact hlast.silent v hiv hvt
        · exact ⟨hnostart, hnoprint⟩
      · rw [hcount, hi, show t + 1 - i - 1 = t - i - 1 + 1 by omega, BitVec.ofNat_add]
        rfl
      · omega
      · rw [hdata hp, hi, show t + 1 - i - 2 = t - i - 1 by omega]

/-- The printed recovery time.  Every output follows a start of the counter by the interrupt service
routine, with no other output in between, and shows for how many cycles the counter had been
counting when the main program began to read it, modulo `2 ^ 32`. -/
theorem recovery_eq (h : Begins s₀) (hq : QuietSetup s₀ x) (hp : (run System.next s₀ x t).prints) :
    ∃ i, i + 2 ≤ t ∧ LastStart s₀ x i t ∧
      (run System.next s₀ x t).recovery = BitVec.ofNat 32 (t - i - 2) := by
  have hphase := inPhase_run h hq t
  unfold System.InPhase at hphase
  rw [hp.1, hp.2] at hphase
  obtain ⟨i, hlast, -, hdata⟩ := count_of_measuring h hq t
    ⟨hp.1, hphase.1.iEn, .inr (.inr (.inr hp.2))⟩
  exact ⟨i, (hdata hp.2).1, hlast, (hdata hp.2).2⟩

end Run

/-! ### One measurement -/

/-- The program before the setup.  The timer has timed out before. -/
def beforeSetup : System where
  device :=
    { timer := { Timer.Entity.reset with timeoutOccurred := true }
      counter := ⟨7, false, false, true, false, false, 0⟩ }
  main := .clearControl
  isr := none

/-- The interrupt comes just after the setup, and nothing pauses. -/
def interruptOnce (t : ℕ) : Schedule Lines :=
  ⟨if t = 7 then .interrupt else .go, ⟨7, false, true, 0⟩, ⟨0, false, false, 0, false⟩⟩

/-- The setup is not made twice. -/
lemma inSetup_next {s : System} (y : Schedule Lines) (hs : s.main.inSetup = false) :
    (s.next y).main.inSetup = false := by
  have hmain : ∀ w, (s.main.next w).inSetup = false := fun w => by
    cases hpc : s.main with
    | holdPoll =>
      by_cases hw : w = 0
      · rw [MainPc.next, if_pos hw]
        rfl
      · rw [MainPc.next, if_neg hw]
        rfl
    | poll | read | print | stop | resetCount | rearm => rfl
    | clearControl | continuousMode | periodL | periodH | setupReset | enableInterrupt
    | startTimer => simp [hpc, MainPc.inSetup] at hs
  unfold System.next
  obtain ⟨-, -, h⟩ | ⟨-, -, h⟩ | ⟨pc, -, -, h⟩ | ⟨-, -, -, -, h⟩ := State.step_cases code device s y
  · rwa [h]
  · rw [h]
    exact hmain _
  · rwa [h]
  · rwa [h]

/-- The interrupt service routine begins after the setup. -/
lemma quietSetup_interruptOnce : QuietSetup beforeSetup interruptOnce := by
  have hout : ∀ t, 7 ≤ t → (run System.next beforeSetup interruptOnce t).main.inSetup = false := by
    intro t ht
    induction t, ht using Nat.le_induction with
    | base => decide
    | succ t _ ih => exact inSetup_next _ ih
  intro t hin
  rcases Nat.lt_or_ge t 7 with ht | ht
  · interval_cases t <;> decide
  · exact absurd ((hout t ht).symm.trans hin) Bool.false_ne_true

/-- The first output of that run. -/
theorem recovery_eq_interruptOnce : ∃ i, i + 2 ≤ 16 ∧ LastStart beforeSetup interruptOnce i 16 ∧
    (run System.next beforeSetup interruptOnce 16).recovery = BitVec.ofNat 32 (16 - i - 2) :=
  recovery_eq ⟨rfl, rfl, rfl⟩ quietSetup_interruptOnce ⟨by decide, by decide⟩

end CyclonRtes.Timer.Recovery
