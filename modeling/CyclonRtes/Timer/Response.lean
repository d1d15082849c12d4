import Mathlib.Tactic.IntervalCases
import CyclonRtes.Interrupts.Processor
import CyclonRtes.Synchronous.Trace
import CyclonRtes.Timer.Entity

/-!
# Measuring the response time

`setup_response_timer`, `response_isr` and `measure_response_time` of `interrupts_measurment.c`.
The main program sets the timer up and then calls `measure_response_time` over and over; the timer
interrupts it, and the interrupt service routine takes a snapshot of the timer.
-/

namespace CyclonRtes.Timer.Response

open Synchronous Interrupts

/-! ## The program -/

/-- The next step of the main program: `setup_response_timer`, and then the calls of
`measure_response_time`. -/
inductive MainPc where
  /-- `flag = 0` in the setup. -/
  | resetFlag
  | clearControl | continuousMode | periodL | periodH | enableInterrupt | startTimer
  /-- `if (flag)`. -/
  | poll
  | print
  /-- `flag = 0` after the output. -/
  | clearFlag
  | rearm
  deriving DecidableEq, Repr

/-- The next step of `response_isr`.  The reads have a second cycle. -/
inductive IsrPc where
  | snapshot | readSnapl | holdSnapl | readSnaph | holdSnaph | clearControl | clearStatus | setFlag
  deriving DecidableEq, Repr

/-- The main program and the global variables. -/
structure Main where
  pc : MainPc
  flag : Bool
  snapl : Word
  snaph : Word
  deriving DecidableEq, Repr

/-- `ARBITVAL`. -/
def arbitval : BitVec 16 := 0xFFFF

/-- The setup has been completed. -/
def MainPc.setUp : MainPc → Bool
  | .poll | .print | .clearFlag | .rearm => true
  | _ => false

/-- The timer access of a step of the main program. -/
def MainPc.access : MainPc → Option Port
  | .clearControl => some (.iowr 1 0)
  | .continuousMode => some (.iowr 1 2)
  | .periodL => some (.iowr 2 0xFFFF)
  | .periodH => some (.iowr 3 0x00FF)
  | .enableInterrupt => some (.iowr 1 3)
  | .startTimer | .rearm => some (.iowr 1 7)
  | .resetFlag | .poll | .print | .clearFlag => none

/-- The timer access of a step of `response_isr`. -/
def IsrPc.access : IsrPc → Option Port
  | .snapshot => some (.iowr 4 arbitval)
  | .readSnapl | .holdSnapl => some (.iord 4)
  | .readSnaph | .holdSnaph => some (.iord 5)
  | .clearControl => some (.iowr 1 0)
  | .clearStatus => some (.iowr 0 0)
  | .setFlag => none

/-- The main program after its step. -/
def Main.next (m : Main) : Main :=
  match m.pc with
  | .resetFlag => { m with pc := .clearControl, flag := false }
  | .clearControl => { m with pc := .continuousMode }
  | .continuousMode => { m with pc := .periodL }
  | .periodL => { m with pc := .periodH }
  | .periodH => { m with pc := .enableInterrupt }
  | .enableInterrupt => { m with pc := .startTimer }
  | .startTimer => { m with pc := .poll }
  | .poll => if m.flag then { m with pc := .print } else m
  | .print => { m with pc := .clearFlag }
  | .clearFlag => { m with pc := .rearm, flag := false }
  | .rearm => { m with pc := .poll }

/-- `response_isr` after its step.  The processor samples the read data at the end of the second
cycle of a read. -/
def IsrPc.next (readdata : BitVec 16) (pc : IsrPc) (m : Main) : Option IsrPc × Main :=
  match pc with
  | .snapshot => (some .readSnapl, m)
  | .readSnapl => (some .holdSnapl, m)
  | .holdSnapl => (some .readSnaph, { m with snapl := readdata.setWidth 32 })
  | .readSnaph => (some .holdSnaph, m)
  | .holdSnaph => (some .clearControl, { m with snaph := readdata.setWidth 32 })
  | .clearControl => (some .clearStatus, m)
  | .clearStatus => (some .setFlag, m)
  | .setFlag => (none, { m with flag := true })

/-- The program with its interrupt service routine. -/
def code : Code Main IsrPc Port (BitVec 16) where
  mainAccess m := m.pc.access
  mainHolds _ := false
  mainStep _ m := m.next
  entry := .snapshot
  isrAccess := IsrPc.access
  isrHolds pc := pc == .holdSnapl || pc == .holdSnaph
  isrStep := IsrPc.next

/-- The timer; `idle` stands on its lines when it is not selected. -/
def device : Device Entity Port Port (BitVec 16) where
  step e idle access := e.step ⟨true, access.getD idle.deselect⟩
  view e := e.readdata
  irq := Entity.irq

/-- The processor and the timer. -/
abbrev System := State Main IsrPc Entity

namespace System

/-- One clock cycle. -/
def next (s : System) (x : Schedule Port) : System := s.step code device x

/-- The interrupt line. -/
def irq (s : System) : Bool := s.device.irq

/-- The interrupt service routine takes the snapshot in this cycle. -/
def snaps (s : System) (x : Schedule Port) : Prop := s.move code device x = .isr .snapshot

instance (s : System) (x : Schedule Port) : Decidable (s.snaps x) :=
  inferInstanceAs (Decidable (_ = _))

/-- The main program prints in this cycle. -/
def prints (s : System) (x : Schedule Port) : Prop :=
  s.move code device x = .main ∧ s.main.pc = .print

instance (s : System) (x : Schedule Port) : Decidable (s.prints x) :=
  inferInstanceAs (Decidable (_ ∧ _))

/-- The value in `alt_printf("response time = %x \n", 0xffff-snapl+1)`. -/
def response (s : System) : Word := 0xffff - s.main.snapl + 1

end System

/-! ## The timer in the program -/

/-- The timer runs and may interrupt, or the interrupt is off; then the timer stops at zero. -/
def Mode (e : Entity) (isr : Option IsrPc) : Prop :=
  e.controlRegister = 7 ∧ e.counterIsRunning = true ∨
    e.controlRegister = 0 ∧
      (isr ≠ some .clearStatus → e.timeoutOccurred = true → e.counterIsRunning = false)

/-- What is known of the timer when the main program is at `pc` and the interrupt service routine at
`isr`. -/
def TimerInv (pc : MainPc) (isr : Option IsrPc) (e : Entity) : Prop :=
  match pc with
  | .resetFlag | .clearControl | .continuousMode | .periodL => True
  | .periodH => e.periodLRegister = 0xFFFF
  | .enableInterrupt => e.periodLRegister = 0xFFFF ∧ e.periodHRegister = 0x00FF ∧
      (e.forceReload = true ∨
        e.forceReload = false ∧ e.counterIsRunning = false ∧ e.internalCounter = period)
  | .startTimer => e.Loaded ∧ e.counterIsRunning = false
  | .poll | .print | .clearFlag | .rearm => e.Loaded ∧ Mode e isr

section Invariant

variable {e : Entity} {p : Port} {pc : MainPc} {isr isr' : Option IsrPc}

/-- A loaded timer that does not run is not started by itself. -/
lemma not_running_step (hs : p.startStrobe = false) (hr : e.counterIsRunning = false) :
    (e.step ⟨true, p⟩).counterIsRunning = false := by
  simp [Entity.step, hs, hr]

/-- After a period register has been written, the timer is stopped and loaded. -/
lemma loaded_of_forceReload (hp : p.Keeps) (hs : p.startStrobe = false)
    (hl : e.periodLRegister = 0xFFFF) (hh : e.periodHRegister = 0x00FF)
    (h : e.forceReload = true ∨
      e.forceReload = false ∧ e.counterIsRunning = false ∧ e.internalCounter = period) :
    (e.step ⟨true, p⟩).Loaded ∧ (e.step ⟨true, p⟩).counterIsRunning = false := by
  rcases h with hf | ⟨hf, hr, hc⟩
  · have hstop : (e.step ⟨true, p⟩).counterIsRunning = false := by
      simp [Entity.step, Entity.doStopCounter, hs, hf]
    refine ⟨⟨?_, ?_, ?_, fun _ => ?_⟩, hstop⟩
    · simp [Entity.step, hp.1, hl]
    · simp [Entity.step, hp.2.1, hh]
    · simp [Entity.step, hp.1, hp.2.1]
    · simp [Entity.step, hf, Entity.counterLoadValue, hl, hh, period]
  · have hloaded : e.Loaded := ⟨hl, hh, hf, fun _ => hc⟩
    exact ⟨hloaded.step hp, not_running_step hs hr⟩

/-- As long as the main program does not use the timer, what is known of it stays true. -/
lemma TimerInv.step (h : TimerInv pc isr e) (hp : p.Keeps) (hs : p.startStrobe = false)
    (hmode : e.Loaded → Mode e isr → Mode (e.step ⟨true, p⟩) isr') :
    TimerInv pc isr' (e.step ⟨true, p⟩) := by
  have hperiodL : (e.step ⟨true, p⟩).periodLRegister = e.periodLRegister := by
    simp [Entity.step, hp.1]
  cases pc with
  | resetFlag | clearControl | continuousMode | periodL => trivial
  | periodH => exact hperiodL.trans h
  | enableInterrupt =>
    obtain ⟨hl, hh, hf⟩ := h
    obtain ⟨hloaded, hr⟩ := loaded_of_forceReload hp hs hl hh hf
    exact ⟨hloaded.periodL, hloaded.periodH, .inr ⟨hloaded.forceReload, hr, hloaded.atRest hr⟩⟩
  | startTimer => exact ⟨h.1.step hp, not_running_step hs h.2⟩
  | poll | print | clearFlag | rearm => exact ⟨h.1.step hp, hmode h.1 h.2⟩

/-- An access that does not write the control register keeps the mode. -/
lemma Mode.step (hm : Mode e isr) (hl : e.Loaded) (hp : p.Keeps)
    (hc : p.controlWrStrobe = false)
    (hisr : isr' ≠ some .clearStatus → isr ≠ some .clearStatus) :
    Mode (e.step ⟨true, p⟩) isr' := by
  have hcontrol : (e.step ⟨true, p⟩).controlRegister = e.controlRegister := control_of_not_writes hc
  have hs : p.startStrobe = false := by simp [Port.startStrobe, hc]
  rcases hm with ⟨h7, hr⟩ | ⟨h0, hto⟩
  · refine .inl ⟨hcontrol.trans h7, hl.running_step hp ?_ hr⟩
    simp [Entity.controlContinuous, h7]
  · refine .inr ⟨hcontrol.trans h0, fun hne hto' => stopped_of_timeout hs ?_ hto' (hto (hisr hne))⟩
    simp [Entity.controlContinuous, h0]

/-- A cycle in which nothing is written to the timer. -/
lemma TimerInv.passive (h : TimerInv pc isr e) (hp : ∀ a, p.strobe a = false)
    (hisr : isr' ≠ some .clearStatus → isr ≠ some .clearStatus) :
    TimerInv pc isr' (e.step ⟨true, p⟩) :=
  h.step (Port.keeps_of_passive hp) (by simp [Port.startStrobe, Port.controlWrStrobe, hp])
    fun hl hm => hm.step hl (Port.keeps_of_passive hp) (hp 1) hisr

/-- A step of the interrupt service routine. -/
lemma TimerInv.isrStep {ipc : IsrPc} (h : TimerInv pc (some ipc) e) (idle : Port)
    (readdata : BitVec 16) (m : Main) :
    TimerInv pc (ipc.next readdata m).1 (e.step ⟨true, ipc.access.getD idle.deselect⟩) := by
  cases ipc with
  | setFlag => exact h.passive (Port.strobe_deselect idle) (by simp)
  | readSnapl | holdSnapl => exact h.passive (Port.strobe_iord 4) (by simp)
  | readSnaph | holdSnaph => exact h.passive (Port.strobe_iord 5) (by simp)
  | snapshot =>
    exact h.step (p := .iowr 4 arbitval) (by decide) rfl fun hl hm =>
      hm.step hl (by decide) rfl (by simp)
  | clearControl =>
    exact h.step (p := .iowr 1 0) (by decide) rfl fun hl hm =>
      .inr ⟨control_of_writes 0, fun hne => absurd rfl hne⟩
  | clearStatus =>
    refine h.step (p := .iowr 0 0) (by decide) rfl fun hl hm => ?_
    have hto : (e.step ⟨true, .iowr 0 0⟩).timeoutOccurred = false := by
      simp [Entity.step, Port.statusWrStrobe]
    rcases hm.step hl (p := .iowr 0 0) (by decide) rfl id with h7 | ⟨h0, -⟩
    · exact .inl h7
    · exact .inr ⟨h0, fun _ hto' => absurd (hto.symm.trans hto') Bool.false_ne_true⟩

/-- Starting the timer enables it. -/
lemma mode_of_start : Mode (e.step ⟨true, .iowr 1 7⟩) isr :=
  .inl ⟨control_of_writes 7, running_of_start rfl⟩

/-- A step of the main program. -/
lemma TimerInv.mainStep {m : Main} (h : TimerInv m.pc none e) (idle : Port) :
    TimerInv m.next.pc none (e.step ⟨true, m.pc.access.getD idle.deselect⟩) := by
  obtain ⟨pc, flag, snapl, snaph⟩ := m
  cases pc with
  | resetFlag | clearControl | continuousMode => trivial
  | periodL =>
    change (e.step ⟨true, .iowr 2 0xFFFF⟩).periodLRegister = 0xFFFF
    simp [Entity.step, Port.periodLWrStrobe]
  | periodH =>
    have hl : e.periodLRegister = 0xFFFF := h
    refine ⟨?_, ?_, .inl ?_⟩
    · change (e.step ⟨true, .iowr 3 0x00FF⟩).periodLRegister = 0xFFFF
      simp [Entity.step, Port.periodLWrStrobe, hl]
    · change (e.step ⟨true, .iowr 3 0x00FF⟩).periodHRegister = 0x00FF
      simp [Entity.step, Port.periodHWrStrobe]
    · change (e.step ⟨true, .iowr 3 0x00FF⟩).forceReload = true
      simp [Entity.step, Port.periodHWrStrobe]
  | enableInterrupt =>
    exact loaded_of_forceReload (p := .iowr 1 3) (by decide) rfl h.1 h.2.1 h.2.2
  | startTimer => exact ⟨h.1.step (p := .iowr 1 7) (by decide), mode_of_start⟩
  | poll =>
    cases flag <;> exact h.passive (Port.strobe_deselect idle) id
  | print | clearFlag => exact h.passive (Port.strobe_deselect idle) id
  | rearm => exact ⟨h.1.step (p := .iowr 1 7) (by decide), mode_of_start⟩

end Invariant

section Run

variable {s₀ : System} {x : ℕ → Schedule Port}

/-- The program has just begun with the setup. -/
structure Begins (s : System) : Prop where
  main : s.main.pc = .resetFlag
  isr : s.isr = none

/-- What is known of the timer is true in every cycle. -/
lemma timerInv_run (h : Begins s₀) (t : ℕ) :
    TimerInv (run System.next s₀ x t).main.pc (run System.next s₀ x t).isr
      (run System.next s₀ x t).device := by
  refine run_invariant_of_moves (P := fun s : System => TimerInv s.main.pc s.isr s.device)
    ?_ ?_ ?_ ?_ ?_ t
  · rw [h.main]
    trivial
  · intro s idle hs _
    exact hs.passive (Port.strobe_deselect idle) id
  · intro s idle hs hisr
    rw [hisr] at hs
    exact hs.mainStep idle
  · intro s idle pc hs hisr
    rw [hisr] at hs
    have hpc : (pc.next s.device.readdata s.main).2.pc = s.main.pc := by cases pc <;> rfl
    change TimerInv (pc.next s.device.readdata s.main).2.pc _ _
    rw [hpc]
    exact hs.isrStep idle s.device.readdata s.main
  · intro s idle hs hisr _ _
    exact hs.passive (Port.strobe_deselect idle) (by simp [hisr])

/-- After the setup the timer is loaded and in one of its modes. -/
lemma TimerInv.ready {pc : MainPc} {isr : Option IsrPc} {e : Entity} (h : TimerInv pc isr e)
    (hs : pc.setUp = true) : e.Loaded ∧ Mode e isr := by
  cases pc <;> simp_all [MainPc.setUp, TimerInv]

/-- The calls of `measure_response_time` do not set up the timer again. -/
lemma setUp_mainNext {m : Main} (h : m.pc.setUp = true) : m.next.pc.setUp = true := by
  obtain ⟨pc, flag, snapl, snaph⟩ := m
  cases pc <;> cases flag <;> simp_all [MainPc.setUp, Main.next]

/-- The interrupt service routine leaves the main program where it is. -/
lemma pc_isrNext (pc : IsrPc) (readdata : BitVec 16) (m : Main) :
    (pc.next readdata m).2.pc = m.pc := by
  cases pc <;> rfl

/-- The setup stays completed. -/
lemma setUp_next {s : System} (y : Schedule Port) (hs : s.main.pc.setUp = true) :
    (s.next y).main.pc.setUp = true := by
  unfold System.next
  obtain ⟨-, -, h⟩ | ⟨-, -, h⟩ | ⟨pc, -, -, h⟩ | ⟨-, -, -, -, h⟩ := State.step_cases code device s y
  · rwa [h]
  · rw [h]
    exact setUp_mainNext hs
  · rw [h]
    exact (congrArg MainPc.setUp (pc_isrNext pc _ _)).trans hs
  · rwa [h]

/-- The setup stays completed for ever. -/
lemma setUp_run {r u : ℕ} (hru : r ≤ u) (hr : (run System.next s₀ x r).main.pc.setUp = true) :
    (run System.next s₀ x u).main.pc.setUp = true := by
  induction u, hru using Nat.le_induction with
  | base => exact hr
  | succ u _ ih => exact setUp_next _ ih

/-- While the interrupt service routine clears the status, no interrupt rises. -/
lemma irq_next_of_clearStatus {s : System} {y : Schedule Port} (hisr : s.isr = some .clearStatus)
    (hcontrol : s.device.controlRegister = 0) : (s.next y).irq = false := by
  unfold System.irq System.next
  obtain ⟨-, -, h⟩ | ⟨-, hnone, -⟩ | ⟨pc, -, hpc, h⟩ | ⟨-, hnone, -⟩ :=
    State.step_cases code device s y
  · rw [h]
    simp [device, Entity.irq, Entity.controlInterruptEnable, Entity.step, Port.controlWrStrobe,
      hcontrol]
  · simp [hisr] at hnone
  · obtain rfl := Option.some.inj (hisr.symm.trans hpc)
    rw [h]
    simp [device, code, IsrPc.access, Entity.irq, Entity.step, Port.statusWrStrobe]
  · simp [hisr] at hnone

/-- When the interrupt line rises the counter has just been loaded. -/
lemma counter_of_rise {s : System} {y : Schedule Port} (hinv : TimerInv s.main.pc s.isr s.device)
    (hs : s.main.pc.setUp = true) (hlow : s.irq = false) (hhigh : (s.next y).irq = true) :
    (s.next y).device.internalCounter = period := by
  obtain ⟨hloaded, hmode⟩ := hinv.ready hs
  have hto : (s.next y).device.timeoutOccurred = true := (Bool.and_eq_true_iff.mp hhigh).1
  have hdevice : ∃ p : Port, (s.next y).device = s.device.step ⟨true, p⟩ :=
    ⟨_, State.device_step⟩
  obtain ⟨p, hp⟩ := hdevice
  rw [hp] at hto ⊢
  by_cases hz : s.device.counterIsZero = true
  · exact hloaded.counter_of_zero hz
  · have hold : s.device.timeoutOccurred = true := by
      simp only [Entity.step, Entity.timeoutEvent, hz] at hto
      simp_all
    -- the flag was set before, so the interrupt was off, and the timer has stopped meanwhile
    rcases hmode with ⟨h7, -⟩ | ⟨h0, hrest⟩
    · simp [System.irq, Entity.irq, Entity.controlInterruptEnable, h7, hold] at hlow
    · refine hloaded.counter_of_rest (hrest (fun hisr => ?_) hold)
      rw [irq_next_of_clearStatus hisr h0] at hhigh
      exact Bool.false_ne_true hhigh

/-- As long as the interrupt line is high the counter counts down. -/
lemma counter_of_high {s : System} {y : Schedule Port} {n : ℕ}
    (hinv : TimerInv s.main.pc s.isr s.device) (hs : s.main.pc.setUp = true)
    (hhigh : s.irq = true) (hn : s.device.internalCounter = countdown n) :
    (s.next y).device.internalCounter = countdown (n + 1) := by
  obtain ⟨hloaded, ⟨-, hrun⟩ | ⟨h0, -⟩⟩ := hinv.ready hs
  · rw [System.next, State.device_step]
    exact hloaded.counter_of_running hrun hn
  · simp [System.irq, Entity.irq, Entity.controlInterruptEnable, h0] at hhigh

/-- The counter tells how long the interrupt line has been high. -/
lemma counter_since_rise {r u : ℕ} (h : Begins s₀)
    (hr : (run System.next s₀ x r).main.pc.setUp = true)
    (hrise : Rises (fun v => (run System.next s₀ x v).irq) r) (hru : r < u)
    (hhigh : ∀ v, r < v → v < u → (run System.next s₀ x v).irq = true) :
    (run System.next s₀ x u).device.internalCounter = countdown (u - r - 1) := by
  induction u, hru using Nat.le_induction with
  | base =>
    rw [Nat.sub_sub, Nat.sub_self]
    exact counter_of_rise (timerInv_run h r) hr hrise.1 hrise.2
  | succ u hru ih =>
    have hcount := ih fun v hrv hvu => hhigh v hrv (Nat.lt_succ_of_lt hvu)
    rw [show u + 1 - r - 1 = u - r - 1 + 1 by omega]
    exact counter_of_high (timerInv_run h u) (setUp_run (Nat.le_of_succ_le hru) hr)
      (hhigh u hru (Nat.lt_succ_self u)) hcount

end Run

/-! ## The snapshot on its way to the output -/

/-- The lower half `c` of a snapshot is on its way to `snapl` or has arrived there. -/
def Carries (c : BitVec 16) (s : System) : Prop :=
  match s.isr with
  | some .readSnapl => s.device.counterSnapshot.extractLsb' 0 16 = c
  | some .holdSnapl => s.device.readdata = c
  | _ => s.main.snapl = c.setWidth 32

section Snapshot

variable {s : System} {y : Schedule Port} {c : BitVec 16}

/-- The snapshot register holds the counter of the cycle of the snapshot. -/
lemma carries_of_snaps (h : s.snaps y) :
    Carries (s.device.internalCounter.extractLsb' 0 16) (s.next y) := by
  unfold System.snaps at h
  unfold System.next
  obtain ⟨hm, -⟩ | ⟨hm, -⟩ | ⟨pc, hm, -, hstep⟩ | ⟨hm, -⟩ := State.step_cases code device s y
  all_goals rw [h] at hm
  · simp at hm
  · simp at hm
  · obtain rfl := Move.isr.inj hm
    rw [hstep]
    simp [Carries, code, IsrPc.next, device, IsrPc.access, Entity.step, Port.snapStrobe]
  · simp at hm

/-- Without another snapshot the value goes on its way. -/
lemma Carries.next (h : Carries c s) (hno : ¬ s.snaps y) : Carries c (s.next y) := by
  unfold System.snaps at hno
  unfold System.next
  obtain ⟨-, hholds, hstep⟩ | ⟨-, hnone, hstep⟩ | ⟨pc, hm, hpc, hstep⟩ | ⟨-, hnone, -, -, hstep⟩ :=
    State.step_cases code device s y
  · rw [hstep]
    unfold Carries at h ⊢
    cases hisr : s.isr with
    | none => simpa [hisr] using h
    | some pc =>
      cases pc <;>
        simp_all [State.holds, code, device, Entity.step, Port.snapStrobe]
  · rw [hstep]
    have hsnapl : s.main.next.snapl = s.main.snapl := by
      unfold Main.next
      split <;> first | rfl | (split <;> rfl)
    simp only [Carries, hnone] at h ⊢
    exact hsnapl.trans h
  · rw [hstep]
    simp only [Carries, hpc] at h ⊢
    cases pc with
    | snapshot => exact absurd hm hno
    | readSnapl =>
      simpa [code, IsrPc.next, device, IsrPc.access, Entity.step, Entity.readMuxOut, Port.iord]
        using h
    | holdSnapl => simpa [code, IsrPc.next, device] using congrArg (BitVec.setWidth 32) h
    | readSnaph | holdSnaph | clearControl | clearStatus | setFlag => exact h
  · rw [hstep]
    simp only [Carries, hnone] at h ⊢
    exact h

/-- What is printed. -/
lemma response_of_carries (h : Carries c s) (hp : s.prints y) :
    s.response.toNat = 0xFFFF - c.toNat + 1 := by
  have hnone : s.isr = none := State.isr_of_move_main hp.1
  simp only [Carries, hnone] at h
  have hc := c.isLt
  have hsnapl : s.main.snapl.toNat = c.toNat := by
    rw [h, BitVec.toNat_setWidth, Nat.mod_eq_of_lt (by omega)]
  have hle : s.main.snapl ≤ 0xffff := by
    rw [BitVec.le_def, hsnapl]
    exact Nat.le_of_lt_succ hc
  have hsub : (0xffff - s.main.snapl : Word).toNat = 0xFFFF - c.toNat := by
    rw [BitVec.toNat_sub_of_le hle, hsnapl]
    rfl
  have hone : (1 : Word).toNat = 1 := rfl
  rw [System.response, BitVec.toNat_add, hsub, hone]
  exact Nat.mod_eq_of_lt (by omega)

end Snapshot

/-- The printed response time.  The interrupt line rises after cycle `r`, when the setup has been
completed; the interrupt service routine takes its snapshot in cycle `s`, while the line is still
high, and in cycle `t` the main program prints, without another snapshot in between.  Then it prints
the number of cycles from `r` to `s`, reduced to the range from 1 to `2 ^ 16`, whatever the timer
did before the setup and however long the processor paused. -/
theorem response_eq {s₀ : System} {x : ℕ → Schedule Port} {r s t : ℕ} (h : Begins s₀)
    (hr : (run System.next s₀ x r).main.pc.setUp = true)
    (hrise : Rises (fun v => (run System.next s₀ x v).irq) r)
    (hhigh : ∀ v, r < v → v ≤ s → (run System.next s₀ x v).irq = true) (hrs : r < s)
    (hsnap : (run System.next s₀ x s).snaps (x s)) (hst : s < t)
    (hno : ∀ v, s < v → v < t → ¬ (run System.next s₀ x v).snaps (x v))
    (hprint : (run System.next s₀ x t).prints (x t)) :
    (run System.next s₀ x t).response.toNat = (s - r - 1) % 2 ^ 16 + 1 := by
  have hcount := counter_since_rise h hr hrise hrs fun v hrv hvs => hhigh v hrv hvs.le
  have hcarries : ∀ u, s + 1 ≤ u → u ≤ t → Carries ((countdown (s - r - 1)).extractLsb' 0 16)
      (run System.next s₀ x u) := by
    intro u hsu
    induction u, hsu using Nat.le_induction with
    | base =>
      intro _
      rw [← hcount]
      exact carries_of_snaps hsnap
    | succ u hsu ih =>
      intro hut
      exact (ih (Nat.le_of_succ_le hut)).next (hno u hsu hut)
  have hlt : (s - r - 1) % 2 ^ 16 < 2 ^ 16 := Nat.mod_lt _ (by decide)
  rw [response_of_carries (hcarries t hst le_rfl) hprint, toNat_extractLsb'_countdown]
  omega

/-! ### One measurement -/

/-- The program before the setup, with the timer after a reset. -/
def beforeSetup : System := ⟨Entity.reset, ⟨.resetFlag, false, 0, 0⟩, none⟩

/-- Lines that select no register. -/
def idleLines : Port := ⟨7, false, true, 0⟩

/-- The program sets up the timer and waits. -/
def setupAndWait (t : ℕ) : Schedule Port := ⟨if t < 7 then .go else .pause, idleLines⟩

/-- The interrupt service routine begins in the second cycle, and the processor goes on without
pauses. -/
def answer : ℕ → Schedule Port
  | 0 => ⟨.pause, idleLines⟩
  | 1 => ⟨.interrupt, idleLines⟩
  | _ => ⟨.go, idleLines⟩

/-- The state of that run `n` cycles after the timer has been started. -/
def waiting (n : ℕ) : System where
  device :=
    { internalCounter := countdown n, forceReload := false, counterIsRunning := true,
      delayedCounterIsZero := false, timeoutOccurred := false, readdata := 0,
      periodLRegister := 0xFFFF, periodHRegister := 0x00FF, counterSnapshot := 0,
      controlRegister := 7 }
  main := ⟨.poll, false, 0, 0⟩
  isr := none

/-- The counter of the timer before it reaches zero. -/
lemma countdown_ne_zero {n : ℕ} (hn : n < 0xFFFFFF) : countdown n ≠ 0 := by
  intro h
  have := congrArg BitVec.toNat h
  simp only [countdown, BitVec.toNat_ofNat, BitVec.ofNat_eq_ofNat, Nat.zero_mod] at this
  omega

/-- One cycle of waiting. -/
lemma waiting_next {n : ℕ} (hn : n < 0xFFFFFF) :
    (waiting n).next ⟨.pause, idleLines⟩ = waiting (n + 1) := by
  have hne := countdown_ne_zero hn
  have hsucc := countdown_succ n
  rw [if_neg hne] at hsucc
  have hz : (waiting n).device.counterIsZero = false := by
    simpa [Entity.counterIsZero, waiting] using hne
  have hdevice : (waiting n).device.step ⟨true, idleLines⟩ = (waiting (n + 1)).device := by
    have hpassive : ∀ a, idleLines.strobe a = false := fun _ => rfl
    have hread : (waiting n).device.readMuxOut idleLines = 0 := by
      simp [Entity.readMuxOut, idleLines]
    unfold Entity.step Entity.doStopCounter Entity.timeoutEvent
    rw [if_pos rfl, hz, hread]
    simpa [waiting, hpassive, Port.startStrobe, Port.stopStrobe, Port.controlWrStrobe,
      Port.statusWrStrobe, Port.periodLWrStrobe, Port.periodHWrStrobe, Port.snapStrobe] using hsucc
  change State.mk ((waiting n).device.step ⟨true, idleLines⟩) _ _ = _
  rw [hdevice]
  rfl

/-- The timer counts down while the program waits. -/
lemma run_setupAndWait {n : ℕ} (hn : n < 0xFFFFFF) :
    run System.next beforeSetup setupAndWait (8 + n) = waiting (1 + n) := by
  induction n with
  | zero => decide
  | succ n ih =>
    have hturn : setupAndWait (8 + n) = ⟨.pause, idleLines⟩ := by
      simp [setupAndWait, show ¬ 8 + n < 7 by omega]
    rw [← Nat.add_assoc, run_succ, ih (by omega), hturn, ← Nat.add_assoc]
    exact waiting_next (by omega)

/-- The whole run: the interrupt line rises after cycle `0x1000006`. -/
def measurement : ℕ → Schedule Port := splice setupAndWait answer 0x1000006

/-- The state when the counter is zero, and the cycles after it. -/
lemma run_measurement (n : ℕ) : run System.next beforeSetup measurement (0x1000006 + n) =
    run System.next (waiting 0xFFFFFF) answer n := by
  have hzero : run System.next beforeSetup setupAndWait 0x1000006 = waiting 0xFFFFFF :=
    run_setupAndWait (n := 0xFFFFFE) (by decide)
  rw [measurement, run_splice, hzero]

/-- What happens in those cycles. -/
lemma measurement_add (n : ℕ) : measurement (0x1000006 + n) = answer n := splice_add _ _ _ _

/-- The interrupt service routine takes its snapshot two cycles later, and the main program prints
that. -/
theorem response_eq_measurement :
    (run System.next beforeSetup measurement 0x1000011).response.toNat = 2 := by
  have hwindow : ∀ v, 0x1000006 < v → ∃ n, v = 0x1000006 + n ∧ 0 < n := fun v hv =>
    ⟨v - 0x1000006, by omega, by omega⟩
  refine response_eq (r := 0x1000006) (s := 0x1000008) (t := 0x1000011) ⟨rfl, rfl⟩ ?_ ⟨?_, ?_⟩ ?_
    (by decide) ?_ (by decide) ?_ ?_
  · rw [run_measurement 0]
    rfl
  · exact (congrArg System.irq (run_measurement 0)).trans (by decide)
  · exact (congrArg System.irq (run_measurement 1)).trans (by decide)
  · intro v hv hv'
    obtain ⟨n, rfl, hn⟩ := hwindow v hv
    obtain rfl | rfl : n = 1 ∨ n = 2 := by omega
    all_goals
      rw [run_measurement]
      decide
  · rw [run_measurement 2, measurement_add 2]
    decide
  · intro v hv hv'
    obtain ⟨n, rfl, hn⟩ := hwindow v (by omega)
    rw [run_measurement, measurement_add]
    have hn3 : 3 ≤ n := by omega
    have hn10 : n < 11 := by omega
    interval_cases n <;> decide
  · rw [run_measurement 11, measurement_add 11]
    decide

end CyclonRtes.Timer.Response
