import CyclonRtes.Interrupts.Processor
import CyclonRtes.ParallelPort.Entity

/-!
# Measuring interrupt times at a pin

`measure_response_recovery_time_par_port` and `par_port_response_isr` of `interrupts_measurment.c`.
The main program makes all pins outputs, clears the data register, and then sets bit 2 over and
over, which requests an interrupt; the interrupt service routine clears the register.  Bit 2 is
visible at a pin, where the times are measured: the pulse that the main program begins is ended by
the interrupt service routine (`pulse_of_clears`).
-/

namespace CyclonRtes.ParallelPort.InterruptLoop

open Synchronous Interrupts

variable {N : ℕ}

/-! ## The program -/

/-- The next step of the main program: the setup, and then the loop. -/
inductive MainPc where
  | setDirection | clearPort
  /-- `while(1) IOWR_32DIRECT(PARALLEL_PORT_0_BASE,IREGPORT,0x04)`. -/
  | loop
  deriving DecidableEq, Repr

/-- The only step of `par_port_response_isr`. -/
inductive IsrPc where
  | clearPort
  deriving DecidableEq, Repr

/-- `IREGDIR`. -/
def iregdir : ℕ := 0

/-- `IREGPORT`. -/
def iregport : ℕ := 4 * 1

/-- `MODE_ALL_OUTPUT`. -/
def modeAllOutput : Word := 0xFFFFFFFF

/-- The access of a step of the main program. -/
def MainPc.access : MainPc → SlavePort
  | .setDirection => .iowr32Direct iregdir modeAllOutput
  | .clearPort => .iowr32Direct iregport 0x00
  | .loop => .iowr32Direct iregport 0x04

/-- The main program after its step. -/
def MainPc.next : MainPc → MainPc
  | .setDirection => .clearPort
  | .clearPort | .loop => .loop

/-- What stands on the lines of the port when it is not selected, and the levels that the outside
gives to the pins. -/
structure Lines (N : ℕ) where
  slave : SlavePort
  external : BitVec N
  deriving DecidableEq, Repr

/-- The program with its interrupt service routine. -/
def code : Code MainPc IsrPc SlavePort Unit where
  mainAccess pc := some pc.access
  mainHolds _ := false
  mainStep _ pc := pc.next
  entry := .clearPort
  isrAccess _ := some (.iowr32Direct iregport 0)
  isrHolds _ := false
  isrStep _ _ pc := (none, pc)

/-- The parallel port. -/
def device : Device (Entity N) SlavePort (Lines N) Unit where
  step e lines access := e.step ⟨true, access.getD lines.slave.deselect, lines.external⟩
  view _ := ()
  irq := ParallelPort.irq

/-- The processor and the parallel port. -/
abbrev System (N : ℕ) := State MainPc IsrPc (Entity N)

namespace System

/-- One clock cycle. -/
def next (s : System N) (x : Schedule (Lines N)) : System N := s.step code device x

/-- The interrupt line. -/
def irq (s : System N) : Bool := ParallelPort.irq s.device

/-- The interrupt service routine clears the data register in this cycle. -/
def clears (s : System N) (x : Schedule (Lines N)) : Prop :=
  s.move code device x = .isr .clearPort

instance (s : System N) (x : Schedule (Lines N)) : Decidable (s.clears x) :=
  inferInstanceAs (Decidable (_ = _))

/-- The main program writes to the port in this cycle, with its step `pc`. -/
def writes (s : System N) (x : Schedule (Lines N)) (pc : MainPc) : Prop :=
  s.move code device x = .main ∧ s.main = pc

end System

/-! ## One access -/

section Edge

variable {e : Entity N} {lines : Lines N}

/-- Without a write the interrupt line stays as it is. -/
lemma irq_idle : irq (device.step e lines none) = irq e := by
  simp [device, step_of_nReset, pRegWr, irq]

/-- Clearing the data register ends the interrupt. -/
lemma irq_clear : irq (device.step e lines (some (.iowr32Direct iregport 0))) = false := by
  simp [device, step_of_nReset, pRegWr, irq, SlavePort.iowr32Direct, SlavePort.writes, iregport]

variable (e lines) in
/-- Without a write the registers stay as they are. -/
lemma step_idle : (device.step e lines none).iRegDir = e.iRegDir ∧
    (device.step e lines none).iIRQEn = e.iIRQEn := by
  simp [device, step_of_nReset, pRegWr]

variable (e lines) in
/-- A write to the data register leaves direction and interrupt enable as they are. -/
lemma step_data (d : Word) :
    (device.step e lines (some (.iowr32Direct iregport d))).iRegDir = e.iRegDir ∧
      (device.step e lines (some (.iowr32Direct iregport d))).iIRQEn = e.iIRQEn := by
  simp [device, step_of_nReset, pRegWr, SlavePort.iowr32Direct, SlavePort.writes, iregport]

variable (e lines) in
/-- The first write makes all pins outputs. -/
lemma step_direction (hN : 2 < N) :
    (device.step e lines (some (.iowr32Direct iregdir modeAllOutput))).iRegDir.getLsbD 2 = true ∧
      (device.step e lines (some (.iowr32Direct iregdir modeAllOutput))).iIRQEn = e.iIRQEn := by
  simp [device, step_of_nReset, pRegWr, SlavePort.iowr32Direct, SlavePort.writes, iregdir,
    modeAllOutput, hN]

/-- A high interrupt line is visible at the pin. -/
lemma pPort_of_irq (h : irq e = true) : pPort e 2 = some true := by
  unfold irq at h
  simp_all [pPort]

/-- A low interrupt line is visible at the pin if interrupts are enabled and the pin is an
output. -/
lemma pPort_of_not_irq (h : irq e = false) (hen : e.iIRQEn = true)
    (hdir : e.iRegDir.getLsbD 2 = true) : pPort e 2 = some false := by
  unfold irq at h
  simp_all [pPort]

end Edge

/-! ## Runs -/

section Run

variable {s₀ : System N} {x : ℕ → Schedule (Lines N)} {t : ℕ}

/-- The program has just begun, and the port has been reset; `iIRQEn` has its initial value. -/
structure Begins (s : System N) : Prop where
  main : s.main = .setDirection
  isr : s.isr = none
  iRegDir : s.device.iRegDir = 0
  iIRQEn : s.device.iIRQEn = true

/-- While the interrupt service routine runs, the interrupt line is high. -/
lemma irq_of_isr (h : Begins s₀) (t : ℕ) (hisr : (run System.next s₀ x t).isr ≠ none) :
    (run System.next s₀ x t).irq = true := by
  refine run_invariant_of_moves (P := fun s : System N => s.isr ≠ none → s.irq = true)
    ?_ ?_ ?_ ?_ ?_ t hisr
  · exact fun hne => absurd h.isr hne
  · intro s lines hs _ hne
    exact irq_idle.trans (hs hne)
  · intro s lines _ _ hne
    exact absurd rfl hne
  · intro s lines pc _ _ hne
    exact absurd rfl hne
  · intro s lines _ _ _ hirq _
    exact irq_idle.trans hirq

/-- Only the main program raises the interrupt line, with its direction in the setup or with bit 2
in the loop. -/
lemma writes_of_rise {s : System N} {y : Schedule (Lines N)} (hlow : s.irq = false)
    (hhigh : (s.next y).irq = true) : s.writes y .setDirection ∨ s.writes y .loop := by
  unfold System.next at hhigh
  unfold System.writes
  obtain ⟨-, -, hs⟩ | ⟨hm, -, hs⟩ | ⟨pc, -, -, hs⟩ | ⟨-, -, -, -, hs⟩ :=
    State.step_cases code device s y
  · rw [hs] at hhigh
    exact absurd ((irq_idle.trans hlow).symm.trans hhigh) Bool.false_ne_true
  · rw [hs] at hhigh
    cases hmain : s.main with
    | setDirection => exact .inl ⟨hm, rfl⟩
    | loop => exact .inr ⟨hm, rfl⟩
    | clearPort =>
      have hclear : irq (device.step s.device y.env (some (.iowr32Direct iregport 0))) = true := by
        simpa [System.irq, code, hmain, MainPc.access] using hhigh
      exact absurd (irq_clear.symm.trans hclear) Bool.false_ne_true
  · rw [hs] at hhigh
    exact absurd (irq_clear.symm.trans hhigh) Bool.false_ne_true
  · rw [hs] at hhigh
    exact absurd ((irq_idle.trans hlow).symm.trans hhigh) Bool.false_ne_true

/-- The interrupt line is low in the beginning. -/
lemma irq_of_begins (h : Begins s₀) : s₀.irq = false := by
  simp [System.irq, ParallelPort.irq, h.iRegDir]

/-- When the interrupt line is high it has risen before, with a write of the main program. -/
lemma rise_of_high (h : Begins s₀) (t : ℕ) (ht : (run System.next s₀ x t).irq = true) :
    ∃ r < t, Rises (fun v => (run System.next s₀ x v).irq) r ∧
      (∀ v, r < v → v ≤ t → (run System.next s₀ x v).irq = true) ∧
      ((run System.next s₀ x r).writes (x r) .setDirection ∨
        (run System.next s₀ x r).writes (x r) .loop) := by
  induction t with
  | zero => exact absurd ((irq_of_begins h).symm.trans ht) Bool.false_ne_true
  | succ t ih =>
    cases hlow : (run System.next s₀ x t).irq with
    | false =>
      refine ⟨t, Nat.lt_succ_self t, ⟨hlow, ht⟩, fun v htv hvt => ?_, writes_of_rise hlow ht⟩
      obtain rfl : v = t + 1 := by omega
      exact ht
    | true =>
      obtain ⟨r, hrt, hrise, hhigh, hwrites⟩ := ih hlow
      refine ⟨r, Nat.lt_succ_of_lt hrt, hrise, fun v hrv hvt => ?_, hwrites⟩
      rcases Nat.le_succ_iff.mp hvt with hvt | rfl
      · exact hhigh v hrv hvt
      · exact ht

/-- Interrupts stay enabled, and after the setup pin 2 is an output. -/
lemma outputs_run (hN : 2 < N) (h : Begins s₀) (t : ℕ) :
    (run System.next s₀ x t).device.iIRQEn = true ∧
      ((run System.next s₀ x t).main ≠ .setDirection →
        (run System.next s₀ x t).device.iRegDir.getLsbD 2 = true) := by
  refine run_invariant_of_moves (P := fun s : System N => s.device.iIRQEn = true ∧
    (s.main ≠ .setDirection → s.device.iRegDir.getLsbD 2 = true)) ?_ ?_ ?_ ?_ ?_ t
  · exact ⟨h.iIRQEn, fun hne => absurd h.main hne⟩
  · intro s lines hs _
    obtain ⟨hdir, hen⟩ := step_idle s.device lines
    exact ⟨hen.trans hs.1, fun hne => (congrArg (·.getLsbD 2) hdir).trans (hs.2 hne)⟩
  · intro s lines hs _
    cases hmain : s.main with
    | setDirection =>
      obtain ⟨hdir, hen⟩ := step_direction s.device lines hN
      exact ⟨hen.trans hs.1, fun _ => hdir⟩
    | clearPort | loop =>
      obtain ⟨hdir, hen⟩ := step_data s.device lines _
      exact ⟨hen.trans hs.1, fun _ => (congrArg (·.getLsbD 2) hdir).trans (hs.2 (by simp [hmain]))⟩
  · intro s lines pc hs _
    obtain ⟨hdir, hen⟩ := step_data s.device lines 0
    exact ⟨hen.trans hs.1, fun hne => (congrArg (·.getLsbD 2) hdir).trans (hs.2 hne)⟩
  · intro s lines hs _ _ _
    obtain ⟨hdir, hen⟩ := step_idle s.device lines
    exact ⟨hen.trans hs.1, fun hne => (congrArg (·.getLsbD 2) hdir).trans (hs.2 hne)⟩

/-- A pulse at pin 2, from the write of the main program in cycle `r` to the write of the interrupt
service routine in cycle `t`. -/
structure Pulse (s₀ : System N) (x : ℕ → Schedule (Lines N)) (r t : ℕ) : Prop where
  lt : r < t
  /-- The setup makes the pin an output, or the loop sets bit 2 while the pin is low. -/
  begun : (run System.next s₀ x r).writes (x r) .setDirection ∨
    (run System.next s₀ x r).writes (x r) .loop ∧
      pPort (run System.next s₀ x r).device 2 = some false
  high : ∀ v, r < v → v ≤ t → pPort (run System.next s₀ x v).device 2 = some true ∧
    (run System.next s₀ x v).irq = true
  ended : pPort (run System.next s₀ x (t + 1)).device 2 = some false ∧
    (run System.next s₀ x (t + 1)).irq = false

/-- Whenever the interrupt service routine clears the data register, it ends a pulse at pin 2 that
the main program has begun; so every execution of the routine answers a request of its own, and the
width of the pulse is the time between the two writes. -/
theorem pulse_of_clears (h : Begins s₀) (hclear : (run System.next s₀ x t).clears (x t)) :
    ∃ r, Pulse s₀ x r t := by
  have hisr : (run System.next s₀ x t).isr = some .clearPort := State.isr_of_move_isr hclear
  have hirq := irq_of_isr (x := x) h t (by simp [hisr])
  obtain ⟨r, hrt, hrise, hhigh, hwrites⟩ := rise_of_high h t hirq
  have hstep : (run System.next s₀ x (t + 1)).device = device.step (run System.next s₀ x t).device
      (x t).env (some (.iowr32Direct iregport 0)) := by
    unfold System.clears at hclear
    rw [run_succ, System.next, State.device_step, State.access, hclear]
    rfl
  have hlow : (run System.next s₀ x (t + 1)).irq = false := by
    rw [System.irq, hstep]
    exact irq_clear
  have hdir : (run System.next s₀ x t).device.iRegDir.getLsbD 2 = true := by
    unfold System.irq irq at hirq
    simp_all
  have hN : 2 < N := BitVec.lt_of_getLsbD hdir
  have houtputs := outputs_run (x := x) hN h
  refine ⟨r, hrt, ?_, fun v hrv hvt => ⟨pPort_of_irq (hhigh v hrv hvt), hhigh v hrv hvt⟩, ?_, hlow⟩
  · refine hwrites.imp_right fun hw => ⟨hw, ?_⟩
    exact pPort_of_not_irq hrise.1 (houtputs r).1 ((houtputs r).2 (by simp [hw.2]))
  · refine pPort_of_not_irq hlow (houtputs (t + 1)).1 ?_
    rw [hstep, (step_data _ _ 0).1]
    exact hdir

end Run

/-! ### One interrupt -/

/-- The program before the setup; the data register of the port has some value. -/
def beforeSetup : System 32 := ⟨⟨0, 0xFFFF0000, true, 0⟩, .setDirection, none⟩

/-- The interrupt comes two cycles after the first request. -/
def interruptOnce (t : ℕ) : Schedule (Lines 32) :=
  ⟨if t = 3 then .pause else if t = 4 then .interrupt else .go, ⟨⟨1, false, true, 7, false⟩, 0⟩⟩

/-- It ends a pulse. -/
theorem pulse_of_clears_interruptOnce : ∃ r, Pulse beforeSetup interruptOnce r 5 :=
  pulse_of_clears ⟨rfl, rfl, rfl, rfl⟩ (by decide)

end CyclonRtes.ParallelPort.InterruptLoop
