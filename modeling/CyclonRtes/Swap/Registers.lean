import CyclonRtes.Swap.Job
import CyclonRtes.Synchronous.Register

/-!
# Reading the accelerator's registers

What a processor reads from the slave port, as `printRegisters` of `service.c` does, told from the
history of writes and resets.  The three parameter registers hold what was last written to them and
zero after a reset, whatever the machine is doing; the start register shows a start command in the
cycle after it and nothing later; the finish register shows the flag; the other addresses read as
zero.  The data stay on the lines until the next read (`registers_readBack`).
-/

namespace CyclonRtes.Swap

open Synchronous

/-- The registers that hold what is written to them. -/
inductive Parameter where
  | regAddStart | regLgt | resultRegAddStart
  deriving DecidableEq, Repr

namespace Parameter

/-- The address of a register. -/
def address : Parameter → BitVec 3
  | .regAddStart => 0b000
  | .regLgt => 0b001
  | .resultRegAddStart => 0b011

/-- The content of a register. -/
def value (r : SlaveRegisters) : Parameter → Word
  | .regAddStart => r.regAddStart
  | .regLgt => r.regLgt
  | .resultRegAddStart => r.resultRegAddStart

/-- What a cycle puts into a register. -/
def written (p : Parameter) (x : Inputs) : Option Word :=
  if x.nReset then if x.slave.writesTo p.address then some x.slave.writeData else none else some 0

end Parameter

/-- What a cycle puts into the start register. -/
def starting (x : Inputs) : Option Bool := some (x.nReset && startCommand x.slave)

section Edge

variable (v : Variant) (e : Entity) (x : Inputs)

/-- A parameter register after an edge. -/
lemma value_step (p : Parameter) :
    p.value (e.step v x).regs = (p.written x).getD (p.value e.regs) := by
  unfold Parameter.written
  cases hx : x.nReset with
  | false => rw [step_regs_of_reset hx]; cases p <;> rfl
  | true =>
    rw [step_regs hx, slaveWriteProcess, SlavePort.writesTo]
    cases hw : x.slave.writes with
    | false => cases p <;> rfl
    | true =>
      simp only [Bool.not_true, Bool.false_eq_true, if_false, if_true, Bool.true_and]
      cases p <;> split <;> simp_all [Parameter.value, Parameter.address]

/-- The start register after an edge. -/
lemma start_step : (e.step v x).regs.start = (starting x).getD e.regs.start := by
  unfold starting
  cases hx : x.nReset with
  | false => rw [step_regs_of_reset hx]; rfl
  | true => rw [step_regs hx, slaveWriteProcess_start]; rfl

end Edge

section Run

variable (v : Variant) (e : Entity) (i : ℕ → Inputs)

/-- The value of a parameter register in cycle `t`, from the history of the inputs. -/
def held (p : Parameter) (t : ℕ) : Word := (latest p.written i t).getD (p.value e.regs)

/-- What a read of address `a` finds in cycle `t`. -/
def contents (t : ℕ) (a : BitVec 3) : Word :=
  if (i t).nReset then
    match a with
    | 0b000#3 => held e i .regAddStart t
    | 0b001#3 => held e i .regLgt t
    | 0b010#3 => flagWord ((latest starting i t).getD e.regs.start)
    | 0b011#3 => held e i .resultRegAddStart t
    | 0b101#3 => flagWord (finishTrace v e i t)
    | _ => 0
  else 0

variable {v e i} {t u : ℕ} {a : BitVec 3}

/-- A read puts the contents of the register on the data lines. -/
lemma sReadData_of_readsFrom (hread : (i t).slave.readsFrom a = true) :
    (run (Entity.step v) e i (t + 1)).sReadData = contents v e i t a := by
  obtain ⟨hreads, rfl⟩ : (i t).slave.reads = true ∧ (i t).slave.address = a := by
    simpa [SlavePort.readsFrom] using hread
  have hparameter : ∀ p : Parameter, p.value (run (Entity.step v) e i t).regs = held e i p t :=
    fun p => register_run (f := fun e : Entity => p.value e.regs) (fun e x => value_step v e x p) t
  have hstart : (run (Entity.step v) e i t).regs.start =
      (latest starting i t).getD e.regs.start :=
    register_run (f := fun e : Entity => e.regs.start) (start_step v) t
  have hadd := hparameter .regAddStart
  have hlgt := hparameter .regLgt
  have hresult := hparameter .resultRegAddStart
  simp only [Parameter.value] at hadd hlgt hresult
  rw [run_succ]
  unfold contents
  cases hx : (i t).nReset with
  | true =>
    rw [step_sReadData hx, slaveReadProcess, if_pos hreads, hadd, hlgt, hresult, hstart, if_pos rfl]
    rfl
  | false =>
    simp only [Entity.step, Entity.settle, slaveReadProcess, hx, hreads, if_true,
      Bool.false_eq_true, if_false, SlaveRegisters.reset, Master.reset]
    split <;> rfl

/-- Without a read the data lines keep their value. -/
lemma sReadData_kept (h : (i t).slave.reads = false) :
    (run (Entity.step v) e i (t + 1)).sReadData = (run (Entity.step v) e i t).sReadData := by
  rw [run_succ]
  cases hx : (i t).nReset <;> simp [Entity.step, Entity.settle, slaveReadProcess, h, hx]

/-- From the cycle after a read up to the next read, the data lines show what the register held in
the cycle of the read, in every run from every state and with resets at any time. -/
theorem registers_readBack (hread : (i t).slave.readsFrom a = true) (htu : t < u)
    (hquiet : ∀ w, t < w → w < u → (i w).slave.reads = false) :
    (run (Entity.step v) e i u).sReadData = contents v e i t a := by
  rw [← sReadData_of_readsFrom hread]
  exact run_kept htu fun w htw hwu => sReadData_kept (hquiet w htw hwu)

/-- The length register is written, the machine is started, and the register is read in cycle 4 and
looked at in cycle 6. -/
theorem registers_readBack_length :
    let i : ℕ → Inputs := fun t =>
      { nReset := true
        slave := match t with
          | 1 => .iowr32Direct 4 7
          | 2 => .iowr32Direct 8 1
          | 4 => .iord32Direct 4
          | _ => (SlavePort.iowr32Direct 4 9).deselect
        mWaitRequest := true
        mReadData := 0 }
    (run (Entity.step customInstruction) Entity.zero i 6).sReadData = 7 := by
  intro i
  have h := registers_readBack (v := customInstruction) (e := Entity.zero) (i := i) (t := 4)
    (u := 6) (a := 0b001) rfl (by decide) fun w hw hu => by
      obtain rfl : w = 5 := by omega
      rfl
  rw [h]
  decide

end Run

end CyclonRtes.Swap
