import CyclonRtes.Swap.Service

/-!
# Reprogramming during a job

In `LOAD_PARAMETERS` the machine copies the programming registers into counters of its own, so that
a job is not disturbed when the registers change while it runs.  This is a statement about two runs:
from a common state in `LOAD_PARAMETERS`, two runs with the same bus inputs and any slave accesses
have the same master registers until `finish` is set again (`job_isolated`).
-/

namespace CyclonRtes.Swap

open Synchronous

section Step

variable {v : Variant} {m : Master} {r r' : SlaveRegisters} {w : Bool} {d : Word}

/-- Only `IDLE` and `LOAD_PARAMETERS` look at the slave registers. -/
lemma fsm_regs_irrelevant (hidle : m.state ≠ .idle) (hload : m.state ≠ .loadParameters) :
    transitionMasterFSM v true r w d m = transitionMasterFSM v true r' w d m := by
  cases hm : m.state <;> simp_all [transitionMasterFSM]

/-- A busy machine does not enter `LOAD_PARAMETERS`, and it becomes idle only by finishing. -/
lemma fsm_of_busy (hidle : m.state ≠ .idle) :
    (transitionMasterFSM v true r w d m).state ≠ .loadParameters ∧
      ((transitionMasterFSM v true r w d m).state = .idle →
        (transitionMasterFSM v true r w d m).finish = true) := by
  cases hm : m.state with
  | idle => exact absurd hm hidle
  | loadParameters => simp [fsm_loadParameters hm]
  | rdAcc => simp [fsm_rdAcc hm]
  | waitRd => cases w <;> simp [fsm_waitRd hm, fsm_waitRd_stall hm, hm]
  | calculate => simp [fsm_calculate hm]
  | sendWriteRequest => simp [fsm_sendWriteRequest hm]
  | waitForWrite =>
    cases w with
    | true => simp [fsm_waitForWrite_stall hm, hm]
    | false =>
      by_cases hc : m.cntLgt > 0
      · simp [fsm_waitForWrite_next hm hc]
      · simp [fsm_waitForWrite_last hm hc]

end Step

/-- The two-run invariant: the masters agree, the slave registers do so while they are still to be
copied, and a machine that has become idle has finished. -/
structure SameJob (e e' : Entity) : Prop where
  /-- The master registers agree. -/
  master : e.master = e'.master
  /-- The parameters to be copied agree. -/
  regs : e.master.state = .loadParameters → e.regs = e'.regs
  /-- The job is over only when `finish` is set. -/
  finished : e.master.state = .idle → e.master.finish = true

/-- A common bus cycle of a machine that has not finished keeps the two-run invariant. -/
lemma SameJob.step {v : Variant} {e e' : Entity} {x x' : Inputs} (h : SameJob e e')
    (hx : x.nReset = true) (hx' : x'.nReset = true)
    (hbus : x.mWaitRequest = x'.mWaitRequest ∧ x.mReadData = x'.mReadData)
    (hf : ¬ e.master.finish = true) : SameJob (e.step v x) (e'.step v x') := by
  have hidle : e.master.state ≠ .idle := fun hm => hf (h.finished hm)
  have hmaster : (e.step v x).master = (e'.step v x').master := by
    rw [step_master hx, step_master hx', ← h.master, ← hbus.1, ← hbus.2]
    by_cases hload : e.master.state = .loadParameters
    · rw [h.regs hload]
    · exact fsm_regs_irrelevant hidle hload
  rw [step_master hx] at hmaster
  constructor
  · rw [step_master hx, hmaster]
  · intro hload
    rw [step_master hx] at hload
    exact absurd hload (fsm_of_busy hidle).1
  · intro hm
    rw [step_master hx] at hm ⊢
    exact (fsm_of_busy hidle).2 hm

/-- Two runs without reset that are in the same state in a cycle `c` with the machine in
`LOAD_PARAMETERS`, and from then on see the same `mWaitRequest` and `mReadData`, have the same
master outputs and the same finish flag in every cycle up to and including the first one in which
`finish` is set again, whatever their slave accesses are. -/
theorem job_isolated (v : Variant) {e e' : Entity} {i i' : ℕ → Inputs} {c : ℕ}
    (hi : ∀ t, (i t).nReset = true) (hi' : ∀ t, (i' t).nReset = true)
    (hsame : run (Entity.step v) e i c = run (Entity.step v) e' i' c)
    (hload : (run (Entity.step v) e i c).master.state = .loadParameters)
    (hbus : ∀ t, (i (c + t)).mWaitRequest = (i' (c + t)).mWaitRequest ∧
      (i (c + t)).mReadData = (i' (c + t)).mReadData)
    {t : ℕ} (ht : ∀ u < t, (run (Entity.step v) e i (c + u)).master.finish = false) :
    (run (Entity.step v) e i (c + t)).master = (run (Entity.step v) e' i' (c + t)).master := by
  have hstart : SameJob (run (Entity.step v) e i c) (run (Entity.step v) e' i' c) :=
    ⟨by rw [hsame], fun _ => by rw [hsame], fun hm => absurd (hload.symm.trans hm) (by simp)⟩
  rw [run_add, run_add]
  refine (run_simulation_until (R := SameJob) (Q := fun e => e.master.finish = true)
    (A := fun x x' => (x.nReset = true ∧ x'.nReset = true) ∧
      x.mWaitRequest = x'.mWaitRequest ∧ x.mReadData = x'.mReadData) hstart
    (fun e e' x x' hx hq h => h.step hx.1.1 hx.1.2 hx.2 hq)
    (fun t => ⟨⟨hi _, hi' _⟩, hbus t⟩) fun u hu => ?_).master
  rw [← run_add, ht u hu]
  exact Bool.false_ne_true

/-- A job of two words is not disturbed by reprogramming all registers while it runs. -/
theorem job_isolated_reprogrammed :
    let i := Call.inputs ⟨0x1000, 0x2000, 1⟩ 0x12345678
    let i' := fun t => if t < 5 then i t else { i t with slave := .iowr32Direct (4 * (t % 4)) 7 }
    (run (Entity.step customInstruction) Entity.zero i (5 + 11)).master.finish = true ∧
      (run (Entity.step customInstruction) Entity.zero i (5 + 11)).master =
        (run (Entity.step customInstruction) Entity.zero i' (5 + 11)).master := by
  intro i i'
  have hnReset : ∀ t, (i' t).nReset = true := by
    intro t
    by_cases h : t < 5 <;> simp [i', i, h, Call.inputs]
  have hbus : ∀ t, (i (5 + t)).mWaitRequest = (i' (5 + t)).mWaitRequest ∧
      (i (5 + t)).mReadData = (i' (5 + t)).mReadData := by
    intro t
    have h : ¬ 5 + t < 5 := by omega
    simp [i', h]
  exact ⟨by decide +kernel, job_isolated customInstruction (fun _ => rfl) hnReset
    (by decide +kernel) (by decide +kernel) hbus (by decide +kernel)⟩

end CyclonRtes.Swap
