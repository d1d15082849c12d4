import CyclonRtes.Swap.Service

/-!
# Reset of the accelerator

The reset branch of the machine clears the counters and the finish flag, but not `state`, `mRead`
and `mWrite`.  A reset of an idle machine therefore leaves it silent until the next start command,
while a reset during a job lets the machine resume the job with cleared addresses.  `SafeAfterReset`
is what a reset should guarantee; it holds of exactly the idle states (`safeAfterReset_iff`).
-/

namespace CyclonRtes.Swap

open Synchronous

/-- After every reset of one or more cycles that begins in `e`, and until a start command has been
written, the master requests nothing, completes no transfer and does not set `finish`. -/
def SafeAfterReset (v : Variant) (e : Entity) : Prop :=
  ∀ (d : ℕ) (i : ℕ → Inputs), 0 < d → (∀ t < d, (i t).nReset = false) →
    (∀ t, d ≤ t → (i t).nReset = true) →
    ∀ t, d ≤ t → (∀ u, d ≤ u → u < t → startCommand (i u).slave = false) →
      (run (Entity.step v) e i t).master.mRead = false ∧
        (run (Entity.step v) e i t).master.mWrite = false ∧
        (run (Entity.step v) e i t).transfers (i t) = [] ∧
        (run (Entity.step v) e i t).master.finish = false

/-- A machine that requests nothing, has not finished and has no start pulse pending. -/
structure Silent (e : Entity) : Prop where
  idle : e.master.state = .idle
  start : e.regs.start = false
  mRead : e.master.mRead = false
  mWrite : e.master.mWrite = false
  finish : e.master.finish = false

section Step

variable {v : Variant} {e : Entity} {i : Inputs}

/-- Resetting an idle machine silences it. -/
lemma silent_of_reset (hm : e.master.state = .idle) (hreq : Requests e.master)
    (hi : i.nReset = false) : Silent (e.step v i) := by
  have hmaster := step_master_of_reset (v := v) (e := e) hi
  refine ⟨?_, ?_, ?_, ?_, ?_⟩
  · rw [hmaster]; exact hm
  · rw [step_regs_of_reset hi]; rfl
  · rw [hmaster]; exact hreq.mRead_eq_false (by simp [hm])
  · rw [hmaster]; exact hreq.mWrite_eq_false (by simp [hm])
  · rw [hmaster]; rfl

/-- Without a start command a silent machine stays silent. -/
lemma Silent.step (h : Silent e) (hi : i.nReset = true) (hs : startCommand i.slave = false) :
    Silent (e.step v i) := by
  have hmaster := step_master (v := v) (e := e) hi
  rw [fsm_idle h.idle h.start] at hmaster
  refine ⟨?_, ?_, ?_, ?_, ?_⟩
  · rw [hmaster]; exact h.idle
  · rw [step_regs hi, slaveWriteProcess_start, hs]
  · rw [hmaster]
  · rw [hmaster]
  · rw [hmaster]; exact h.finish

end Step

/-- A reset of an idle machine is safe. -/
lemma safeAfterReset_of_idle {v : Variant} {e : Entity} (hreq : Requests e.master)
    (hm : e.master.state = .idle) : SafeAfterReset v e := by
  intro d i hd hlow hhigh t hdt hquiet
  have hreset : ∀ t, t < d → (run (Entity.step v) e i t).master.state = .idle ∧
      Requests (run (Entity.step v) e i t).master := by
    intro t ht
    induction t with
    | zero => exact ⟨hm, hreq⟩
    | succ t ih =>
      have h := ih (Nat.lt_of_succ_lt ht)
      rw [run_succ, step_master_of_reset (hlow t (Nat.lt_of_succ_lt ht))]
      exact ⟨h.1, h.2.reset⟩
  have hsilent : Silent (run (Entity.step v) e i t) := by
    induction t, hdt using Nat.le_induction with
    | base =>
      obtain ⟨d, rfl⟩ := Nat.exists_eq_add_of_lt hd
      have h := hreset (0 + d) (Nat.lt_succ_self _)
      exact silent_of_reset h.1 h.2 (hlow _ (Nat.lt_succ_self _))
    | succ t hdt ih =>
      have h := ih fun u hu hut => hquiet u hu (Nat.lt_succ_of_lt hut)
      exact h.step (hhigh t hdt) (hquiet t hdt (Nat.lt_succ_self t))
  exact ⟨hsilent.mRead, hsilent.mWrite, by
    simp [Entity.transfers, Master.transfers, hsilent.mRead, hsilent.mWrite], hsilent.finish⟩

/-- A reset of one cycle, after which nothing is written and the bus does not stall. -/
def resetThenQuiet (t : ℕ) : Inputs :=
  { nReset := decide (0 < t), slave := writeStart.deselect, mWaitRequest := false, mReadData := 0 }

section Resume

variable {v : Variant} {e : Entity}

/-- After a reset of one cycle the machine goes on from the state in which the reset found it. -/
lemma resume_succ (t : ℕ) :
    (run (Entity.step v) e resetThenQuiet (t + 2)).master =
      transitionMasterFSM v true (run (Entity.step v) e resetThenQuiet (t + 1)).regs false 0
        (run (Entity.step v) e resetThenQuiet (t + 1)).master :=
  step_master rfl

/-- A machine that was busy when the reset came requests a transfer within three cycles after
it. -/
lemma exists_request_of_busy (hm : e.master.state ≠ .idle) :
    ∃ t, 1 ≤ t ∧ ((run (Entity.step v) e resetThenQuiet t).master.state = .waitRd ∨
      (run (Entity.step v) e resetThenQuiet t).master.state = .waitForWrite) := by
  have h1 : (run (Entity.step v) e resetThenQuiet 1).master.state = e.master.state := by
    rw [run_succ, run_zero, step_master_of_reset rfl]
    rfl
  have h2 := resume_succ (v := v) (e := e) 0
  have h3 := resume_succ (v := v) (e := e) 1
  cases hs : e.master.state with
  | idle => exact absurd hs hm
  | loadParameters =>
    rw [hs] at h1
    rw [fsm_loadParameters h1] at h2
    rw [fsm_rdAcc (by rw [h2])] at h3
    exact ⟨3, by decide, .inl (by rw [h3])⟩
  | rdAcc =>
    rw [hs] at h1
    rw [fsm_rdAcc h1] at h2
    exact ⟨2, by decide, .inl (by rw [h2])⟩
  | waitRd => exact ⟨1, le_refl 1, .inl (h1.trans hs)⟩
  | calculate =>
    rw [hs] at h1
    rw [fsm_calculate h1] at h2
    rw [fsm_sendWriteRequest (by rw [h2])] at h3
    exact ⟨3, by decide, .inr (by rw [h3])⟩
  | sendWriteRequest =>
    rw [hs] at h1
    rw [fsm_sendWriteRequest h1] at h2
    exact ⟨2, by decide, .inr (by rw [h2])⟩
  | waitForWrite => exact ⟨1, le_refl 1, .inr (h1.trans hs)⟩

end Resume

/-- The reset is safe in exactly those reachable states in which the machine is idle. -/
theorem safeAfterReset_iff {v : Variant} {e : Entity}
    (he : Reachable PowerUp (Entity.step v) e) :
    SafeAfterReset v e ↔ e.master.state = .idle := by
  have hreq := requests_of_reachable he
  constructor
  · intro hsafe
    by_contra hm
    obtain ⟨t, ht, hst⟩ := exists_request_of_busy (v := v) hm
    have hreq' : Requests (run (Entity.step v) e resetThenQuiet t).master :=
      run_invariant (P := fun e : Entity => Requests e.master) (A := fun _ => True) hreq
        (fun _ _ _ => Requests.step) (fun _ => trivial) t
    have h := hsafe 1 resetThenQuiet Nat.one_pos
      (fun u hu => decide_eq_false (Nat.not_lt.mpr (Nat.lt_succ_iff.mp hu)))
      (fun _ hu => decide_eq_true hu) t ht (fun _ _ _ => rfl)
    rcases hst with hst | hst
    · exact absurd (hreq'.mRead_iff.mpr hst) (by simp [h.1])
    · exact absurd (hreq'.mWrite_iff.mpr hst) (by simp [h.2.1])
  · exact safeAfterReset_of_idle hreq

/-- The accelerator while it waits for the first word of a job. -/
def waitingForRead : Entity :=
  run (Entity.step customInstruction) Entity.zero (Call.inputs ⟨0x1000, 0x2000, 1⟩ 0) 7

/-- The accelerator is reset while it waits for a word: after the reset it still requests the read,
and three cycles later it writes to address 0. -/
theorem safeAfterReset_fails_waitRd :
    Reachable PowerUp (Entity.step customInstruction) waitingForRead ∧
      (run (Entity.step customInstruction) waitingForRead resetThenQuiet 4).transfers
        (resetThenQuiet 4) = [.write 0 0b1111 0] ∧
      ¬ SafeAfterReset customInstruction waitingForRead := by
  refine ⟨reachable_run powerUp_zero _ _, by decide +kernel, ?_⟩
  intro hsafe
  have h := hsafe 1 resetThenQuiet Nat.one_pos (by decide)
    (fun _ hu => decide_eq_true hu) 4 (by decide) (fun _ _ _ => rfl)
  exact absurd h.2.1 (by decide +kernel)

/-- The accelerator after the last transfer of the same job. -/
def jobDone : Entity :=
  run (Entity.step customInstruction) Entity.zero (Call.inputs ⟨0x1000, 0x2000, 1⟩ 0) 16

/-- The theorem at both ends of a job: a reset after its last transfer is safe, a reset during its
first one is not. -/
theorem safeAfterReset_iff_jobDone :
    jobDone.master.finish = true ∧ SafeAfterReset customInstruction jobDone ∧
      waitingForRead.master.mRead = true ∧ ¬ SafeAfterReset customInstruction waitingForRead := by
  have hdone : Reachable PowerUp (Entity.step customInstruction) jobDone :=
    reachable_run powerUp_zero _ _
  have hwaiting : Reachable PowerUp (Entity.step customInstruction) waitingForRead :=
    reachable_run powerUp_zero _ _
  refine ⟨by decide +kernel, (safeAfterReset_iff hdone).mpr (by decide +kernel),
    by decide +kernel, fun hsafe => ?_⟩
  have hidle := (safeAfterReset_iff hwaiting).mp hsafe
  exact absurd hidle (by decide +kernel)

end CyclonRtes.Swap
