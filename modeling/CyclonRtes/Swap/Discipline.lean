import CyclonRtes.Swap.Entity

/-!
# The bus outputs of the `swap` master

All outputs of the master port are registers that different states of the machine assign.  The
invariant `Requests` ties them to the state: a read is requested exactly in `WAIT_RD`, a write
exactly in `WAIT_FOR_WRITE`, a request enables all bytes, and a busy machine has not finished.
It holds in every reachable state, whatever happens on the slave port, on the bus and on `nReset`.

From it follows the discipline of an Avalon master (`master_discipline`): a stalled request is held
unchanged and an accepted one is withdrawn.
-/

namespace CyclonRtes.Swap

open Synchronous

/-- The bus outputs and the finish flag match the state of the machine. -/
structure Requests (m : Master) : Prop where
  /-- A read is requested exactly in `WAIT_RD`. -/
  mRead_iff : m.mRead = true ↔ m.state = .waitRd
  /-- A write is requested exactly in `WAIT_FOR_WRITE`. -/
  mWrite_iff : m.mWrite = true ↔ m.state = .waitForWrite
  /-- A request enables all four bytes. -/
  byteEnable : m.state = .waitRd ∨ m.state = .waitForWrite → m.mByteEnable = 0b1111
  /-- A machine that is not idle has not finished. -/
  busy : m.state ≠ .idle → m.finish = false

section Invariant

variable {v : Variant} {e : Entity} {i : Inputs} {m : Master} {r : SlaveRegisters} {w : Bool}
  {d : Word}

/-- Outside `WAIT_RD` no read is requested. -/
lemma Requests.mRead_eq_false (h : Requests m) (hm : m.state ≠ .waitRd) : m.mRead = false := by
  have := h.mRead_iff
  simp_all

/-- Outside `WAIT_FOR_WRITE` no write is requested. -/
lemma Requests.mWrite_eq_false (h : Requests m) (hm : m.state ≠ .waitForWrite) :
    m.mWrite = false := by
  have := h.mWrite_iff
  simp_all

/-- A machine that powers up requests nothing. -/
lemma requests_of_powerUp (h : PowerUp e) : Requests e.master := by
  obtain ⟨hs, hr, hw⟩ := h
  exact ⟨by simp [hs, hr], by simp [hs, hw], by simp [hs], by simp [hs]⟩

/-- Every edge of the machine keeps the outputs and the state in step. -/
lemma Requests.fsm (h : Requests m) : Requests (transitionMasterFSM v true r w d m) := by
  have hbusy := h.busy
  cases hm : m.state with
  | idle =>
    cases hs : r.start with
    | false =>
      rw [fsm_idle hm hs]
      exact ⟨by simp [hm], by simp [hm], by simp [hm], by simp [hm]⟩
    | true =>
      rw [fsm_idle_start hm hs]
      exact ⟨by simp, by simp, by simp, by simp⟩
  | loadParameters =>
    rw [fsm_loadParameters hm]
    have hr := h.mRead_eq_false (by simp [hm])
    have hw := h.mWrite_eq_false (by simp [hm])
    exact ⟨by simp [hr], by simp [hw], by simp, fun _ => hbusy (by simp [hm])⟩
  | rdAcc =>
    rw [fsm_rdAcc hm]
    exact ⟨by simp, by simp, by simp, fun _ => hbusy (by simp [hm])⟩
  | waitRd =>
    cases w with
    | true => rwa [fsm_waitRd_stall hm]
    | false =>
      rw [fsm_waitRd hm]
      have hw := h.mWrite_eq_false (by simp [hm])
      exact ⟨by simp, by simp [hw], by simp, fun _ => hbusy (by simp [hm])⟩
  | calculate =>
    rw [fsm_calculate hm]
    have hr := h.mRead_eq_false (by simp [hm])
    have hw := h.mWrite_eq_false (by simp [hm])
    exact ⟨by simp [hr], by simp [hw], by simp, fun _ => hbusy (by simp [hm])⟩
  | sendWriteRequest =>
    rw [fsm_sendWriteRequest hm]
    have hr := h.mRead_eq_false (by simp [hm])
    exact ⟨by simp [hr], by simp, by simp, fun _ => hbusy (by simp [hm])⟩
  | waitForWrite =>
    have hr := h.mRead_eq_false (by simp [hm])
    cases w with
    | true => rwa [fsm_waitForWrite_stall hm]
    | false =>
      by_cases hc : m.cntLgt > 0
      · rw [fsm_waitForWrite_next hm hc]
        exact ⟨by simp [hr], by simp, by simp, fun _ => hbusy (by simp [hm])⟩
      · rw [fsm_waitForWrite_last hm hc]
        exact ⟨by simp [hr], by simp, by simp, by simp⟩

/-- The reset branch clears the finish flag and touches neither the state nor the requests. -/
lemma Requests.reset (h : Requests m) : Requests m.reset :=
  ⟨h.mRead_iff, h.mWrite_iff, h.byteEnable, fun _ => rfl⟩

/-- Every edge of the entity, with or without reset, keeps the outputs and the state in step. -/
lemma Requests.step (h : Requests e.master) : Requests (e.step v i).master := by
  cases hi : i.nReset with
  | true => rw [step_master hi]; exact h.fsm
  | false => rw [step_master_of_reset hi]; exact h.reset

/-- In every reachable state the bus outputs match the state of the machine. -/
theorem requests_of_reachable (h : Reachable PowerUp (Entity.step v) e) : Requests e.master :=
  h.invariant (fun _ => requests_of_powerUp) fun _ _ => Requests.step

/-- A stalled request freezes the machine. -/
lemma Requests.fsm_stall (h : Requests m) (hreq : m.mRead = true ∨ m.mWrite = true) :
    transitionMasterFSM v true r true d m = m := by
  rcases hreq with hr | hw
  · exact fsm_waitRd_stall (h.mRead_iff.mp hr)
  · exact fsm_waitForWrite_stall (h.mWrite_iff.mp hw)

/-- An accepted request is withdrawn at the next edge. -/
lemma Requests.fsm_accept (h : Requests m) (hreq : m.mRead = true ∨ m.mWrite = true) :
    (transitionMasterFSM v true r false d m).mRead = false ∧
      (transitionMasterFSM v true r false d m).mWrite = false := by
  rcases hreq with hr | hw
  · have hm := h.mRead_iff.mp hr
    rw [fsm_waitRd hm]
    exact ⟨rfl, h.mWrite_eq_false (by simp [hm])⟩
  · have hm := h.mWrite_iff.mp hw
    have hr := h.mRead_eq_false (by simp [hm])
    by_cases hc : m.cntLgt > 0
    · rw [fsm_waitForWrite_next hm hc]
      exact ⟨hr, rfl⟩
    · rw [fsm_waitForWrite_last hm hc]
      exact ⟨hr, rfl⟩

end Invariant

/-! ## The discipline of an Avalon master -/

/-- What an Avalon master owes the bus from one cycle, with master registers `m`, to the next. -/
structure MasterDiscipline (m m' : Master) (mWaitRequest : Bool) : Prop where
  /-- Read and write are never requested together. -/
  exclusive : ¬ (m.mRead = true ∧ m.mWrite = true)
  /-- A request enables all bytes. -/
  byteEnable : m.mRead = true ∨ m.mWrite = true → m.mByteEnable = 0b1111
  /-- A stalled request is held unchanged. -/
  held : m.mRead = true ∨ m.mWrite = true → mWaitRequest = true →
    m'.mRead = m.mRead ∧ m'.mWrite = m.mWrite ∧ m'.mAddress = m.mAddress ∧
      m'.mByteEnable = m.mByteEnable ∧ m'.mWriteData = m.mWriteData
  /-- An accepted request is withdrawn. -/
  withdrawn : m.mRead = true ∨ m.mWrite = true → mWaitRequest = false →
    m'.mRead = false ∧ m'.mWrite = false

/-- From power-up, and without a reset, the master port obeys the discipline in every cycle,
whatever the slave port, `mWaitRequest` and `mReadData` do. -/
theorem master_discipline (v : Variant) {e : Entity} (he : PowerUp e) {i : ℕ → Inputs}
    (hi : ∀ t, (i t).nReset = true) (t : ℕ) :
    MasterDiscipline (run (Entity.step v) e i t).master (run (Entity.step v) e i (t + 1)).master
      (i t).mWaitRequest := by
  have hreach : Reachable PowerUp (Entity.step v) (run (Entity.step v) e i t) :=
    reachable_run he i t
  have h := requests_of_reachable hreach
  rw [run_succ, step_master (hi t)]
  constructor
  · rintro ⟨hr, hw⟩
    have hstate := h.mRead_iff.mp hr
    rw [h.mWrite_iff.mp hw] at hstate
    exact StatesT.noConfusion hstate
  · intro hreq
    exact h.byteEnable (hreq.imp h.mRead_iff.mp h.mWrite_iff.mp)
  · intro hreq hw
    rw [hw, h.fsm_stall hreq]
    exact ⟨rfl, rfl, rfl, rfl, rfl⟩
  · intro hreq hw
    rw [hw]
    exact h.fsm_accept hreq

/-- The discipline of a stalled read: a start command is given from power-up on, over and over, and
in cycle 4 the first read request meets a bus that never accepts it. -/
theorem master_discipline_stalledRead :
    let i : Inputs :=
      { nReset := true, slave := .iowr32Direct 8 1, mWaitRequest := true, mReadData := 0 }
    (run (Entity.step customInstruction) Entity.zero (fun _ => i) 4).master.mRead = true ∧
      MasterDiscipline (run (Entity.step customInstruction) Entity.zero (fun _ => i) 4).master
        (run (Entity.step customInstruction) Entity.zero (fun _ => i) 5).master true :=
  ⟨by decide +kernel, master_discipline customInstruction powerUp_zero (fun _ => rfl) 4⟩

end CyclonRtes.Swap
