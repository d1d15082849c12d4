import CyclonRtes.Swap.Job

/-!
# Termination of a job

`Master.remaining` counts the unstalled clock edges that a busy machine still needs: five for each
element, one for `LOAD_PARAMETERS`.  Every edge takes one off, except those that the bus stalls
(`fsm_remaining`).  A job therefore ends on every bus that does not stall for ever
(`exists_firstRise_of_fair`), whatever the slave port does in the meantime.
-/

namespace CyclonRtes.Swap

open Synchronous

/-- The number of unstalled edges that a machine needs until it is idle; `regLgt` is the length
register, which is still to be copied in `LOAD_PARAMETERS`. -/
def Master.remaining (m : Master) (regLgt : Word) : ℕ :=
  match m.state with
  | .idle => 0
  | .loadParameters => 5 * regLgt.toNat + 6
  | .rdAcc => 5 * m.cntLgt.toNat + 5
  | .waitRd => 5 * m.cntLgt.toNat + 4
  | .calculate => 5 * m.cntLgt.toNat + 3
  | .sendWriteRequest => 5 * m.cntLgt.toNat + 2
  | .waitForWrite => 5 * m.cntLgt.toNat + 1

/-- The machine waits for the bus in this cycle. -/
def Master.Stalled (m : Master) (mWaitRequest : Bool) : Prop :=
  (m.state = .waitRd ∨ m.state = .waitForWrite) ∧ mWaitRequest = true

section Step

variable {v : Variant} {m : Master} {r : SlaveRegisters} {w : Bool} {d n : Word}

/-- A stalled edge changes nothing. -/
lemma fsm_of_stalled (h : m.Stalled w) : transitionMasterFSM v true r w d m = m := by
  obtain ⟨hm | hm, rfl⟩ := h
  · exact fsm_waitRd_stall hm
  · exact fsm_waitForWrite_stall hm

/-- An edge of a busy machine that is not stalled takes exactly one off the remaining edges.  The
length register no longer matters after the edge. -/
theorem fsm_remaining (hm : m.state ≠ .idle) (hst : ¬ m.Stalled w) :
    (transitionMasterFSM v true r w d m).remaining n + 1 = m.remaining r.regLgt := by
  cases hs : m.state with
  | idle => exact absurd hs hm
  | loadParameters => simp [fsm_loadParameters hs, Master.remaining, hs]
  | rdAcc => simp [fsm_rdAcc hs, Master.remaining, hs]
  | waitRd =>
    have hw : w = false := by simpa [Master.Stalled, hs] using hst
    simp [hw, fsm_waitRd hs, Master.remaining, hs]
  | calculate => simp [fsm_calculate hs, Master.remaining, hs]
  | sendWriteRequest => simp [fsm_sendWriteRequest hs, Master.remaining, hs]
  | waitForWrite =>
    have hw : w = false := by simpa [Master.Stalled, hs] using hst
    subst hw
    by_cases hc : m.cntLgt > 0
    · have hsub := toNat_sub_one hc
      simp only [fsm_waitForWrite_next hs hc, Master.remaining, hs]
      omega
    · simp [fsm_waitForWrite_last hs hc, Master.remaining, hs, toNat_eq_zero hc]

end Step

section Run

variable {v : Variant} {e : Entity} {i : ℕ → Inputs}

/-- From `LOAD_PARAMETERS` on, and as long as `finish` has not risen, the machine is busy. -/
lemma busy_of_low (hload : e.master.state = .loadParameters) (hreq : Requests e.master)
    (hi : ∀ t, (i t).nReset = true) {t : ℕ} (hlow : ∀ u ≤ t, finishTrace v e i u = false) :
    (run (Entity.step v) e i t).master.state ≠ .idle := by
  cases t with
  | zero => simp [hload]
  | succ t =>
    obtain ⟨ws, h⟩ := exists_progress hload hreq hi hlow
    exact h.state_ne_idle

/-- If the bus does not stall for ever, `finish` rises after `LOAD_PARAMETERS`. -/
theorem exists_firstRise_of_fair (hload : e.master.state = .loadParameters)
    (hreq : Requests e.master) (hi : ∀ t, (i t).nReset = true)
    (hfair : ∀ t, ∃ u, t ≤ u ∧ (i u).mWaitRequest = false) :
    ∃ t, FirstRise (finishTrace v e i) t := by
  have h0 : finishTrace v e i 0 = false := hreq.busy (by simp [hload])
  let f := run (Entity.step v) e i
  have hbusy : ∀ t, (¬ ∃ u ≤ t, finishTrace v e i u = true) → (f t).master.state ≠ .idle :=
    fun t hno => busy_of_low hload hreq hi fun u hu => by simpa using fun h => hno ⟨u, hu, h⟩
  have hmaster : ∀ t, (f (t + 1)).master =
      transitionMasterFSM v true (f t).regs (i t).mWaitRequest (i t).mReadData (f t).master :=
    fun t => step_master (hi t)
  have hstep : ∀ t, (¬ ∃ u ≤ t, finishTrace v e i u = true) →
      (f (t + 1)).master.remaining (f (t + 1)).regs.regLgt <
          (f t).master.remaining (f t).regs.regLgt ∨
        (f t).master.Stalled (i t).mWaitRequest ∧
          (f (t + 1)).master.remaining (f (t + 1)).regs.regLgt =
            (f t).master.remaining (f t).regs.regLgt := by
    intro t hno
    rw [hmaster]
    by_cases hst : (f t).master.Stalled (i t).mWaitRequest
    · -- a stalled machine is not loading parameters, so the register is not looked at
      rw [fsm_of_stalled hst]
      refine .inr ⟨hst, ?_⟩
      rcases hst.1 with hs | hs <;> simp [Master.remaining, hs]
    · have := fsm_remaining (v := v) (d := (i t).mReadData) (n := (f (t + 1)).regs.regLgt)
        (r := (f t).regs) (hbusy t hno) hst
      exact .inl (by omega)
  have hunstalled : ∀ t, ∃ u, t ≤ u ∧ ¬ (f u).master.Stalled (i u).mWaitRequest := by
    intro t
    obtain ⟨u, htu, hu⟩ := hfair t
    exact ⟨u, htu, fun hst => absurd (hu.symm.trans hst.2) (by simp)⟩
  obtain ⟨t, u, -, hu⟩ := exists_of_measure
    (fun t => (f t).master.remaining (f t).regs.regLgt) hstep hunstalled
  obtain ⟨t, -, ht⟩ := exists_firstRise h0 hu
  exact ⟨t, ht⟩

end Run

end CyclonRtes.Swap
