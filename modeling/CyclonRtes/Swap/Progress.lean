import CyclonRtes.Swap.Driver
import CyclonRtes.Swap.Termination

/-!
# Progress of a job under interference

While the machine is busy the slave port may do anything: give start pulses, rewrite the length
register, read.  `MakesProgress` says that the job goes on all the same.  The measure
`Master.remaining` drops with every clock edge that the bus does not stall, the down counter never
wraps around, and when the measure is exhausted the machine is idle with `finish` set.  From then on
the flag stays set up to and including the cycle of the next start pulse, and every read of the
finish register in these cycles sees it.

All of this holds in every state in which the machine is busy, reachable or not
(`busy_makesProgress`).
-/

namespace CyclonRtes.Swap

open Synchronous

/-! ## One edge -/

section Step

variable {v : Variant} {m : Master} {r : SlaveRegisters} {w : Bool} {d n : Word}

instance (m : Master) (w : Bool) : Decidable (m.Stalled w) := inferInstanceAs (Decidable (_ ∧ _))

/-- The measure is exhausted exactly in `IDLE`. -/
lemma remaining_eq_zero : m.remaining n = 0 ↔ m.state = .idle := by
  cases hs : m.state <;> simp [Master.remaining, hs]

/-- In `LOAD_PARAMETERS` the measure is five edges for each element and one for the loading. -/
lemma remaining_loadParameters (hs : m.state = .loadParameters) :
    m.remaining n = 5 * (n.toNat + 1) + 1 := by
  simp only [Master.remaining, hs]
  omega

/-- A stalled machine is not loading parameters, so the length register is not looked at. -/
lemma remaining_of_stalled (h : m.Stalled w) (n n' : Word) : m.remaining n = m.remaining n' := by
  rcases h.1 with hs | hs <;> simp [Master.remaining, hs]

/-- Only the edge that sets the flag leads a busy machine to `IDLE`. -/
lemma finish_of_fsm_idle (hm : m.state ≠ .idle)
    (h : (transitionMasterFSM v true r w d m).state = .idle) :
    (transitionMasterFSM v true r w d m).finish = true := by
  cases hs : m.state with
  | idle => exact absurd hs hm
  | loadParameters => simp [fsm_loadParameters hs] at h
  | rdAcc => simp [fsm_rdAcc hs] at h
  | waitRd =>
    cases w with
    | true => simp [fsm_waitRd_stall hs, hs] at h
    | false => simp [fsm_waitRd hs] at h
  | calculate => simp [fsm_calculate hs] at h
  | sendWriteRequest => simp [fsm_sendWriteRequest hs] at h
  | waitForWrite =>
    cases w with
    | true => simp [fsm_waitForWrite_stall hs, hs] at h
    | false =>
      by_cases hc : m.cntLgt > 0
      · simp [fsm_waitForWrite_next hs hc] at h
      · rw [fsm_waitForWrite_last hs hc]

/-- Outside `LOAD_PARAMETERS` an edge leaves the down counter alone or takes one off a positive
one. -/
lemma fsm_cntLgt (hm : m.state ≠ .loadParameters) :
    (transitionMasterFSM v true r w d m).cntLgt = m.cntLgt ∨
      (transitionMasterFSM v true r w d m).cntLgt.toNat + 1 = m.cntLgt.toNat := by
  cases hs : m.state with
  | idle => cases hr : r.start <;> simp [fsm_idle, fsm_idle_start, hs, hr]
  | loadParameters => exact absurd hs hm
  | rdAcc => exact .inl (by rw [fsm_rdAcc hs])
  | waitRd => cases w <;> simp [fsm_waitRd, fsm_waitRd_stall, hs]
  | calculate => exact .inl (by rw [fsm_calculate hs])
  | sendWriteRequest => exact .inl (by rw [fsm_sendWriteRequest hs])
  | waitForWrite =>
    cases w with
    | true => exact .inl (by rw [fsm_waitForWrite_stall hs])
    | false =>
      by_cases hc : m.cntLgt > 0
      · refine .inr ?_
        rw [fsm_waitForWrite_next hs hc]
        exact toNat_sub_one hc
      · exact .inl (by rw [fsm_waitForWrite_last hs hc])

/-- A read of the finish register returns the flag. -/
lemma slaveReadProcess_of_readsFrom_finish {p : SlavePort} {f : Bool}
    (hp : p.readsFrom 0b101 = true) : slaveReadProcess p r f d = flagWord f := by
  obtain ⟨hreads, haddress⟩ : p.reads = true ∧ p.address = 0b101 := by
    simpa [SlavePort.readsFrom] using hp
  rw [slaveReadProcess, hreads, haddress]
  rfl

end Step

/-! ## The run of a busy machine -/

section Statement

variable (v : Variant) (e : Entity) (i : ℕ → Inputs)

/-- The master registers in the cycles of a run. -/
def masterAt (t : ℕ) : Master := (run (Entity.step v) e i t).master

/-- The start pulse in the cycles of a run. -/
def startTrace (t : ℕ) : Bool := (run (Entity.step v) e i t).regs.start

/-- The unstalled edges that the machine still needs in the cycles of a run. -/
def remainingAt (t : ℕ) : ℕ := (masterAt v e i t).remaining (run (Entity.step v) e i t).regs.regLgt

/-- The machine does not spend the edge at the end of a cycle waiting for the bus. -/
def unstalled (t : ℕ) : Bool := decide (¬ (masterAt v e i t).Stalled (i t).mWaitRequest)

/-- The machine is busy in all cycles before cycle `t`. -/
def BusyBefore (t : ℕ) : Prop := ∀ u < t, (masterAt v e i u).state ≠ .idle

/-- The machine is idle in cycle `t` for the first time, and `finish` is set. -/
structure Completes (t : ℕ) : Prop where
  busy : BusyBefore v e i t
  idle : (masterAt v e i t).state = .idle
  finish : finishTrace v e i t = true

/-- The job of a busy machine makes progress, and the driver does not miss its end. -/
structure MakesProgress : Prop where
  /-- An unstalled edge decreases the measure. -/
  decreases : ∀ t, BusyBefore v e i (t + 1) → unstalled v e i t = true →
    remainingAt v e i (t + 1) < remainingAt v e i t
  /-- A stalled edge leaves the measure as it is. -/
  stalled : ∀ t, BusyBefore v e i (t + 1) → unstalled v e i t = false →
    remainingAt v e i (t + 1) = remainingAt v e i t
  /-- `LOAD_PARAMETERS` copies the length register to the down counter. -/
  loads : ∀ t, (masterAt v e i t).state = .loadParameters →
    (masterAt v e i (t + 1)).cntLgt = (run (Entity.step v) e i t).regs.regLgt
  /-- In all other states the down counter stays as it is or is decremented without wrapping. -/
  countsDown : ∀ t, (masterAt v e i t).state ≠ .loadParameters →
    (masterAt v e i (t + 1)).cntLgt = (masterAt v e i t).cntLgt ∨
      (masterAt v e i (t + 1)).cntLgt.toNat + 1 = (masterAt v e i t).cntLgt.toNat
  /-- When the measure is exhausted the job is complete. -/
  exhausted : ∀ t, BusyBefore v e i t → remainingAt v e i t = 0 → Completes v e i t
  /-- From `LOAD_PARAMETERS` with length `n` the measure is `5 * (n + 1) + 1`. -/
  bound : e.master.state = .loadParameters → remainingAt v e i 0 = 5 * (e.regs.regLgt.toNat + 1) + 1
  /-- The job needs as many unstalled edges as the measure says, and no more. -/
  completes : ∀ t, remainingAt v e i 0 ≤ highCycles (unstalled v e i) 0 t →
    ∃ u ≤ t, Completes v e i u ∧ highCycles (unstalled v e i) 0 u = remainingAt v e i 0
  /-- The flag stays set up to and including the first cycle of a start pulse. -/
  visible : ∀ t u, Completes v e i t → t ≤ u → (∀ w, t ≤ w → w < u → startTrace v e i w = false) →
    finishTrace v e i u = true
  /-- A read of the finish register in one of these cycles returns a non-zero word. -/
  polled : ∀ t u, Completes v e i t → t ≤ u → (∀ w, t ≤ w → w < u → startTrace v e i w = false) →
    (i u).slave.readsFrom 0b101 = true → (run (Entity.step v) e i (u + 1)).sReadData ≠ 0

end Statement

section Run

variable {v : Variant} {e : Entity} {i : ℕ → Inputs}

/-- Without a reset the master registers follow `transitionMasterFSM`. -/
lemma masterAt_succ (hi : ∀ t, (i t).nReset = true) (t : ℕ) :
    masterAt v e i (t + 1) =
      transitionMasterFSM v true (run (Entity.step v) e i t).regs (i t).mWaitRequest
        (i t).mReadData (masterAt v e i t) :=
  step_master (hi t)

/-- A machine that is busy up to a cycle is busy before. -/
lemma BusyBefore.mono {t u : ℕ} (h : BusyBefore v e i u) (htu : t ≤ u) : BusyBefore v e i t :=
  fun w hw => h w (hw.trans_le htu)

/-- An unstalled edge takes exactly one off the measure. -/
lemma remainingAt_succ (hi : ∀ t, (i t).nReset = true) {t : ℕ} (hb : BusyBefore v e i (t + 1))
    (hu : unstalled v e i t = true) : remainingAt v e i (t + 1) + 1 = remainingAt v e i t := by
  have hst : ¬ (masterAt v e i t).Stalled (i t).mWaitRequest := of_decide_eq_true hu
  rw [remainingAt, masterAt_succ hi]
  exact fsm_remaining (hb t (Nat.lt_succ_self t)) hst

/-- A stalled edge leaves the measure as it is. -/
lemma remainingAt_succ_of_stalled (hi : ∀ t, (i t).nReset = true) {t : ℕ}
    (hu : unstalled v e i t = false) : remainingAt v e i (t + 1) = remainingAt v e i t := by
  have hst : (masterAt v e i t).Stalled (i t).mWaitRequest :=
    Decidable.not_not.mp (of_decide_eq_false hu)
  rw [remainingAt, masterAt_succ hi, fsm_of_stalled hst]
  exact remaining_of_stalled hst _ _

/-- The unstalled edges of a busy machine and the measure add up to the measure at the start. -/
lemma highCycles_add_remainingAt (hi : ∀ t, (i t).nReset = true) {t : ℕ}
    (hb : BusyBefore v e i t) :
    highCycles (unstalled v e i) 0 t + remainingAt v e i t = remainingAt v e i 0 := by
  induction t with
  | zero => rw [highCycles_self, Nat.zero_add]
  | succ t ih =>
    have hprev := ih (hb.mono (Nat.le_succ t))
    rw [highCycles_succ (Nat.zero_le t)]
    cases hu : unstalled v e i t with
    | true =>
      have hdrop := remainingAt_succ hi hb hu
      rw [if_pos rfl]
      omega
    | false =>
      have hsame := remainingAt_succ_of_stalled hi hu
      rw [if_neg (by simp)]
      omega

/-- A busy machine that is idle for the first time has set the flag. -/
lemma completes_of_idle (he : e.master.state ≠ .idle) (hi : ∀ t, (i t).nReset = true) {t : ℕ}
    (hb : BusyBefore v e i t) (hidle : (masterAt v e i t).state = .idle) : Completes v e i t := by
  refine ⟨hb, hidle, ?_⟩
  cases t with
  | zero => exact absurd hidle he
  | succ t =>
    have hbusy : (masterAt v e i t).state ≠ .idle := hb t (Nat.lt_succ_self t)
    change (masterAt v e i (t + 1)).finish = true
    rw [masterAt_succ hi] at hidle ⊢
    exact finish_of_fsm_idle hbusy hidle

/-- As many unstalled edges as the measure says complete the job. -/
lemma exists_completes (he : e.master.state ≠ .idle) (hi : ∀ t, (i t).nReset = true) {t : ℕ}
    (ht : remainingAt v e i 0 ≤ highCycles (unstalled v e i) 0 t) :
    ∃ u ≤ t, Completes v e i u ∧ highCycles (unstalled v e i) 0 u = remainingAt v e i 0 := by
  have hex : ∃ u, (masterAt v e i u).state = .idle := by
    by_contra hno
    have hsum := highCycles_add_remainingAt hi (t := t) fun u _ hu => hno ⟨u, hu⟩
    exact hno ⟨t, remaining_eq_zero.mp (show remainingAt v e i t = 0 by omega)⟩
  have hidle : (masterAt v e i (Nat.find hex)).state = .idle := Nat.find_spec hex
  have hb : BusyBefore v e i (Nat.find hex) := fun u hu => Nat.find_min hex hu
  have hzero : remainingAt v e i (Nat.find hex) = 0 := remaining_eq_zero.mpr hidle
  have hsum := highCycles_add_remainingAt hi hb
  refine ⟨Nat.find hex, ?_, completes_of_idle he hi hb hidle, by omega⟩
  by_contra hlt
  have hsum' := highCycles_add_remainingAt hi (hb.mono (Nat.le_of_not_le hlt))
  exact hb t (Nat.lt_of_not_le hlt) (remaining_eq_zero.mp (show remainingAt v e i t = 0 by omega))

/-- Without a start pulse a completed job stays completed: the machine is idle and the flag set. -/
lemma Completes.stays (hi : ∀ t, (i t).nReset = true) {t u : ℕ} (h : Completes v e i t)
    (htu : t ≤ u) (hs : ∀ w, t ≤ w → w < u → startTrace v e i w = false) :
    (masterAt v e i u).state = .idle ∧ (masterAt v e i u).finish = true := by
  induction u, htu using Nat.le_induction with
  | base => exact ⟨h.idle, h.finish⟩
  | succ u htu ih =>
    have hidle := ih fun w htw hwu => hs w htw (Nat.lt_succ_of_lt hwu)
    rw [masterAt_succ hi, fsm_idle hidle.1 (hs u htu (Nat.lt_succ_self u))]
    exact hidle

/-- In every state in which the machine is busy, and without a reset, the job makes progress
whatever happens on the slave port and however the bus stalls. -/
theorem busy_makesProgress (hbusy : e.master.state ≠ .idle) (hi : ∀ t, (i t).nReset = true) :
    MakesProgress v e i where
  decreases t hb hu := by
    have hdrop := remainingAt_succ hi hb hu
    omega
  stalled t _ hu := remainingAt_succ_of_stalled hi hu
  loads t hs := by rw [masterAt_succ hi, fsm_loadParameters hs]
  countsDown t hs := by
    rw [masterAt_succ hi]
    exact fsm_cntLgt hs
  exhausted t hb h0 := completes_of_idle hbusy hi hb (remaining_eq_zero.mp h0)
  bound := remaining_loadParameters
  completes t ht := exists_completes hbusy hi ht
  visible t u h htu hs := (h.stays hi htu hs).2
  polled t u h htu hs hread := by
    have hfinish : (run (Entity.step v) e i u).master.finish = true := (h.stays hi htu hs).2
    rw [run_succ, step_sReadData (hi u), slaveReadProcess_of_readsFrom_finish hread, hfinish]
    decide

end Run

/-- The longest job is programmed, and from then on one start command follows the other. -/
def longestJob (t : ℕ) : Inputs where
  nReset := true
  slave := if t = 0 then .iowr32Direct 4 0xFFFFFFFF else .iowr32Direct 8 1
  mWaitRequest := t % 2 == 0
  mReadData := 0

/-- The theorem at the longest job: in cycle 3 it is in `LOAD_PARAMETERS`, and from there it takes
`5 * 2 ^ 32 + 1` unstalled edges. -/
theorem busy_makesProgress_longestJob :
    let e := run (Entity.step customInstruction) Entity.zero longestJob 3
    remainingAt customInstruction e (fun t => longestJob (3 + t)) 0 = 5 * 2 ^ 32 + 1 ∧
      MakesProgress customInstruction e fun t => longestJob (3 + t) :=
  ⟨by decide +kernel, busy_makesProgress (by decide +kernel) fun _ => rfl⟩

end CyclonRtes.Swap
