import CyclonRtes.Swap.Discipline

/-!
# One job of the accelerator

A job is given by the three parameters that the machine copies in `LOAD_PARAMETERS`.  What a job
is for is to transfer words: element by element it reads a source word and writes its image to the
destination (`Job.pairs`).  This file proves that the machine does this and nothing else: from
`LOAD_PARAMETERS` until `finish` rises, the list of completed transfers is at every moment such a
list of pairs, possibly with the read of one more pair (`Progress`), and when `finish` rises it
consists of `length + 1` pairs (`finished_of_firstRise`).

The words read are whatever `mReadData` showed; the slave port may do anything.
-/

namespace CyclonRtes.Swap

open Synchronous

/-- The parameters of a job: the addresses of the first source and the first destination word, and
the content of the length register. -/
structure Job where
  source : Word
  destination : Word
  length : Word
  deriving DecidableEq, Repr

/-- The job for which the slave registers are programmed. -/
def SlaveRegisters.job (r : SlaveRegisters) : Job := ⟨r.regAddStart, r.resultRegAddStart, r.regLgt⟩

namespace Job

/-- The address of the `i`-th read of a job. -/
def readAddress (v : Variant) (j : Job) (i : ℕ) : Word := element j.source v.increment i

/-- The address of the `i`-th write of a job. -/
def writeAddress (v : Variant) (j : Job) (i : ℕ) : Word := element j.destination v.increment i

/-- The read of element `i` that returned the word `w`. -/
def readOf (v : Variant) (j : Job) (i : ℕ) (w : Word) : Transfer := .read (j.readAddress v i) w

/-- The write of the image of `w` as element `i`. -/
def writeOf (v : Variant) (j : Job) (i : ℕ) (w : Word) : Transfer :=
  .write (j.writeAddress v i) 0b1111 (v.image w)

/-- The transfers of a job that has read the words `ws` and written their images. -/
def pairs (v : Variant) (j : Job) (ws : List Word) : List Transfer :=
  ws.zipIdx.flatMap fun x => [j.readOf v x.2 x.1, j.writeOf v x.2 x.1]

variable (v : Variant) (j : Job)

@[simp] lemma pairs_nil : j.pairs v [] = [] := rfl

/-- One more element adds its read and its write. -/
lemma pairs_concat (ws : List Word) (w : Word) :
    j.pairs v (ws ++ [w]) =
      j.pairs v ws ++ [j.readOf v ws.length w] ++ [j.writeOf v ws.length w] := by
  simp [pairs, List.zipIdx_append]

end Job

/-! ## The progress invariant -/

/-- How far the current element has come, as a statement about the transfers completed so far:
`ws` are the words of the elements before it. -/
def Phase (v : Variant) (j : Job) (ws : List Word) (m : Master) (l : List Transfer) : Prop :=
  match m.state with
  | .idle | .loadParameters => False
  | .rdAcc => l = j.pairs v ws
  | .waitRd => l = j.pairs v ws ∧ m.mAddress = j.readAddress v ws.length
  | .calculate => l = j.pairs v ws ++ [j.readOf v ws.length m.dataRd]
  | .sendWriteRequest =>
    l = j.pairs v ws ++ [j.readOf v ws.length m.dataRd] ∧ m.result = v.image m.dataRd
  | .waitForWrite =>
    l = j.pairs v ws ++ [j.readOf v ws.length m.dataRd] ∧ m.mWriteData = v.image m.dataRd ∧
      m.mAddress = j.writeAddress v ws.length

/-- A job in progress: the words `ws` have been transferred and the transfers completed since
`LOAD_PARAMETERS` are `l`. -/
structure Progress (v : Variant) (j : Job) (ws : List Word) (m : Master) (l : List Transfer) :
    Prop where
  /-- The bus outputs match the state. -/
  requests : Requests m
  /-- The read counter points to the current element. -/
  cntAdd : m.cntAdd = j.readAddress v ws.length
  /-- The write counter points to the current element. -/
  cntResultAdd : m.cntResultAdd = j.writeAddress v ws.length
  /-- The down counter and the elements done add up to the length. -/
  cntLgt : m.cntLgt.toNat + ws.length = j.length.toNat
  /-- The state of the current element. -/
  phase : Phase v j ws m l

/-- A completed job: the machine is idle and `finish` is set.  The down counter is tested after each
element, so one element more than the length register says has been transferred. -/
structure Finished (v : Variant) (j : Job) (ws : List Word) (m : Master) (l : List Transfer) :
    Prop where
  idle : m.state = .idle
  finish : m.finish = true
  requests : Requests m
  length : ws.length = j.length.toNat + 1
  transfers : l = j.pairs v ws

section Step

variable {v : Variant} {j : Job} {ws : List Word} {m : Master} {l : List Transfer}
  {r : SlaveRegisters} {w : Bool} {d : Word}

/-- A job in progress keeps the machine busy. -/
lemma Progress.state_ne_idle (h : Progress v j ws m l) : m.state ≠ .idle := by
  intro hm
  have := h.phase
  simp [Phase, hm] at this

/-- A job in progress has not finished. -/
lemma Progress.finish (h : Progress v j ws m l) : m.finish = false :=
  h.requests.busy h.state_ne_idle

/-- The transfers of a job in progress are those of its elements, perhaps with one more read. -/
lemma Progress.transfers (h : Progress v j ws m l) :
    l = j.pairs v ws ∨ ∃ w, l = j.pairs v ws ++ [j.readOf v ws.length w] := by
  have hphase := h.phase
  cases hm : m.state <;> simp only [Phase, hm] at hphase
  · exact .inl hphase
  · exact .inl hphase.1
  · exact .inr ⟨_, hphase⟩
  · exact .inr ⟨_, hphase.1⟩
  · exact .inr ⟨_, hphase.1⟩

/-- Loading the parameters starts the first element. -/
lemma progress_of_loadParameters (hm : m.state = .loadParameters) (h : Requests m) :
    Progress v r.job [] (transitionMasterFSM v true r w d m) [] := by
  have hreq : Requests (transitionMasterFSM v true r w d m) := h.fsm
  rw [fsm_loadParameters hm] at hreq ⊢
  refine ⟨hreq, ?_, ?_, ?_, ?_⟩ <;>
    simp [Job.readAddress, Job.writeAddress, SlaveRegisters.job, Phase]

/-- A master without a request completes no transfer. -/
lemma transfers_of_no_request (hr : m.mRead = false) (hw : m.mWrite = false) :
    m.transfers w d = [] := by
  simp [Master.transfers, hr, hw]

/-- A stalled master completes no transfer. -/
lemma transfers_stall : m.transfers true d = [] := by simp [Master.transfers]

/-- In a state without a request no transfer is completed. -/
lemma Requests.transfers_eq_nil (h : Requests m) (hr : m.state ≠ .waitRd)
    (hw : m.state ≠ .waitForWrite) : m.transfers w d = [] :=
  transfers_of_no_request (h.mRead_eq_false hr) (h.mWrite_eq_false hw)

/-- An accepted write goes on to the next element or completes the job. -/
lemma Progress.fsm_waitForWrite (h : Progress v j ws m l) (hm : m.state = .waitForWrite) :
    (∃ ws', Progress v j ws' (transitionMasterFSM v true r false d m)
        (l ++ m.transfers false d)) ∨
      ∃ ws', Finished v j ws' (transitionMasterFSM v true r false d m)
        (l ++ m.transfers false d) := by
  have hreq : Requests (transitionMasterFSM v true r false d m) := h.requests.fsm
  have hphase := h.phase
  simp only [Phase, hm] at hphase
  obtain ⟨hl, hdata, haddr⟩ := hphase
  have hwrite : m.transfers false d = [j.writeOf v ws.length m.dataRd] := by
    have hr := h.requests.mRead_eq_false (by simp [hm])
    have hw := h.requests.mWrite_iff.mpr hm
    simp [Master.transfers, hr, hw, haddr, hdata, Job.writeOf, h.requests.byteEnable (.inr hm)]
  have hl' : l ++ m.transfers false d = j.pairs v (ws ++ [m.dataRd]) := by
    rw [hwrite, hl, Job.pairs_concat]
  have hlen : (ws ++ [m.dataRd]).length = ws.length + 1 := by simp
  have hcnt := h.cntLgt
  by_cases hc : m.cntLgt > 0
  · -- the next element: both counters move on, the down counter is decremented
    rw [fsm_waitForWrite_next hm hc] at *
    have hsub := toNat_sub_one hc
    refine .inl ⟨ws ++ [m.dataRd], hreq, ?_, ?_, ?_, hl'⟩
    · rw [hlen, Job.readAddress, element_succ]
      exact congrArg (· + v.increment) h.cntAdd
    · rw [hlen, Job.writeAddress, element_succ]
      exact congrArg (· + v.increment) h.cntResultAdd
    · rw [hlen]
      change (m.cntLgt - 1).toNat + (ws.length + 1) = j.length.toNat
      omega
  · rw [fsm_waitForWrite_last hm hc] at *
    have hzero := toNat_eq_zero hc
    exact .inr ⟨ws ++ [m.dataRd], rfl, rfl, hreq, by rw [hlen]; omega, hl'⟩

/-- The step lemma: an edge of a job in progress goes on with the current element, goes on to the
next one, or completes the job. -/
lemma Progress.fsm (h : Progress v j ws m l) :
    (∃ ws', Progress v j ws' (transitionMasterFSM v true r w d m) (l ++ m.transfers w d)) ∨
      ∃ ws', Finished v j ws' (transitionMasterFSM v true r w d m) (l ++ m.transfers w d) := by
  have hreq : Requests (transitionMasterFSM v true r w d m) := h.requests.fsm
  have hphase := h.phase
  cases hm : m.state with
  | idle => exact absurd hm h.state_ne_idle
  | loadParameters => simp [Phase, hm] at hphase
  | rdAcc =>
    have hnil : m.transfers w d = [] := h.requests.transfers_eq_nil (by simp [hm]) (by simp [hm])
    simp only [Phase, hm] at hphase
    rw [hnil, List.append_nil, fsm_rdAcc hm] at *
    exact .inl ⟨ws, hreq, h.cntAdd, h.cntResultAdd, h.cntLgt, hphase, h.cntAdd⟩
  | waitRd =>
    cases w with
    | true => rw [fsm_waitRd_stall hm, transfers_stall, List.append_nil]; exact .inl ⟨ws, h⟩
    | false =>
      simp only [Phase, hm] at hphase
      have hread : m.transfers false d = [j.readOf v ws.length d] := by
        have hr := h.requests.mRead_iff.mpr hm
        have hw := h.requests.mWrite_eq_false (by simp [hm])
        simp [Master.transfers, hr, hw, hphase.2, Job.readOf]
      rw [hread, hphase.1, fsm_waitRd hm] at *
      exact .inl ⟨ws, hreq, h.cntAdd, h.cntResultAdd, h.cntLgt, rfl⟩
  | calculate =>
    have hnil : m.transfers w d = [] := h.requests.transfers_eq_nil (by simp [hm]) (by simp [hm])
    simp only [Phase, hm] at hphase
    rw [hnil, List.append_nil, fsm_calculate hm] at *
    exact .inl ⟨ws, hreq, h.cntAdd, h.cntResultAdd, h.cntLgt, hphase, rfl⟩
  | sendWriteRequest =>
    have hnil : m.transfers w d = [] := h.requests.transfers_eq_nil (by simp [hm]) (by simp [hm])
    simp only [Phase, hm] at hphase
    rw [hnil, List.append_nil, fsm_sendWriteRequest hm] at *
    exact .inl ⟨ws, hreq, h.cntAdd, h.cntResultAdd, h.cntLgt, hphase.1, hphase.2, h.cntResultAdd⟩
  | waitForWrite =>
    cases w with
    | true =>
      rw [fsm_waitForWrite_stall hm, transfers_stall, List.append_nil]; exact .inl ⟨ws, h⟩
    | false => exact h.fsm_waitForWrite hm

end Step

/-! ## The run of a job -/

section Run

variable {v : Variant} {e : Entity} {i : ℕ → Inputs} {t : ℕ}

/-- The finish flag in the cycles of a run. -/
def finishTrace (v : Variant) (e : Entity) (i : ℕ → Inputs) (t : ℕ) : Bool :=
  (run (Entity.step v) e i t).master.finish

/-- The transfers completed in the cycles before cycle `t`. -/
def transferLog (v : Variant) (e : Entity) (i : ℕ → Inputs) (t : ℕ) : List Transfer :=
  log Entity.transfers (Entity.step v) e i t

/-- The run lemma: from `LOAD_PARAMETERS` on, and up to the first rise of `finish`, every edge
leaves the job in progress or completes it. -/
theorem progress_or_finished (hload : e.master.state = .loadParameters)
    (hreq : Requests e.master) (hi : ∀ t, (i t).nReset = true)
    (ht : ∀ u < t, ¬ Rises (finishTrace v e i) u) :
    (∃ ws, Progress v e.regs.job ws (run (Entity.step v) e i (t + 1)).master
        (transferLog v e i (t + 1))) ∨
      ∃ ws, Finished v e.regs.job ws (run (Entity.step v) e i (t + 1)).master
        (transferLog v e i (t + 1)) := by
  induction t with
  | zero =>
    have hnil : e.transfers (i 0) = [] :=
      hreq.transfers_eq_nil (by simp [hload]) (by simp [hload])
    refine .inl ⟨[], ?_⟩
    rw [run_succ, run_zero, step_master (hi 0), transferLog, log_succ, log_zero, run_zero, hnil]
    exact progress_of_loadParameters hload hreq
  | succ t ih =>
    have h0 : finishTrace v e i 0 = false := hreq.busy (by simp [hload])
    have hlow : finishTrace v e i t = false :=
      low_of_not_rises h0 fun u hu => ht u (Nat.lt_succ_of_lt hu)
    rcases ih fun u hu => ht u (Nat.lt_succ_of_lt hu) with ⟨ws, h⟩ | ⟨ws, h⟩
    · rw [run_succ, step_master (hi (t + 1)), transferLog, log_succ]
      exact h.fsm
    · exact absurd ⟨hlow, h.finish⟩ (ht t (Nat.lt_succ_self t))

/-- As long as `finish` has not risen, the job is in progress. -/
lemma exists_progress (hload : e.master.state = .loadParameters) (hreq : Requests e.master)
    (hi : ∀ t, (i t).nReset = true) (hlow : ∀ u ≤ t + 1, finishTrace v e i u = false) :
    ∃ ws, Progress v e.regs.job ws (run (Entity.step v) e i (t + 1)).master
      (transferLog v e i (t + 1)) := by
  refine (progress_or_finished hload hreq hi fun u hu hr => ?_).resolve_right ?_
  · exact absurd ((hlow (u + 1) (by omega)).symm.trans hr.2) (by simp)
  · rintro ⟨ws, h⟩
    exact absurd ((hlow (t + 1) (le_refl _)).symm.trans h.finish) (by simp)

/-- When `finish` rises, the transfers completed since `LOAD_PARAMETERS` are those of `length + 1`
elements. -/
theorem finished_of_firstRise (hload : e.master.state = .loadParameters)
    (hreq : Requests e.master) (hi : ∀ t, (i t).nReset = true)
    (ht : FirstRise (finishTrace v e i) t) :
    ∃ ws, Finished v e.regs.job ws (run (Entity.step v) e i (t + 1)).master
      (transferLog v e i (t + 1)) := by
  refine (progress_or_finished hload hreq hi ht.2).resolve_left ?_
  rintro ⟨ws, h⟩
  exact absurd (h.finish.symm.trans ht.1.2) (by simp)

end Run

end CyclonRtes.Swap
