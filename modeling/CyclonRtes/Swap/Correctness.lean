import CyclonRtes.Swap.OnBus

/-!
# Functional correctness of a job

A job of the accelerator of `custom_instruction_profiling`, started on an idle machine, leaves the
reshuffled source words in the result words (`job_correct`).  Source and result may overlap as long
as no source word is overwritten before the machine has read it; the additional word that the
machine processes does no harm to the others.
-/

namespace CyclonRtes.Swap

open Synchronous

/-- The finish flag in the cycles of a run on the bus. -/
def OnBus.finishTrace (v : Variant) (s : OnBus) (x : ℕ → BusInputs) (t : ℕ) : Bool :=
  (run (OnBus.step v) s x t).entity.master.finish

section Job

variable {D R n : Word}

/-- The words at aligned addresses differ when the addresses do. -/
lemma wordIndex_element_ne (hD : WordAligned D) (hR : WordAligned R) {i k : ℕ}
    (h : element R 4 i ≠ element D 4 k) :
    wordIndex (element R 4 i) ≠ wordIndex (element D 4 k) := fun heq =>
  h (wordIndex_inj ((wordAligned_element_four R i).mpr hR) ((wordAligned_element_four D k).mpr hD)
    heq)

/-- The result words of a job on aligned buffers hold the reshuffled source words. -/
lemma outcome_element (hn : n.toNat + 1 ≤ 2 ^ 30) (hD : WordAligned D) (hR : WordAligned R)
    (hsep : ∀ i k, i < k → k < n.toNat → element R 4 i ≠ element D 4 k) (M : Memory) {i : ℕ}
    (hi : i < n.toNat) :
    OnBus.outcome customInstruction ⟨D, R, n⟩ M (wordIndex (element R 4 i)) =
      reshuffle (M (wordIndex (element D 4 i))) := by
  refine OnBus.outcome_destination (v := customInstruction) (j := ⟨D, R, n⟩)
    (fun i hi k hk h => ?_) (fun i k hik hk => ?_) hi
  · exact wordIndex_element_inj R (by change i ≤ n.toNat at hi; omega)
      (by change k ≤ n.toNat at hk; omega) h
  · exact wordIndex_element_ne hD hR (hsep i k hik hk)

end Job

/-- From the cycle in which an idle machine has the start pulse, an undisturbed job is under way. -/
lemma underway_of_run {v : Variant} {s : OnBus} {x : ℕ → BusInputs} {S : Set (BitVec 30)}
    (hidle : s.entity.master.state = .idle) (hstart : s.entity.regs.start = true)
    (hreq : Requests s.entity.master) (hS : OnBus.area v s.entity.regs.job ⊆ S)
    (hx : ∀ t, OnBus.Undisturbed S (x t)) (t : ℕ) :
    OnBus.Underway v s.entity.regs.job S s.mem (run (OnBus.step v) s x (t + 1)) := by
  induction t with
  | zero =>
    rw [run_succ, run_zero]
    exact ⟨OnBus.start_step (hx 0),
      .inl (OnBus.loading_of_start hidle hstart hreq (fun _ _ => rfl) (hx 0))⟩
  | succ t ih =>
    rw [run_succ]
    exact ih.step hS (hx (t + 1))

/-- A completed job stays completed in an undisturbed run. -/
lemma done_of_run {v : Variant} {s : OnBus} {x : ℕ → BusInputs} {S : Set (BitVec 30)} {j : Job}
    {M : Memory} (h : OnBus.Done v j S M s) (hs : s.entity.regs.start = false)
    (hx : ∀ t, OnBus.Undisturbed S (x t)) (t : ℕ) :
    OnBus.Done v j S M (run (OnBus.step v) s x t) := by
  have hinv : OnBus.Done v j S M (run (OnBus.step v) s x t) ∧
      (run (OnBus.step v) s x t).entity.regs.start = false := by
    induction t with
    | zero => exact ⟨h, hs⟩
    | succ t ih =>
      rw [run_succ]
      exact ⟨ih.1.step ih.2 (hx t).nReset (hx t).other, OnBus.start_step (hx t)⟩
  exact hinv.1

/-- The start pulse of an idle machine leads to a rise of `finish` on every bus that does not stall
for ever. -/
theorem exists_firstRise_of_start {v : Variant} {s : OnBus} {x : ℕ → BusInputs}
    (hidle : s.entity.master.state = .idle) (hstart : s.entity.regs.start = true)
    (hreq : Requests s.entity.master) (hi : ∀ t, (x t).nReset = true)
    (hfair : ∀ t, ∃ u, t ≤ u ∧ (x u).mWaitRequest = false) :
    ∃ u, FirstRise (OnBus.finishTrace v s x) u := by
  have hload : (s.step v (x 0)).entity.master.state = .loadParameters := by
    rw [OnBus.step_entity, step_master (i := s.inputs (x 0)) (hi 0), fsm_idle_start hidle hstart]
  have hreq' : Requests (s.step v (x 0)).entity.master := hreq.step
  -- from the next cycle on the accelerator makes a run of its own
  have hshift : ∀ t, OnBus.finishTrace v s x (1 + t) = finishTrace v (s.step v (x 0)).entity
      (OnBus.inputTrace v (s.step v (x 0)) fun k => x (1 + k)) t := by
    intro t
    rw [OnBus.finishTrace, run_add, OnBus.entity_run]
    rfl
  obtain ⟨t, ht⟩ := exists_firstRise_of_fair (v := v) (e := (s.step v (x 0)).entity)
    (i := OnBus.inputTrace v (s.step v (x 0)) fun k => x (1 + k)) hload hreq' (fun t => hi _)
    fun t => by
      obtain ⟨u, htu, hu⟩ := hfair (1 + t)
      exact ⟨u - 1, by omega, by
        have hu1 : 1 + (u - 1) = u := by omega
        simpa [OnBus.inputTrace, OnBus.inputs, hu1] using hu⟩
  have hrise : Rises (OnBus.finishTrace v s x) (1 + t) := by
    have h0 := ht.1.1
    have h1 := ht.1.2
    rw [← hshift] at h0 h1
    exact ⟨h0, h1⟩
  obtain ⟨u, -, hu⟩ := hrise.exists_firstRise
  exact ⟨u, hu⟩

/-- Functional correctness of one job.  An idle machine with the start pulse and programmed with
source `D`, length `n` and destination `R` runs on a bus with memory `M`; the slave port sees reads
only and no other master writes.  From the next rise of `finish` on, each of the `n` result words
holds the reshuffled source word, for all stalls of the bus and for all buffers in which no source
word is overwritten before it has been read. -/
theorem job_correct {e : Entity} {M : Memory} {x : ℕ → BusInputs} {D R n : Word}
    (he : Reachable PowerUp (Entity.step customInstruction) e)
    (hidle : e.master.state = .idle) (hregs : e.regs = ⟨D, n, R, true⟩)
    (hn : n.toNat + 1 ≤ 2 ^ 30) (hD : WordAligned D) (hR : WordAligned R)
    (hsep : ∀ i k, i < k → k < n.toNat → element R 4 i ≠ element D 4 k)
    (hx : ∀ t, (x t).nReset = true ∧ (x t).slave.writes = false ∧ (x t).other = none)
    {u : ℕ} (hu : FirstRise (OnBus.finishTrace customInstruction ⟨e, M⟩ x) u) {t : ℕ} (ht : u < t)
    {i : ℕ} (hi : i < n.toNat) :
    (run (OnBus.step customInstruction) ⟨e, M⟩ x t).mem (wordIndex (element R 4 i)) =
      reshuffle (M (wordIndex (element D 4 i))) := by
  have hundisturbed : ∀ t, OnBus.Undisturbed Set.univ (x t) := fun t =>
    ⟨(hx t).1, (hx t).2.1, fun a _ d => by simp [(hx t).2.2]⟩
  have hunderway := underway_of_run (v := customInstruction) (s := ⟨e, M⟩) hidle
    (by rw [hregs]) (requests_of_reachable he) (Set.subset_univ _) hundisturbed u
  have hjob : e.regs.job = ⟨D, R, n⟩ := by rw [hregs]; rfl
  obtain ⟨k, rfl⟩ := Nat.exists_eq_add_of_lt ht
  have hdone : OnBus.Done customInstruction ⟨D, R, n⟩ Set.univ M
      (run (OnBus.step customInstruction) ⟨e, M⟩ x (u + 1 + k)) := by
    rw [run_add, ← hjob]
    exact done_of_run (hunderway.done hu.1.2) hunderway.start (fun t => hundisturbed _) k
  rw [Nat.add_right_comm, hdone.mem _ (Set.mem_univ _)]
  exact outcome_element hn hD hR hsep M hi

/-- Two words are reshuffled in place, on a bus that stalls every other cycle. -/
theorem job_correct_inPlace :
    let e := run (Entity.step customInstruction) Entity.zero (Call.inputs ⟨0x1000, 0x1000, 2⟩ 0) 4
    let x : ℕ → BusInputs := fun t =>
      { nReset := true, slave := readFinish, mWaitRequest := t % 2 == 0, idleData := 0,
        other := none }
    (run (OnBus.step customInstruction) ⟨e, fun _ => 0x12345678⟩ x 25).mem
      (wordIndex (element 0x1000 4 1)) = 0x786A2C12 := by
  intro e x
  have h := job_correct (e := e) (M := fun _ => 0x12345678) (x := x) (D := 0x1000) (R := 0x1000)
    (n := 2) (reachable_run powerUp_zero _ _) (by decide +kernel) (by decide +kernel)
    (by decide) (by decide) (by decide)
    (fun i k hik hk => by
      obtain ⟨rfl, rfl⟩ : i = 0 ∧ k = 1 := by
        change k < 2 at hk
        omega
      decide)
    (fun t => ⟨rfl, rfl, rfl⟩) (u := 19) (by decide +kernel) (t := 25) (by decide) (i := 1)
    (by decide)
  rw [h]
  decide

end CyclonRtes.Swap
