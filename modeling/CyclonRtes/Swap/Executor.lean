import Mathlib.Algebra.Ring.Parity
import CyclonRtes.Swap.OnBus

/-!
# The accelerator as an executor of jobs

What the accelerator is for, over a whole session: the jobs that it loads are carried out one after
the other, each of them completely.  A session is a run without reset in which the slave port may do
anything at any time, the bus may stall and another master may write outside the words of the jobs.
`loaded` is the history of the jobs whose parameters the machine has copied, and `execute` what they
make of a memory, one after the other.

In every cycle of a session in which the machine is not at work the memory is the one that `execute`
computes; while it is at work, an initial part of the last job has been carried out
(`executes_inOrder`).  In particular a processor that reads a set finish flag finds all jobs carried
out, whenever and however often it has started them.

For the reshuffling accelerator this makes jobs in place their own undo: after an even number of
them the memory is as it was (`inPlace_undo`).
-/

namespace CyclonRtes.Swap

open Synchronous Storage

namespace OnBus

section History

variable (v : Variant)

/-- What the jobs of a list make of a memory, one after the other. -/
def execute (js : List Job) (M : Memory) : Memory := js.foldl (fun M j => outcome v j M) M

/-- One more job acts on the memory that the earlier ones left. -/
lemma execute_concat (js : List Job) (j : Job) (M : Memory) :
    execute v (js ++ [j]) M = outcome v j (execute v js M) := by
  simp [execute, List.foldl_append]

/-- The job whose parameters are copied at the end of a cycle. -/
def loads (s : OnBus) (_x : BusInputs) : List Job :=
  if s.entity.master.state = .loadParameters then [s.entity.regs.job] else []

/-- The jobs loaded in the cycles before cycle `t`, oldest first. -/
def loaded (s : OnBus) (x : ℕ → BusInputs) (t : ℕ) : List Job := log loads (step v) s x t

end History

/-- On the words of `S`, which held `M₀` at first, the jobs `js` have been carried out in order. -/
structure InOrder (v : Variant) (S : Set (BitVec 30)) (M₀ : Memory) (js : List Job) (s : OnBus) :
    Prop where
  /-- A machine that has set the finish flag is idle. -/
  finished : s.entity.master.finish = true → s.entity.master.state = .idle
  /-- Before a job and after it, all jobs loaded so far have been carried out. -/
  settled : s.entity.master.state = .idle ∨ s.entity.master.state = .loadParameters →
    ∀ a ∈ S, s.mem a = execute v js M₀ a
  /-- During a job, all jobs before it have been carried out and some of its elements. -/
  underway : s.entity.master.state ≠ .idle → s.entity.master.state ≠ .loadParameters →
    ∃ js' j k, js = js' ++ [j] ∧ k ≤ j.length.toNat ∧ ∀ a ∈ S, s.mem a =
      mapSeq v.image (sourceIndex v j) (destinationIndex v j) k (execute v js' M₀) a

/-! ## The invariant of a session -/

/-- The machine is idle, or loads a job, or works on the last of the jobs `js`. -/
inductive Executing (v : Variant) (S : Set (BitVec 30)) (M₀ : Memory) : List Job → OnBus → Prop
  | idle {js : List Job} {s : OnBus} (hidle : s.entity.master.state = .idle)
      (hreq : Requests s.entity.master) (hM : ∀ a ∈ S, s.mem a = execute v js M₀ a) :
      Executing v S M₀ js s
  | loading {js : List Job} {s : OnBus} (h : Loading s.entity.regs.job S (execute v js M₀) s) :
      Executing v S M₀ js s
  | working {js : List Job} {j : Job} {s : OnBus} (h : Working v j S (execute v js M₀) s) :
      Executing v S M₀ (js ++ [j]) s

section Step

variable {v : Variant} {S : Set (BitVec 30)} {M₀ : Memory} {js : List Job} {j : Job} {s : OnBus}
  {x : BusInputs}

/-- Outside `LOAD_PARAMETERS` no job is loaded. -/
lemma loads_of_ne (h : s.entity.master.state ≠ .loadParameters) : s.loads x = [] := if_neg h

/-- In `LOAD_PARAMETERS` the job of the registers is loaded. -/
lemma loads_of_eq (h : s.entity.master.state = .loadParameters) :
    s.loads x = [s.entity.regs.job] := if_pos h

/-- A machine at work loads no job. -/
lemma Working.state_ne (h : Working v j S M₀ s) :
    s.entity.master.state ≠ .idle ∧ s.entity.master.state ≠ .loadParameters := by
  obtain ⟨ws, l, hprog, -⟩ := h
  refine ⟨hprog.state_ne_idle, fun hm => ?_⟩
  have hphase := hprog.phase
  simp [Phase, hm] at hphase

/-- A cycle with the slave port deselected.  An access to the slave port changes neither the master
registers nor the memory in its own cycle. -/
def deselected (x : BusInputs) : BusInputs := { x with slave := x.slave.deselect }

lemma undisturbed_deselected (hx : x.nReset = true) (ho : ∀ a ∈ S, ∀ d, x.other ≠ some (a, d)) :
    Undisturbed S (deselected x) :=
  ⟨hx, rfl, ho⟩

/-- An idle machine stays idle or goes on to load a job. -/
lemma executing_of_idle (hidle : s.entity.master.state = .idle)
    (hreq : Requests s.entity.master) (hM : ∀ a ∈ S, s.mem a = execute v js M₀ a)
    (hx : x.nReset = true) (ho : ∀ a ∈ S, ∀ d, x.other ≠ some (a, d)) :
    Executing v S M₀ js (s.step v x) := by
  have hmaster : (s.step v x).entity.master = _ := step_master (i := s.inputs x) hx
  have hreq' : Requests (s.step v x).entity.master := hreq.step
  have hM' : ∀ a ∈ S, (s.step v x).mem a = execute v js M₀ a := fun a ha =>
    (mem_of_idle ho hreq hidle ha).trans (hM a ha)
  cases hs : s.entity.regs.start with
  | false =>
    rw [fsm_idle hidle hs] at hmaster
    exact .idle (by rw [hmaster]; exact hidle) hreq' hM'
  | true =>
    rw [fsm_idle_start hidle hs] at hmaster
    exact .loading ⟨by rw [hmaster], hreq', rfl, hM'⟩

/-- The step lemma: a session goes on, and a job that is loaded joins the history. -/
lemma Executing.step (h : Executing v S M₀ js s) (hS : ∀ j ∈ js, area v j ⊆ S)
    (hx : x.nReset = true) (ho : ∀ a ∈ S, ∀ d, x.other ≠ some (a, d)) :
    Executing v S M₀ (js ++ s.loads x) (s.step v x) := by
  cases h with
  | idle hidle hreq hM =>
    rw [loads_of_ne (by simp [hidle]), List.append_nil]
    exact executing_of_idle hidle hreq hM hx ho
  | loading h =>
    rw [loads_of_eq h.state]
    have hw := h.step (v := v) (undisturbed_deselected hx ho)
    exact .working hw
  | @working js j s h =>
    rw [loads_of_ne h.state_ne.2, List.append_nil]
    rcases h.step (hS j (by simp)) (undisturbed_deselected hx ho) with hw | hd
    · exact .working hw
    · refine .idle hd.idle hd.requests fun a ha => ?_
      rw [execute_concat]
      exact hd.mem a ha

/-- A machine at work has carried out the first elements of its job. -/
lemma Working.exists_mapSeq (h : Working v j S M₀ s) :
    ∃ k ≤ j.length.toNat, ∀ a ∈ S,
      s.mem a = mapSeq v.image (sourceIndex v j) (destinationIndex v j) k M₀ a := by
  obtain ⟨ws, l, hprog, hserv⟩ := h
  have hcnt := hprog.cntLgt
  refine ⟨ws.length, by omega, fun a ha => ?_⟩
  have hanswered := hserv.answered
  rw [hserv.mem a ha]
  rcases hprog.transfers with rfl | ⟨w, rfl⟩
  · rw [replay_pairs hanswered]
  · -- the read of one more element leaves the memory alone
    rw [Memory.replay_concat, ← replay_pairs (Memory.answered_append.mp hanswered).1]
    rfl

/-- What the invariant says about the memory. -/
lemma Executing.inOrder (h : Executing v S M₀ js s) : InOrder v S M₀ js s := by
  cases h with
  | idle hidle hreq hM =>
    exact ⟨fun _ => hidle, fun _ => hM, fun hne => absurd hidle hne⟩
  | loading h =>
    refine ⟨fun hf => ?_, fun _ => h.mem, fun _ hne => absurd h.state hne⟩
    exact absurd (h.requests.busy (by simp [h.state])) (by simp [hf])
  | @working js j s h =>
    refine ⟨fun hf => ?_, fun hst => ?_, fun _ _ => ?_⟩
    · obtain ⟨ws, l, hprog, -⟩ := h
      exact absurd hprog.finish (by simp [hf])
    · exact (hst.elim h.state_ne.1 h.state_ne.2).elim
    · obtain ⟨k, hk, hmem⟩ := h.exists_mapSeq
      exact ⟨js, j, k, rfl, hk, hmem⟩

end Step

section Session

variable {v : Variant} {S : Set (BitVec 30)} {s : OnBus} {x : ℕ → BusInputs} {t : ℕ}

/-- The run lemma: the invariant holds in every cycle of a session. -/
lemma executing_run (hs : PowerUp s.entity) (hx : ∀ t, (x t).nReset = true)
    (ho : ∀ t, ∀ a ∈ S, ∀ d, (x t).other ≠ some (a, d))
    (hS : ∀ j ∈ loaded v s x t, area v j ⊆ S) :
    Executing v S s.mem (loaded v s x t) (run (step v) s x t) := by
  induction t with
  | zero => exact .idle hs.1 (requests_of_powerUp hs) fun _ _ => rfl
  | succ t ih =>
    rw [loaded, log_succ] at hS ⊢
    have hS' : ∀ j ∈ loaded v s x t, area v j ⊆ S := fun j hj => hS j (List.mem_append_left _ hj)
    exact (ih hS').step hS' (hx t) (ho t)

/-- The accelerator carries out the jobs that it loads completely and in order.  From power-up and
without a reset, for all accesses to the slave port, all stalls of the bus and all writes of another
master outside the words of the jobs. -/
theorem executes_inOrder (hs : PowerUp s.entity) (hx : ∀ t, (x t).nReset = true)
    (ho : ∀ t, ∀ a ∈ S, ∀ d, (x t).other ≠ some (a, d))
    (hS : ∀ j ∈ loaded v s x t, area v j ⊆ S) :
    InOrder v S s.mem (loaded v s x t) (run (step v) s x t) :=
  (executing_run hs hx ho hS).inOrder

end Session

/-! ## Jobs in place -/

section InPlace

variable {j : Job} {M : Memory}

/-- A job in place reshuffles the words of its area. -/
lemma outcome_inPlace (hj : j.source = j.destination) (hlen : j.length.toNat + 1 ≤ 2 ^ 30)
    {a : BitVec 30} (ha : a ∈ area customInstruction j) :
    outcome customInstruction j M a = reshuffle (M a) := by
  have hindex : sourceIndex customInstruction j = destinationIndex customInstruction j := by
    funext i
    simp [sourceIndex, destinationIndex, Job.readAddress, Job.writeAddress, hj]
  have hinj : ∀ i < j.length.toNat + 1, ∀ k < j.length.toNat + 1,
      destinationIndex customInstruction j i = destinationIndex customInstruction j k → i = k :=
    fun i hi k hk => wordIndex_element_inj j.destination (by omega) (by omega)
  obtain ⟨i, hi, ha⟩ := ha
  obtain rfl : a = destinationIndex customInstruction j i := by simpa [hindex] using ha
  rw [outcome, hindex]
  refine mapSeq_dst hinj (fun i k hik hk h => ?_) (Nat.lt_succ_of_le hi)
  exact absurd (hinj i (by omega) k hk h) (by omega)

/-- A job leaves the words outside its area alone. -/
lemma outcome_of_notMem {v : Variant} {a : BitVec 30} (ha : a ∉ area v j) :
    outcome v j M a = M a :=
  mapSeq_of_forall_ne fun i hi h => ha ⟨i, Nat.le_of_lt_succ hi, .inr h.symm⟩

/-- Repeating a job in place repeats the reshuffling of each word. -/
lemma execute_replicate (hj : j.source = j.destination) (hlen : j.length.toNat + 1 ≤ 2 ^ 30)
    {a : BitVec 30} (ha : a ∈ area customInstruction j) (n : ℕ) :
    execute customInstruction (List.replicate n j) M a = reshuffle^[n] (M a) := by
  induction n with
  | zero => rfl
  | succ n ih =>
    rw [List.replicate_succ', execute_concat, outcome_inPlace hj hlen ha, ih,
      Function.iterate_succ_apply']

/-- Repeating a job leaves the words outside its area alone. -/
lemma execute_replicate_of_notMem {v : Variant} {a : BitVec 30} (ha : a ∉ area v j) (n : ℕ) :
    execute v (List.replicate n j) M a = M a := by
  induction n with
  | zero => rfl
  | succ n ih => rw [List.replicate_succ', execute_concat, outcome_of_notMem ha, ih]

variable {S : Set (BitVec 30)} {s : OnBus} {x : ℕ → BusInputs} {t n : ℕ}

/-- Jobs in place undo each other.  When the machine is idle after `n` times the same job in place,
the memory is as it was if `n` is even; if `n` is odd, the words of the job are reshuffled and the
others as they were. -/
theorem inPlace_undo (hs : PowerUp s.entity) (hx : ∀ t, (x t).nReset = true)
    (ho : ∀ t, ∀ a ∈ S, ∀ d, (x t).other ≠ some (a, d)) (hj : j.source = j.destination)
    (hlen : j.length.toNat + 1 ≤ 2 ^ 30) (hS : area customInstruction j ⊆ S)
    (hn : loaded customInstruction s x t = List.replicate n j)
    (hidle : (run (step customInstruction) s x t).entity.master.state = .idle) :
    (Even n → ∀ a ∈ S, (run (step customInstruction) s x t).mem a = s.mem a) ∧
      (¬ Even n → ∀ a ∈ S, (run (step customInstruction) s x t).mem a =
        open Classical in
        if a ∈ area customInstruction j then reshuffle (s.mem a) else s.mem a) := by
  have hmem : ∀ a ∈ S, (run (step customInstruction) s x t).mem a =
      execute customInstruction (List.replicate n j) s.mem a := by
    intro a ha
    have h := executing_run hs hx ho (t := t) (v := customInstruction) fun k hk => by
      rw [hn] at hk
      rwa [List.eq_of_mem_replicate hk]
    rw [← hn]
    exact h.inOrder.settled (.inl hidle) a ha
  have hinv : Function.Involutive reshuffle := reshuffle_reshuffle
  refine ⟨fun heven a ha => ?_, fun hodd a ha => ?_⟩
  · rw [hmem a ha]
    by_cases harea : a ∈ area customInstruction j
    · rw [execute_replicate hj hlen harea, hinv.iterate_even heven, id]
    · exact execute_replicate_of_notMem harea n
  · rw [hmem a ha]
    split_ifs with harea
    · rw [execute_replicate hj hlen harea, hinv.iterate_odd (Nat.not_even_iff_odd.mp hodd)]
    · exact execute_replicate_of_notMem harea n

end InPlace

/-! ### Two calls in place -/

section TwoCalls

/-- Two words at `0x1000` are reshuffled in place.  The second start command comes in cycle 40, and
in between the start register is read. -/
def twoCalls (t : ℕ) : BusInputs where
  nReset := true
  slave :=
    match t with
    | 0 => .iowr32Direct 0 0x1000
    | 1 => .iowr32Direct 4 1
    | 2 => .iowr32Direct 12 0x1000
    | 3 | 40 => .iowr32Direct 8 1
    | _ => .iord32Direct 8
  mWaitRequest := t % 2 == 0
  idleData := 0
  other := none

/-- The accelerator at power-up, with a memory that holds the same word everywhere. -/
def powerUp : OnBus := ⟨Entity.zero, fun _ => 0x12345678⟩

/-- The theorem in the middle of the second job. -/
theorem executes_inOrder_twoCalls :
    loaded customInstruction powerUp twoCalls 50 = [⟨0x1000, 0x1000, 1⟩, ⟨0x1000, 0x1000, 1⟩] ∧
      InOrder customInstruction Set.univ powerUp.mem (loaded customInstruction powerUp twoCalls 50)
        (run (step customInstruction) powerUp twoCalls 50) :=
  ⟨by decide +kernel, executes_inOrder powerUp_zero (fun _ => rfl)
    (fun _ _ _ _ => by simp [twoCalls]) fun _ _ => Set.subset_univ _⟩

/-- The second job undoes the first one. -/
theorem inPlace_undo_twoCalls :
    (run (step customInstruction) powerUp twoCalls 70).mem (wordIndex 0x1004) = 0x12345678 :=
  (inPlace_undo (S := Set.univ) (j := ⟨0x1000, 0x1000, 1⟩) (n := 2) powerUp_zero (fun _ => rfl)
    (fun _ _ _ _ => by simp [twoCalls]) rfl (by decide) (Set.subset_univ _)
    (by decide +kernel) (by decide +kernel)).1 (by decide) _ (Set.mem_univ _)

end TwoCalls

end OnBus

end CyclonRtes.Swap
