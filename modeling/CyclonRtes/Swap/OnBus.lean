import CyclonRtes.Storage.ElementwiseMap
import CyclonRtes.Swap.Service
import CyclonRtes.Swap.Termination

/-!
# The accelerator on a bus with memory

The entity together with the memory behind its master port.  The memory answers a read in the cycle
in which `mRead` is high and `mWaitRequest` is low, and performs a write in the cycle in which
`mWrite` is high and `mWaitRequest` is low.  Another master may write to the same memory.

`Serving` relates the memory of a run to the list of transfers that the accelerator has completed:
on a set of protected words, which the other master leaves alone, the memory is the replay of the
list, and every read in the list was answered accordingly.  Combined with the progress of a job this
gives the memory after the job as an element-by-element map of the memory before it: `Underway` is
the invariant of a bus on which a job has been started and the slave port is not written.
-/

namespace CyclonRtes.Swap

open Synchronous Storage

/-- The environment of the accelerator and its memory in one clock cycle.  `idleData` is what
`mReadData` shows while no read is answered, `other` a word that another master writes. -/
structure BusInputs where
  nReset : Bool
  slave : SlavePort
  mWaitRequest : Bool
  idleData : Word
  other : Option (BitVec 30 × Word)
  deriving DecidableEq, Repr

/-- The accelerator and the memory behind its master port. -/
structure OnBus where
  entity : Entity
  mem : Memory

namespace OnBus

/-- What the accelerator sees in a cycle: an accepted read is answered from the memory. -/
def inputs (s : OnBus) (x : BusInputs) : Inputs where
  nReset := x.nReset
  slave := x.slave
  mWaitRequest := x.mWaitRequest
  mReadData :=
    if s.entity.master.mRead && !x.mWaitRequest then s.mem (wordIndex s.entity.master.mAddress)
    else x.idleData

/-- The memory after the write of another master, if there is one. -/
def writeOther (M : Memory) : Option (BitVec 30 × Word) → Memory
  | none => M
  | some (a, d) => Function.update M a d

/-- The transfers completed in a cycle. -/
def transfers (s : OnBus) (x : BusInputs) : List Transfer := s.entity.transfers (s.inputs x)

/-- One rising edge of the clock. -/
def step (v : Variant) (s : OnBus) (x : BusInputs) : OnBus where
  entity := s.entity.step v (s.inputs x)
  mem := writeOther (s.mem.replay (s.transfers x)) x.other

/-- The accelerator makes the step of the entity. -/
lemma step_entity (v : Variant) (s : OnBus) (x : BusInputs) :
    (s.step v x).entity = s.entity.step v (s.inputs x) := rfl

/-- The memory performs the transfers of the cycle and the write of the other master. -/
lemma step_mem (v : Variant) (s : OnBus) (x : BusInputs) :
    (s.step v x).mem = writeOther (s.mem.replay (s.transfers x)) x.other := rfl

/-- A word that the other master does not write keeps its content. -/
lemma writeOther_of_ne {M : Memory} {o : Option (BitVec 30 × Word)} {a : BitVec 30}
    (h : ∀ d, o ≠ some (a, d)) : writeOther M o a = M a := by
  rcases o with _ | ⟨b, d⟩
  · rfl
  · have hne : a ≠ b := fun hab => h d (by rw [hab])
    exact Function.update_of_ne hne _ _

section Run

variable (v : Variant) (s : OnBus) (x : ℕ → BusInputs)

/-- What the accelerator sees in the cycles of a run. -/
def inputTrace (t : ℕ) : Inputs := (run (step v) s x t).inputs (x t)

/-- Seen from the accelerator, a run on the bus is a run of the entity. -/
lemma entity_run (t : ℕ) :
    (run (step v) s x t).entity = run (Entity.step v) s.entity (inputTrace v s x) t := by
  induction t with
  | zero => rfl
  | succ t ih => rw [run_succ, run_succ, ← ih]; rfl

end Run

/-! ## The memory and the transfers -/

/-- On the words of `S` the memory `M` is what the transfers `l` made of `M₀`, and every read
among them was answered accordingly. -/
structure Serving (S : Set (BitVec 30)) (M₀ : Memory) (l : List Transfer) (M : Memory) : Prop where
  answered : M₀.Answered l
  mem : ∀ a ∈ S, M a = M₀.replay l a

section Serving

variable {v : Variant} {S : Set (BitVec 30)} {M₀ M : Memory} {l : List Transfer} {s : OnBus}
  {x : BusInputs}

/-- Before the first transfer the memory is as it was. -/
lemma serving_nil (hM : ∀ a ∈ S, M a = M₀ a) : Serving S M₀ [] M :=
  ⟨trivial, hM⟩

/-- A completed read is answered from the memory. -/
lemma answers_of_mem_transfers
    (h : ¬ (s.entity.master.mRead = true ∧ s.entity.master.mWrite = true))
    (hS : s.entity.master.mRead = true → wordIndex s.entity.master.mAddress ∈ S)
    (hM : ∀ a ∈ S, s.mem a = M a) : M.Answered (s.transfers x) := by
  cases hr : s.entity.master.mRead with
  | false =>
    cases hw : s.entity.master.mWrite && !x.mWaitRequest <;>
      simp [transfers, Entity.transfers, Master.transfers, inputs, hr, hw, Memory.Answered,
        Memory.Answers]
  | true =>
    have hw : s.entity.master.mWrite = false := by simpa [hr] using h
    cases hx : x.mWaitRequest with
    | true =>
      simp [transfers, Entity.transfers, Master.transfers, inputs, hx, Memory.Answered]
    | false =>
      simp [transfers, Entity.transfers, Master.transfers, inputs, hr, hw, hx, Memory.Answered,
        Memory.Answers, hM _ (hS hr)]

/-- One cycle adds its transfers, provided that reads stay within the protected words and the other
master stays outside. -/
lemma Serving.step (h : Serving S M₀ l s.mem) (hreq : Requests s.entity.master)
    (hS : s.entity.master.mRead = true → wordIndex s.entity.master.mAddress ∈ S)
    (hx : ∀ a ∈ S, ∀ d, x.other ≠ some (a, d)) :
    Serving S M₀ (l ++ s.transfers x) (s.step v x).mem := by
  have hexcl : ¬ (s.entity.master.mRead = true ∧ s.entity.master.mWrite = true) := by
    rintro ⟨hr, hw⟩
    exact absurd ((hreq.mRead_iff.mp hr).symm.trans (hreq.mWrite_iff.mp hw)) (by simp)
  constructor
  · exact Memory.answered_append.mpr ⟨h.answered, answers_of_mem_transfers hexcl hS h.mem⟩
  · intro a ha
    rw [step_mem, writeOther_of_ne (hx a ha), Memory.replay_append]
    exact Memory.replay_congr (h.mem a ha) _

end Serving

/-! ## A job and its memory -/

section Job

variable (v : Variant) (j : Job)

/-- The index of the word that the `i`-th read of a job is about. -/
def sourceIndex (i : ℕ) : BitVec 30 := wordIndex (j.readAddress v i)

/-- The index of the word that the `i`-th write of a job is about. -/
def destinationIndex (i : ℕ) : BitVec 30 := wordIndex (j.writeAddress v i)

/-- The words that a job reads and writes. -/
def area : Set (BitVec 30) :=
  {a | ∃ i ≤ j.length.toNat, a = sourceIndex v j i ∨ a = destinationIndex v j i}

/-- What a job makes of a memory. -/
def outcome (M : Memory) : Memory :=
  mapSeq v.image (sourceIndex v j) (destinationIndex v j) (j.length.toNat + 1) M

variable {v j}

/-- The transfers of a job make of the memory what an element-by-element map does. -/
lemma replay_pairs {M : Memory} {ws : List Word} (h : M.Answered (j.pairs v ws)) :
    M.replay (j.pairs v ws) =
      mapSeq v.image (sourceIndex v j) (destinationIndex v j) ws.length M := by
  induction ws using List.reverseRecOn with
  | nil => rfl
  | append_singleton ws w ih =>
    rw [Job.pairs_concat, List.append_assoc, Memory.answered_append] at h
    obtain ⟨hws, hread, -⟩ := h
    have hw : w = M.replay (j.pairs v ws) (sourceIndex v j ws.length) := hread
    rw [ih hws] at hw
    rw [Job.pairs_concat, Memory.replay_concat, Memory.replay_concat, ih hws, List.length_append,
      List.length_singleton, mapSeq_succ, ← hw, Job.writeOf, Memory.apply]
    exact congrArg (Function.update _ _) (mergeBytes_all _ _)

/-- A job in progress reads within its area. -/
lemma mem_area_of_progress {ws : List Word} {m : Master} {l : List Transfer}
    (h : Progress v j ws m l) (hr : m.mRead = true) : wordIndex m.mAddress ∈ area v j := by
  have hphase := h.phase
  rw [Phase, h.requests.mRead_iff.mp hr] at hphase
  have hcnt := h.cntLgt
  exact ⟨ws.length, by omega, .inl (congrArg wordIndex hphase.2)⟩

/-- The machine is about to load the parameters of the job `j`; the memory is `M₀` on `S`. -/
structure Loading (j : Job) (S : Set (BitVec 30)) (M₀ : Memory) (s : OnBus) : Prop where
  state : s.entity.master.state = .loadParameters
  requests : Requests s.entity.master
  job : s.entity.regs.job = j
  mem : ∀ a ∈ S, s.mem a = M₀ a

/-- The job `j`, which began with the memory `M₀` on `S`, is in progress. -/
def Working (v : Variant) (j : Job) (S : Set (BitVec 30)) (M₀ : Memory) (s : OnBus) : Prop :=
  ∃ ws l, Progress v j ws s.entity.master l ∧ Serving S M₀ l s.mem

/-- The job `j`, which began with the memory `M₀` on `S`, is completed. -/
structure Done (v : Variant) (j : Job) (S : Set (BitVec 30)) (M₀ : Memory) (s : OnBus) : Prop where
  idle : s.entity.master.state = .idle
  finish : s.entity.master.finish = true
  requests : Requests s.entity.master
  mem : ∀ a ∈ S, s.mem a = outcome v j M₀ a

/-- The job `j`, which began with the memory `M₀` on `S`, has been started and no other start
command is pending. -/
structure Underway (v : Variant) (j : Job) (S : Set (BitVec 30)) (M₀ : Memory) (s : OnBus) :
    Prop where
  start : s.entity.regs.start = false
  phase : Loading j S M₀ s ∨ Working v j S M₀ s ∨ Done v j S M₀ s

/-- A cycle without reset, without a register write and without a foreign write to `S`. -/
structure Undisturbed (S : Set (BitVec 30)) (x : BusInputs) : Prop where
  nReset : x.nReset = true
  slave : x.slave.writes = false
  other : ∀ a ∈ S, ∀ d, x.other ≠ some (a, d)

section Step

variable {S : Set (BitVec 30)} {M₀ : Memory} {s : OnBus} {x : BusInputs}

/-- In a cycle without transfers the protected words keep their contents. -/
lemma mem_of_no_transfers (hx : ∀ a ∈ S, ∀ d, x.other ≠ some (a, d)) (hnil : s.transfers x = [])
    {a : BitVec 30} (ha : a ∈ S) : (s.step v x).mem a = s.mem a := by
  rw [step_mem, writeOther_of_ne (hx a ha), hnil, Memory.replay_nil]

/-- An idle machine leaves the protected words alone. -/
lemma mem_of_idle (hx : ∀ a ∈ S, ∀ d, x.other ≠ some (a, d)) (hreq : Requests s.entity.master)
    (hm : s.entity.master.state = .idle) {a : BitVec 30} (ha : a ∈ S) :
    (s.step v x).mem a = s.mem a :=
  mem_of_no_transfers hx (hreq.transfers_eq_nil (by simp [hm]) (by simp [hm])) ha

/-- Loading the parameters starts the work. -/
lemma Loading.step (h : Loading j S M₀ s) (hx : Undisturbed S x) :
    Working v j S M₀ (s.step v x) := by
  have hmaster : (s.step v x).entity.master = _ := step_master (i := s.inputs x) hx.nReset
  refine ⟨[], [], ?_, serving_nil ?_⟩
  · rw [hmaster, ← h.job]
    exact progress_of_loadParameters h.state h.requests
  · intro a ha
    have hnil : s.transfers x = [] :=
      h.requests.transfers_eq_nil (by simp [h.state]) (by simp [h.state])
    rw [mem_of_no_transfers hx.other hnil ha, h.mem a ha]

/-- A job in progress stays in progress or is completed, and then the memory is its outcome. -/
lemma Working.step (h : Working v j S M₀ s) (hS : area v j ⊆ S) (hx : Undisturbed S x) :
    Working v j S M₀ (s.step v x) ∨ Done v j S M₀ (s.step v x) := by
  obtain ⟨ws, l, hprog, hserv⟩ := h
  have hserv' : Serving S M₀ (l ++ s.transfers x) (s.step v x).mem :=
    hserv.step hprog.requests (fun hr => hS (mem_area_of_progress hprog hr)) hx.other
  have hmaster : (s.step v x).entity.master = _ := step_master (i := s.inputs x) hx.nReset
  have hfsm := hprog.fsm (r := s.entity.regs) (w := (s.inputs x).mWaitRequest)
    (d := (s.inputs x).mReadData)
  rw [← hmaster] at hfsm
  rcases hfsm with ⟨ws', hprog'⟩ | ⟨ws', hfin⟩
  · exact .inl ⟨ws', _, hprog', hserv'⟩
  · refine .inr ⟨hfin.idle, hfin.finish, hfin.requests, ?_⟩
    intro a ha
    have hpairs : l ++ s.transfers x = j.pairs v ws' := hfin.transfers
    rw [hpairs] at hserv'
    rw [hserv'.mem a ha, replay_pairs hserv'.answered, hfin.length, outcome]

/-- A completed job stays completed as long as no start command is pending. -/
lemma Done.step (h : Done v j S M₀ s) (hs : s.entity.regs.start = false)
    (hx : x.nReset = true) (ho : ∀ a ∈ S, ∀ d, x.other ≠ some (a, d)) :
    Done v j S M₀ (s.step v x) := by
  have hmaster : (s.step v x).entity.master = _ := step_master (i := s.inputs x) hx
  have hreq : Requests (s.step v x).entity.master := h.requests.step
  rw [fsm_idle h.idle hs] at hmaster
  refine ⟨?_, ?_, hreq, ?_⟩
  · rw [hmaster]; exact h.idle
  · rw [hmaster]; exact h.finish
  · intro a ha
    rw [mem_of_idle ho h.requests h.idle ha, h.mem a ha]

/-- Without a register write no start command becomes pending. -/
lemma start_step (hx : Undisturbed S x) : (s.step v x).entity.regs.start = false := by
  rw [step_entity, step_regs (i := s.inputs x) hx.nReset]
  have hslave : (s.inputs x).slave.writes = false := hx.slave
  rw [slaveWriteProcess_of_not_writes hslave]

/-- A pending start command makes an idle machine load the parameters of its registers. -/
lemma loading_of_start (hidle : s.entity.master.state = .idle)
    (hs : s.entity.regs.start = true) (hreq : Requests s.entity.master)
    (hM : ∀ a ∈ S, s.mem a = M₀ a) (hx : Undisturbed S x) :
    Loading s.entity.regs.job S M₀ (s.step v x) := by
  have hmaster : (s.step v x).entity.master = _ := step_master (i := s.inputs x) hx.nReset
  have hregs : (s.step v x).entity.regs = _ := step_regs (i := s.inputs x) hx.nReset
  have hslave : (s.inputs x).slave.writes = false := hx.slave
  rw [fsm_idle_start hidle hs] at hmaster
  rw [slaveWriteProcess_of_not_writes hslave] at hregs
  refine ⟨?_, hreq.step, ?_, ?_⟩
  · rw [hmaster]
  · rw [hregs]; rfl
  · intro a ha
    rw [mem_of_idle hx.other hreq hidle ha, hM a ha]

/-- The step lemma: an undisturbed job goes on. -/
lemma Underway.step (h : Underway v j S M₀ s) (hS : area v j ⊆ S) (hx : Undisturbed S x) :
    Underway v j S M₀ (s.step v x) := by
  refine ⟨start_step hx, ?_⟩
  rcases h.phase with hl | hw | hd
  · exact .inr (.inl (hl.step hx))
  · exact .inr (hw.step hS hx)
  · exact .inr (.inr (hd.step h.start hx.nReset hx.other))

/-- Once `finish` is set, the job is completed. -/
lemma Underway.done (h : Underway v j S M₀ s) (hf : s.entity.master.finish = true) :
    Done v j S M₀ s := by
  rcases h.phase with hl | ⟨ws, l, hp, -⟩ | hd
  · exact absurd (hl.requests.busy (by simp [hl.state])) (by simp [hf])
  · exact absurd hp.finish (by simp [hf])
  · exact hd

end Step

/-- The first `length` destination words of a job hold the images of the original source words, if
no source word among them is overwritten before it has been read.  What becomes of the additional
element does not matter. -/
theorem outcome_destination {M : Memory}
    (hdst : ∀ i ≤ j.length.toNat, ∀ k ≤ j.length.toNat,
      destinationIndex v j i = destinationIndex v j k → i = k)
    (hsrc : ∀ i k, i < k → k < j.length.toNat → destinationIndex v j i ≠ sourceIndex v j k) {i : ℕ}
    (hi : i < j.length.toNat) :
    outcome v j M (destinationIndex v j i) = v.image (M (sourceIndex v j i)) := by
  have hlast : destinationIndex v j i ≠ destinationIndex v j j.length.toNat := fun h =>
    absurd (hdst i hi.le _ (le_refl _) h) (Nat.ne_of_lt hi)
  rw [outcome, mapSeq_succ, Function.update_of_ne hlast]
  exact mapSeq_dst (fun i hi k hk => hdst i hi.le k hk.le) hsrc hi

end Job

end OnBus

end CyclonRtes.Swap
