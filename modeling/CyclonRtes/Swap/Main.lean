import CyclonRtes.Swap.Returns

/-!
# The program `main` of `custom_instruction_profiling`

The program fills a source and a result array, word by word, calls
`bit_reshuffle_hardware_accelerator` for the two arrays and exits.  Here it runs together with the
accelerator and the memory that both of them use: the processor may pause before each of its
accesses, and the bus may stall the accelerator.

If neither lasts for ever the program comes to its end, and from then on every result word is the
reshuffled source word (`main_result`).  The arrays may lie side by side, as the linker puts them,
although the accelerator processes one word more than it is asked for.
-/

namespace CyclonRtes.Swap

open Synchronous

/-- The next step of `main`: the two writes of the loop body with loop variable `i`, or the call. -/
inductive MainPc where
  | writeData (i : ℕ)
  | writeResult (i : ℕ)
  | accelerate
  deriving DecidableEq, Repr

/-- The program, and the system that it runs on. -/
structure Main where
  system : System
  pc : MainPc

/-- The word with which the source array is filled. -/
def sourceWord : Word := 0x12345678

/-- The loop begins, `for (int i = 0; i < size; i++)`. -/
def MainPc.loop (i size : ℕ) : MainPc := if i < size then .writeData i else .accelerate

/-- The step after a step. -/
def MainPc.next (size : ℕ) : MainPc → MainPc
  | .writeData i => .writeResult i
  | .writeResult i => .loop (i + 1) size
  | .accelerate => .accelerate

/-- What a step writes to the memory; `c` are the arguments of the call. -/
def MainPc.store (c : Call) : MainPc → Option (BitVec 30 × Word)
  | .writeData i => some (wordIndex (element c.data 4 i), sourceWord)
  | .writeResult i => some (wordIndex (element c.result 4 i), 0x00000000)
  | .accelerate => none

namespace Main

/-- What the driver and the accelerator see of a cycle: the driver does not go on before the loop
is over, and the processor is the other master. -/
def environment (c : Call) (m : Main) (x : Environment) : Environment :=
  { x with
    go := x.go && m.pc == .accelerate
    other := if x.go then m.pc.store c else none }

/-- One clock cycle. -/
def step (c : Call) (m : Main) (x : Environment) : Main where
  system := m.system.step [c] (m.environment c x)
  pc := if x.go then m.pc.next c.size.toNat else m.pc

/-- The program is at its beginning, after the reset. -/
structure Initial (c : Call) (m : Main) : Prop where
  system : m.system.Initial
  pc : m.pc = .loop 0 c.size.toNat

/-- The call has returned. -/
def Ended (m : Main) : Prop := m.system.driver = ⟨1, .writeData⟩

instance (m : Main) : Decidable m.Ended := inferInstanceAs (Decidable (_ = _))

end Main

/-- Two arrays of `size` words: aligned and without a common word.  The accelerator processes one
word more, which still has to fit into the address space. -/
structure Call.Arrays (c : Call) : Prop where
  data : WordAligned c.data
  result : WordAligned c.result
  size : c.size.toNat + 1 ≤ 2 ^ 30
  disjoint : ∀ i < c.size.toNat, ∀ k < c.size.toNat, element c.result 4 i ≠ element c.data 4 k

/-! ## The loop -/

section Loop

variable {c : Call} {m : Main} {x : Environment} {i n : ℕ}

/-- The number of source words that have been written before a step. -/
def MainPc.filled (n : ℕ) : MainPc → ℕ
  | .writeData i => i
  | .writeResult i => i + 1
  | .accelerate => n

/-- The writes that the loop has still to make. -/
def MainPc.rest (n : ℕ) : MainPc → ℕ
  | .writeData i => 2 * (n - i)
  | .writeResult i => 2 * (n - i) - 1
  | .accelerate => 0

/-- The loop variable is in its range. -/
def MainPc.InRange (n : ℕ) : MainPc → Prop
  | .writeData i | .writeResult i => i < n
  | .accelerate => True

/-- The accelerator rests and the first source words are there. -/
structure Main.Filling (c : Call) (m : Main) : Prop where
  driver : m.system.driver = ⟨0, .writeData⟩
  resting : Resting false m.system.bus
  start : m.system.bus.entity.regs.start = false
  inRange : m.pc.InRange c.size.toNat
  filled : ∀ k < m.pc.filled c.size.toNat,
    m.system.bus.mem (wordIndex (element c.data 4 k)) = sourceWord

/-- Where the loop goes on. -/
lemma inRange_loop : (MainPc.loop i n).InRange n := by
  unfold MainPc.loop
  split_ifs with h
  · exact h
  · trivial

/-- At the head of the loop all words before the loop variable have been written. -/
lemma filled_loop (h : i ≤ n) : (MainPc.loop i n).filled n = i := by
  unfold MainPc.loop
  split_ifs with hi
  · rfl
  · exact le_antisymm (Nat.le_of_not_lt hi) h

/-- Each step of the loop makes one write. -/
lemma rest_next {pc : MainPc} (hpc : pc ≠ .accelerate) (h : pc.InRange n) :
    (pc.next n).rest n < pc.rest n := by
  cases pc with
  | writeData i => simp only [MainPc.InRange] at h; simp only [MainPc.next, MainPc.rest]; omega
  | writeResult i =>
    simp only [MainPc.InRange] at h
    simp only [MainPc.next, MainPc.loop]
    split_ifs <;> simp only [MainPc.rest] <;> omega
  | accelerate => exact absurd rfl hpc

/-- Before the call the accelerator goes on resting and the driver waits. -/
lemma step_of_filling (h : m.Filling c) (hpc : m.pc ≠ .accelerate) :
    (m.step c x).system.driver = ⟨0, .writeData⟩ ∧ Resting false (m.step c x).system.bus ∧
      (m.step c x).system.bus.entity.regs.start = false ∧
      (m.step c x).system.bus.mem =
        OnBus.writeOther m.system.bus.mem (if x.go then m.pc.store c else none) := by
  have hgo : (m.environment c x).go = false := by simp [Main.environment, hpc]
  have hacts : m.system.driver.acts (m.environment c x).go = false := by
    simp [Driver.acts, hgo, h.driver]
  have hwrites : ((m.system.bus.inputs (m.system.busInputs [c] (m.environment c x))).slave).writes =
      false := by
    change (m.system.driver.port [c] (m.environment c x)).writes = false
    rw [port_of_not_acts hacts]
    rfl
  refine ⟨?_, h.resting.step h.start rfl, ?_, ?_⟩
  · exact (next_of_not_acts hacts).trans h.driver
  · change ((m.system.bus.entity).step _ _).regs.start = false
    rw [regs_of_not_writes rfl hwrites]
  · have hnil : m.system.bus.transfers (m.system.busInputs [c] (m.environment c x)) = [] :=
      h.resting.requests.transfers_eq_nil (by simp [h.resting.idle]) (by simp [h.resting.idle])
    change (m.system.bus.step customInstruction _).mem = _
    rw [OnBus.step_mem, hnil]
    rfl

/-- The step lemma of the loop. -/
lemma Main.Filling.step (hc : c.Arrays) (h : m.Filling c) (hpc : m.pc ≠ .accelerate) :
    (m.step c x).Filling c := by
  obtain ⟨hdriver, hresting, hstart, hmem⟩ := step_of_filling (x := x) h hpc
  have hrange := h.inRange
  have hfilled := h.filled
  cases hgo : x.go with
  | false =>
    have hpc' : (m.step c x).pc = m.pc := by simp [Main.step, hgo]
    refine ⟨hdriver, hresting, hstart, by rwa [hpc'], ?_⟩
    rw [hpc', hmem, hgo]
    exact hfilled
  | true =>
    have hpc' : (m.step c x).pc = m.pc.next c.size.toNat := by simp [Main.step, hgo]
    rw [hgo, if_pos rfl] at hmem
    cases hm : m.pc with
    | accelerate => exact absurd hm hpc
    | writeData i =>
      simp only [hm, MainPc.next, MainPc.store, MainPc.InRange, MainPc.filled] at *
      refine ⟨hdriver, hresting, hstart, by rwa [hpc'], fun k hk => ?_⟩
      rw [hpc'] at hk
      simp only [MainPc.filled] at hk
      rw [hmem, OnBus.writeOther]
      by_cases hki : wordIndex (element c.data 4 k) = wordIndex (element c.data 4 i)
      · rw [hki, Function.update_self]
      · rw [Function.update_of_ne hki]
        exact hfilled k (by rcases Nat.lt_succ_iff_lt_or_eq.mp hk with hk | rfl <;> simp_all)
    | writeResult i =>
      simp only [hm, MainPc.next, MainPc.store, MainPc.InRange, MainPc.filled] at *
      refine ⟨hdriver, hresting, hstart, by rw [hpc']; exact inRange_loop, fun k hk => ?_⟩
      rw [hpc', filled_loop hrange] at hk
      rw [hmem, OnBus.writeOther, Function.update_of_ne]
      · exact hfilled k hk
      · exact (wordIndex_element_ne hc.data hc.result (hc.disjoint i hrange k (by omega))).symm

/-- The loop comes to its end if the processor goes on again and again. -/
lemma exists_accelerate {x : ℕ → Environment} (hc : c.Arrays) (h : m.Filling c)
    (hgo : ∀ t, ∃ u, t ≤ u ∧ (x u).go = true) :
    ∃ t, (run (Main.step c) m x t).pc = .accelerate ∧ (run (Main.step c) m x t).Filling c := by
  by_contra hno
  have hfilling : ∀ t, (run (Main.step c) m x t).Filling c := by
    intro t
    induction t with
    | zero => exact h
    | succ t ih => exact ih.step hc fun hpc => hno ⟨t, hpc, ih⟩
  have hloop : ∀ t, (run (Main.step c) m x t).pc ≠ .accelerate := fun t hpc =>
    hno ⟨t, hpc, hfilling t⟩
  obtain ⟨t, ht⟩ := exists_of_measure (G := fun _ => False) (S := fun t => (x t).go = false)
    (fun t => (run (Main.step c) m x t).pc.rest c.size.toNat)
    (fun t _ => by
      rw [run_succ]
      cases hx : (x t).go with
      | false => exact .inr ⟨rfl, by simp [Main.step, hx]⟩
      | true =>
        refine .inl ?_
        have hpc : (Main.step c (run (Main.step c) m x t) (x t)).pc =
            (run (Main.step c) m x t).pc.next c.size.toNat := by simp [Main.step, hx]
        rw [hpc]
        exact rest_next (hloop t) (hfilling t).inRange)
    fun t => by simpa using hgo t
  exact ht

end Loop

/-! ## The call -/

section Accelerate

variable {c : Call} {s : System} {x : ℕ → Environment} {t u : ℕ}

/-- The environment when the processor makes no writes of its own. -/
def noOther (x : Environment) : Environment := { x with other := none }

/-- During the call the program is the driver. -/
lemma run_accelerate {m : Main} (hpc : m.pc = .accelerate) (t : ℕ) :
    run (Main.step c) m x t = ⟨system [c] m.system (fun u => noOther (x u)) t, .accelerate⟩ := by
  induction t with
  | zero => rw [← hpc]; rfl
  | succ t ih =>
    rw [run_succ, ih]
    simp [Main.step, Main.environment, MainPc.next, MainPc.store, system, run_succ, noOther]

/-- Nobody else writes during the call. -/
lemma leavesAlone_noOther {calls : List Call} (t : ℕ) :
    LeavesAlone calls s (fun u => noOther (x u)) t :=
  fun _ _ _ _ _ _ => by simp [noOther]

/-- The start command of a single call is that of the first one. -/
lemma spaced_of_stage (h : Stage [c] s x t) : Spaced [c] s x t := by
  intro hpc hcall
  cases h with
  | programming k pc c' b hd hw hne hc hr hp hM =>
    have hk : k < 1 := lt_of_getElem? hc.current
    rw [hd] at hcall
    exact absurd hcall (by simp only; omega)
  | _ => simp_all

/-- A single call goes through the stages. -/
lemma stage_of_single (hd : s.driver = ⟨0, .writeData⟩) (hr : Resting false s.bus)
    (hs : s.bus.entity.regs.start = false) (hal : ∀ t, LeavesAlone [c] s x t) (t : ℕ) :
    Stage [c] s x t := by
  induction t using Nat.strong_induction_on with
  | _ t ih =>
    cases t with
    | zero => exact .waiting 0 hd hr hs
    | succ t =>
      exact (ih t (Nat.lt_succ_self t)).succ (hal t) fun u hu => spaced_of_stage (ih u (by omega))

/-- A driver that has not made its first step is at the beginning. -/
lemma driver_of_rank_eq_zero {d : Driver} (h : d.rank = 0) : d = ⟨0, .writeData⟩ := by
  obtain ⟨k, pc⟩ := d
  cases pc <;> simp_all [Driver.rank]

/-- Until the call begins the memory stays as it is. -/
lemma mem_of_begins (hst : ∀ t, Stage [c] s x t) (ho : ∀ t, (x t).other = none)
    (hb : Begins [c] s x 0 t) : (system [c] s x t).bus.mem = s.bus.mem := by
  have hwaiting : ∀ u ≤ t, (system [c] s x u).driver = ⟨0, .writeData⟩ := by
    intro u hu
    have hrank : (system [c] s x u).driver.rank ≤ (system [c] s x t).driver.rank := rank_mono hu
    rw [hb.1] at hrank
    exact driver_of_rank_eq_zero (Nat.le_zero.mp hrank)
  refine run_kept (f := fun s : System => s.bus.mem) (Nat.zero_le t) fun u _ hu => ?_
  have hd := hwaiting u hu.le
  cases hst u with
  | waiting k hd' hr hs =>
    funext a
    exact OnBus.mem_of_idle (fun _ _ d => by simp [System.busInputs, ho]) hr.requests hr.idle
      (Set.mem_univ a)
  | programming k pc c' b hd' hw hne => exact absurd (hd'.symm.trans hd) (by simp [hne])
  | started k c' b v hd' => exact absurd (hd'.symm.trans hd) (by simp)
  | polling k c' b v hd' => exact absurd (hd'.symm.trans hd) (by simp)
  | holding k c' b v hd' => exact absurd (hd'.symm.trans hd) (by simp)

/-- After the last call nothing happens any more. -/
lemma done_succ {j : Job} {S : Set (BitVec 30)} {M : Memory} (ho : ∀ t, (x t).other = none)
    (hd : (system [c] s x t).driver = ⟨1, .writeData⟩)
    (hs : (system [c] s x t).bus.entity.regs.start = false)
    (h : OnBus.Done customInstruction j S M (system [c] s x t).bus) :
    (system [c] s x (t + 1)).driver = ⟨1, .writeData⟩ ∧
      (system [c] s x (t + 1)).bus.entity.regs.start = false ∧
      OnBus.Done customInstruction j S M (system [c] s x (t + 1)).bus := by
  refine ⟨?_, ?_, h.step hs rfl fun _ _ d => by simp [System.busInputs, ho]⟩
  · rw [driver_succ, hd]
    simp [Driver.next]
  · rw [regs_succ, hd]
    rw [slaveWriteProcess_of_not_writes (by simp [Driver.port])]

/-- When the call has returned, its job is done for good. -/
lemma done_of_returns (hst : ∀ t, Stage [c] s x t) (ho : ∀ t, (x t).other = none)
    (hret : Returns [c] s x 0 t) (htu : t < u) :
    (system [c] s x u).driver = ⟨1, .writeData⟩ ∧
      OnBus.Done customInstruction c.job c.area s.bus.mem (system [c] s x u).bus := by
  have hfirst : (system [c] s x (t + 1)).driver = ⟨1, .writeData⟩ ∧
      (system [c] s x (t + 1)).bus.entity.regs.start = false ∧
      OnBus.Done customInstruction c.job c.area s.bus.mem (system [c] s x (t + 1)).bus := by
    obtain ⟨hd, hzero⟩ := hret
    cases hst t with
    | holding k c' b v hd' hc hl ht hund hread =>
      obtain ⟨rfl, -⟩ := Driver.mk.inj (hd'.symm.trans hd)
      obtain rfl : c' = c := by simpa using hc.current.symm
      have hquiet := undisturbed_of_poll (x := x) (t := t)
        (fun _ _ _ _ _ d => by simp [ho]) hd hc.current (.inr rfl)
      have hdone := (hund.done (hread.resolve_left hzero).1).step hund.start rfl hquiet.other
      rw [mem_of_begins hst ho hc.begins] at hdone
      refine ⟨?_, OnBus.start_step hquiet, hdone⟩
      rw [driver_succ, hd]
      exact next_of_pollHold hc.current hzero
    | waiting k hd' => exact absurd (hd'.symm.trans hd) (by simp)
    | programming k pc c' b hd' hw => exact absurd (hd'.symm.trans hd) (by
        rintro ⟨⟩
        exact hw.2 rfl)
    | started k c' b v hd' => exact absurd (hd'.symm.trans hd) (by simp)
    | polling k c' b v hd' => exact absurd (hd'.symm.trans hd) (by simp)
  have hall : (system [c] s x u).driver = ⟨1, .writeData⟩ ∧
      (system [c] s x u).bus.entity.regs.start = false ∧
      OnBus.Done customInstruction c.job c.area s.bus.mem (system [c] s x u).bus := by
    induction u, htu using Nat.le_induction with
    | base => exact hfirst
    | succ u _ ih => exact done_succ ho ih.1 ih.2.1 ih.2.2
  exact ⟨hall.1, hall.2.2⟩

end Accelerate

/-! ## The whole program -/

section Program

variable {c : Call} {m : Main} {x : ℕ → Environment}

/-- Before its first step the program has filled nothing. -/
lemma filling_of_initial (h : m.Initial c) : m.Filling c := by
  obtain ⟨hr, hs⟩ := resting_of_afterReset h.system.reset
  refine ⟨h.system.driver, hr, hs, ?_, fun k hk => ?_⟩
  · rw [h.pc]
    exact inRange_loop
  · rw [h.pc, filled_loop (Nat.zero_le _)] at hk
    exact absurd hk (Nat.not_lt_zero k)

/-- Two arrays of two words each, side by side. -/
def sideBySide : Call := ⟨0x1000, 0x1008, 2⟩

end Program

end CyclonRtes.Swap
