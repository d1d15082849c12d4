import CyclonRtes.Swap.Driver

/-!
# What the end of a polling loop means

The flag that the driver polls is cleared when the machine leaves `IDLE`, one cycle after the start
pulse has been raised and two cycles after the start command has been written.  A read of the
finish register that begins in the cycle right after the start command still sees the flag of the
previous job.  The driver can rely on its polling loops exactly when that does not happen
(`honoured_iff_spaced`).

The invariant `Stage` says where the accelerator and the memory are at each point of the driver.
-/

namespace CyclonRtes.Swap

open Synchronous

/-! ## The machine between two jobs -/

/-- An idle machine whose finish flag is `f`. -/
structure Resting (f : Bool) (s : OnBus) : Prop where
  idle : s.entity.master.state = .idle
  finish : s.entity.master.finish = f
  requests : Requests s.entity.master

/-- A completed job leaves the machine resting with the flag set. -/
lemma resting_of_done {j : Job} {S : Set (BitVec 30)} {M₀ : Memory} {s : OnBus}
    (h : OnBus.Done customInstruction j S M₀ s) : Resting true s :=
  ⟨h.idle, h.finish, h.requests⟩

/-- Without a start pulse a resting machine goes on resting. -/
lemma Resting.step {v : Variant} {f : Bool} {s : OnBus} {x : BusInputs} (h : Resting f s)
    (hs : s.entity.regs.start = false) (hx : x.nReset = true) : Resting f (s.step v x) := by
  have hmaster : (s.step v x).entity.master = _ := step_master (i := s.inputs x) hx
  rw [fsm_idle h.idle hs] at hmaster
  refine ⟨?_, ?_, h.requests.step⟩
  · rw [hmaster]; exact h.idle
  · rw [hmaster]; exact h.finish

/-- The first cycle after a reset finds the machine at rest, with a clear flag and without a start
pulse. -/
lemma resting_of_afterReset {s : OnBus} (h : AfterReset s.entity) :
    Resting false s ∧ s.entity.regs.start = false := by
  obtain ⟨e₀, i, d, hpower, hlow, he⟩ := h
  have hreset : ∀ t ≤ d + 1, (run (Entity.step customInstruction) e₀ i t).master.state = .idle := by
    intro t ht
    induction t with
    | zero => exact hpower.1
    | succ t ih =>
      rw [run_succ, step_master_of_reset (hlow t (by omega))]
      exact ih (by omega)
  have hreq : Requests (run (Entity.step customInstruction) e₀ i d).master :=
    requests_of_reachable (reachable_run hpower i d)
  have hsilent : Silent s.entity := by
    rw [← he, run_succ]
    exact silent_of_reset (hreset d (by omega)) hreq (hlow d (le_refl d))
  refine ⟨⟨hsilent.idle, hsilent.finish, ?_⟩, hsilent.start⟩
  rw [← he, run_succ]
  exact hreq.step

/-! ## Steps of the driver -/

section DriverStep

variable {calls : List Call} {k : ℕ} {c : Call} {pc : DriverPc} {x : Environment} {d : Word}

/-- A driver that does not act stays where it is. -/
lemma next_of_not_acts {dr : Driver} {go : Bool} (h : dr.acts go = false) :
    dr.next calls go d = dr := by
  simp [Driver.next, h]

/-- A driver that does not act leaves the slave port deselected. -/
lemma port_of_not_acts {dr : Driver} (h : dr.acts x.go = false) :
    dr.port calls x = x.idlePort.deselect := by
  unfold Driver.port
  cases calls[dr.call]? <;> simp [h]

/-- A driver that acts makes the access of its current call. -/
lemma port_of_acts (hc : calls[k]? = some c) (h : (Driver.mk k pc).acts x.go = true) :
    (Driver.mk k pc).port calls x = c.access pc := by
  simp [Driver.port, hc, h]

/-- The driver has a next access as long as there is a current call. -/
lemma lt_of_getElem? (hc : calls[k]? = some c) : k < calls.length :=
  (List.getElem?_eq_some_iff.mp hc).1

/-- The registers that are programmed before a step of a call. -/
def Programmed (c : Call) (r : SlaveRegisters) : DriverPc → Prop
  | .writeData => r.start = false
  | .writeSize => r.start = false ∧ r.regAddStart = c.data
  | .writeResult => r.start = false ∧ r.regAddStart = c.data ∧ r.regLgt = c.size
  | .writeStart => r = ⟨c.data, c.size, c.result, false⟩
  | .poll | .pollHold => r = ⟨c.data, c.size, c.result, true⟩

/-- The step after a register write. -/
def DriverPc.afterWrite : DriverPc → DriverPc
  | .writeData => .writeSize
  | .writeSize => .writeResult
  | .writeResult => .writeStart
  | .writeStart => .poll
  | .poll | .pollHold => .poll

/-- The step is a register write. -/
def DriverPc.IsWrite (pc : DriverPc) : Prop := pc ≠ .poll ∧ pc ≠ .pollHold

/-- While registers are being written no start pulse is pending. -/
lemma Programmed.start {r : SlaveRegisters} (h : Programmed c r pc) (hpc : pc.IsWrite) :
    r.start = false := by
  cases pc <;> simp_all [Programmed, DriverPc.IsWrite]

/-- A register write of a call programs one more register. -/
lemma Programmed.write {r : SlaveRegisters} (h : Programmed c r pc) (hpc : pc.IsWrite) :
    Programmed c (slaveWriteProcess true (c.access pc) r) pc.afterWrite := by
  cases pc with
  | writeData => rw [Call.access, slaveWriteProcess_writeData]; exact ⟨rfl, rfl⟩
  | writeSize => rw [Call.access, slaveWriteProcess_writeSize]; exact ⟨rfl, h.2, rfl⟩
  | writeResult =>
    rw [Call.access, slaveWriteProcess_writeResult]
    simp only [Programmed, DriverPc.afterWrite] at h ⊢
    rw [← h.2.1, ← h.2.2]
  | writeStart =>
    rw [Call.access, slaveWriteProcess_writeStart]
    simp only [Programmed, DriverPc.afterWrite] at h ⊢
    rw [h]
  | poll => exact absurd rfl hpc.1
  | pollHold => exact absurd rfl hpc.2

/-- A pause between two register writes leaves the registers as they are programmed. -/
lemma Programmed.pause {r : SlaveRegisters} {p : SlavePort} (h : Programmed c r pc)
    (hpc : pc.IsWrite) (hp : p.writes = false) : Programmed c (slaveWriteProcess true p r) pc := by
  have hstart := h.start hpc
  have hsame : slaveWriteProcess true p r = r := by
    rw [slaveWriteProcess_of_not_writes hp, ← hstart]
  rwa [hsame]

/-- A register write of the driver takes it to the next step. -/
lemma next_of_write (hc : calls[k]? = some c) (hpc : pc.IsWrite) :
    (Driver.mk k pc).next calls true d = ⟨k, pc.afterWrite⟩ := by
  have hlt := lt_of_getElem? hc
  cases pc <;> simp_all [Driver.next, Driver.acts, DriverPc.afterWrite, DriverPc.IsWrite]

/-- The first cycle of a poll is followed by the second. -/
lemma next_of_poll (hc : calls[k]? = some c) :
    (Driver.mk k .poll).next calls true d = ⟨k, .pollHold⟩ := by
  simp [Driver.next, Driver.acts, lt_of_getElem? hc]

/-- After a poll that has returned zero the driver polls again. -/
lemma next_of_pollHold_zero (hc : calls[k]? = some c) {go : Bool} :
    (Driver.mk k .pollHold).next calls go 0 = ⟨k, .poll⟩ := by
  simp [Driver.next, Driver.acts, lt_of_getElem? hc]

/-- After a poll that has returned a non-zero word the call returns. -/
lemma next_of_pollHold (hc : calls[k]? = some c) {go : Bool} (hd : d ≠ 0) :
    (Driver.mk k .pollHold).next calls go d = ⟨k + 1, .writeData⟩ := by
  have hlt := lt_of_getElem? hc
  simp only [Driver.next, Driver.acts, hlt, beq_self_eq_true, Bool.or_true, and_self, if_true,
    if_neg hd]

/-- How far the driver has come. -/
def Driver.rank (d : Driver) : ℕ :=
  5 * d.call +
    match d.pc with
    | .writeData => 0
    | .writeSize => 1
    | .writeResult => 2
    | .writeStart => 3
    | .poll | .pollHold => 4

/-- The driver never goes back. -/
lemma rank_le_next (dr : Driver) (go : Bool) : dr.rank ≤ (dr.next calls go d).rank := by
  by_cases h : dr.call < calls.length ∧ dr.acts go
  · rw [Driver.next, if_pos h]
    obtain ⟨k, pc⟩ := dr
    cases pc with
    | pollHold =>
      by_cases hd : d = 0
      · simp [Driver.rank, hd]
      · simp only [hd, if_false, Driver.rank]
        omega
    | _ => simp [Driver.rank]
  · rw [Driver.next, if_neg h]

end DriverStep

/-! ## The stages of a run -/

section Stages

variable (calls : List Call) (s : System) (x : ℕ → Environment)

/-- In cycle `t` the driver is in its call `k`, which is `c` and began in cycle `b`. -/
structure InCall (c : Call) (k b t : ℕ) : Prop where
  current : calls[k]? = some c
  begins : Begins calls s x k b
  lt : b < t

/-- The start command that call `k` gave in cycle `v` has made the machine load the job of the
call, while the areas of the call were as they had been in cycle `b`. -/
structure Launched (c : Call) (k b v : ℕ) : Prop where
  starts : Starts calls s x k v
  loading : OnBus.Loading c.job c.area (system calls s x b).bus.mem (system calls s x (v + 2)).bus

/-- The stages through which driver and accelerator go, call after call. -/
inductive Stage (t : ℕ) : Prop where
  /-- The next call has not begun. -/
  | waiting (k : ℕ) (hd : (system calls s x t).driver = ⟨k, .writeData⟩)
      (hr : Resting (decide (0 < k)) (system calls s x t).bus)
      (hs : (system calls s x t).bus.entity.regs.start = false)
  /-- The registers are being programmed. -/
  | programming (k : ℕ) (pc : DriverPc) (c : Call) (b : ℕ)
      (hd : (system calls s x t).driver = ⟨k, pc⟩) (hpc : pc.IsWrite) (hne : pc ≠ .writeData)
      (hc : InCall calls s x c k b t)
      (hr : Resting (decide (0 < k)) (system calls s x t).bus)
      (hp : Programmed c (system calls s x t).bus.entity.regs pc)
      (hM : ∀ a ∈ c.area, (system calls s x t).bus.mem a = (system calls s x b).bus.mem a)
  /-- The start command was given in the preceding cycle. -/
  | started (k : ℕ) (c : Call) (b v : ℕ) (hd : (system calls s x t).driver = ⟨k, .poll⟩)
      (hc : InCall calls s x c k b t) (hv : Starts calls s x k v) (ht : t = v + 1)
      (hr : Resting (decide (0 < k)) (system calls s x t).bus)
      (hp : Programmed c (system calls s x t).bus.entity.regs .poll)
      (hM : ∀ a ∈ c.area, (system calls s x t).bus.mem a = (system calls s x b).bus.mem a)
  /-- The driver is before a poll. -/
  | polling (k : ℕ) (c : Call) (b v : ℕ) (hd : (system calls s x t).driver = ⟨k, .poll⟩)
      (hc : InCall calls s x c k b t) (hl : Launched calls s x c k b v) (ht : v + 2 ≤ t)
      (hu : OnBus.Underway customInstruction c.job c.area (system calls s x b).bus.mem
        (system calls s x t).bus)
  /-- The driver is in the middle of a poll: it gets zero, or the job is completed. -/
  | holding (k : ℕ) (c : Call) (b v : ℕ) (hd : (system calls s x t).driver = ⟨k, .pollHold⟩)
      (hc : InCall calls s x c k b t) (hl : Launched calls s x c k b v) (ht : v + 2 ≤ t)
      (hu : OnBus.Underway customInstruction c.job c.area (system calls s x b).bus.mem
        (system calls s x t).bus)
      (hread : (system calls s x t).bus.entity.sReadData = 0 ∨
        (system calls s x t).bus.entity.master.finish = true ∧
          ∃ w, FirstRise (finishFrom calls s x (v + 2)) w ∧ v + 2 + w < t)

end Stages

section StageStep

variable {calls : List Call} {s : System} {x : ℕ → Environment} {t : ℕ}

variable (calls s x t) in
/-- The driver makes one step in each cycle. -/
lemma driver_succ : (system calls s x (t + 1)).driver =
    (system calls s x t).driver.next calls (x t).go (system calls s x t).bus.entity.sReadData :=
  rfl

variable (calls s x t) in
/-- The slave registers see what the driver puts on the port. -/
lemma regs_succ : (system calls s x (t + 1)).bus.entity.regs =
    slaveWriteProcess true ((system calls s x t).driver.port calls (x t))
      (system calls s x t).bus.entity.regs :=
  step_regs (i := (system calls s x t).bus.inputs ((system calls s x t).busInputs calls (x t))) rfl

/-- The register of the read data sees what the driver puts on the port. -/
lemma sReadData_succ : (system calls s x (t + 1)).bus.entity.sReadData =
    slaveReadProcess ((system calls s x t).driver.port calls (x t))
      (system calls s x t).bus.entity.regs (system calls s x t).bus.entity.master.finish
      (system calls s x t).bus.entity.sReadData :=
  step_sReadData
    (i := (system calls s x t).bus.inputs ((system calls s x t).busInputs calls (x t))) rfl

/-- While a call is polling, nothing disturbs its job. -/
lemma undisturbed_of_poll {k : ℕ} {pc : DriverPc} {c : Call} (hal : LeavesAlone calls s x t)
    (hd : (system calls s x t).driver = ⟨k, pc⟩) (hc : calls[k]? = some c)
    (hpc : pc = .poll ∨ pc = .pollHold) :
    OnBus.Undisturbed c.area ((system calls s x t).busInputs calls (x t)) := by
  refine ⟨rfl, ?_, hal c (by rw [hd]; exact hc) (.inl ?_)⟩
  · change ((system calls s x t).driver.port calls (x t)).writes = false
    rw [hd]
    cases hact : (Driver.mk k pc).acts (x t).go with
    | false => rw [port_of_not_acts hact]; rfl
    | true =>
      rw [port_of_acts hc hact]
      rcases hpc with rfl | rfl <;> rfl
  · rw [hd]
    rcases hpc with rfl | rfl <;> simp

/-- During a call an idle machine leaves the areas of the call alone, and so does everybody
else. -/
lemma mem_succ_of_resting {f : Bool} {c : Call} (hal : LeavesAlone calls s x t)
    (hc : calls[(system calls s x t).driver.call]? = some c)
    (hgo : (system calls s x t).driver.pc ≠ .writeData ∨ (x t).go = true)
    (hr : Resting f (system calls s x t).bus) {a : BitVec 30} (ha : a ∈ c.area) :
    (system calls s x (t + 1)).bus.mem a = (system calls s x t).bus.mem a :=
  OnBus.mem_of_idle (hal c hc hgo) hr.requests hr.idle ha

/-- A call that has begun goes on. -/
lemma InCall.succ {c : Call} {k b : ℕ} (h : InCall calls s x c k b t) :
    InCall calls s x c k b (t + 1) :=
  ⟨h.current, h.begins, Nat.lt_succ_of_lt h.lt⟩

/-- Between two calls the driver waits or begins the next call. -/
lemma stage_of_waiting {k : ℕ} (hal : LeavesAlone calls s x t)
    (hd : (system calls s x t).driver = ⟨k, .writeData⟩)
    (hr : Resting (decide (0 < k)) (system calls s x t).bus)
    (hs : (system calls s x t).bus.entity.regs.start = false) : Stage calls s x (t + 1) := by
  have hr' : Resting (decide (0 < k)) (system calls s x (t + 1)).bus := hr.step hs rfl
  have hd' := driver_succ calls s x t
  have hregs := regs_succ calls s x t
  rw [hd] at hd' hregs
  have hquiet : ((Driver.mk k .writeData).port calls (x t)).writes = false →
      (system calls s x (t + 1)).bus.entity.regs.start = false := by
    intro hp
    rw [hregs, slaveWriteProcess_of_not_writes hp]
  cases hc : calls[k]? with
  | none =>
    have hlen : ¬ k < calls.length := Nat.not_lt.mpr (List.getElem?_eq_none_iff.mp hc)
    refine .waiting k (hd'.trans (by simp [Driver.next, hlen])) hr' (hquiet ?_)
    simp [Driver.port, hc]
  | some c =>
    cases hgo : (x t).go with
    | false =>
      have hact : (Driver.mk k .writeData).acts (x t).go = false := by simp [Driver.acts, hgo]
      exact .waiting k (hd'.trans (next_of_not_acts hact)) hr'
        (hquiet (by rw [port_of_not_acts hact]; rfl))
    | true =>
      have hact : (Driver.mk k .writeData).acts (x t).go = true := by simp [Driver.acts, hgo]
      have hpc : DriverPc.writeData.IsWrite := ⟨by simp, by simp⟩
      rw [hgo, next_of_write hc hpc] at hd'
      rw [port_of_acts hc hact] at hregs
      refine .programming k .writeSize c t hd' ⟨by simp, by simp⟩ (by simp)
        ⟨hc, ⟨hd, hgo⟩, Nat.lt_succ_self t⟩ hr' ?_ ?_
      · have hp : Programmed c (system calls s x t).bus.entity.regs .writeData := hs
        rw [hregs]
        exact hp.write hpc
      · intro a ha
        exact mem_succ_of_resting hal (by rw [hd]; exact hc) (.inr hgo) hr ha

/-- A call that is programming the registers pauses, programs the next one or starts the job. -/
lemma stage_of_programming {k : ℕ} {pc : DriverPc} {c : Call} {b : ℕ}
    (hal : LeavesAlone calls s x t) (hd : (system calls s x t).driver = ⟨k, pc⟩)
    (hpc : pc.IsWrite) (hne : pc ≠ .writeData) (hc : InCall calls s x c k b t)
    (hr : Resting (decide (0 < k)) (system calls s x t).bus)
    (hp : Programmed c (system calls s x t).bus.entity.regs pc)
    (hM : ∀ a ∈ c.area, (system calls s x t).bus.mem a = (system calls s x b).bus.mem a) :
    Stage calls s x (t + 1) := by
  have hr' : Resting (decide (0 < k)) (system calls s x (t + 1)).bus :=
    hr.step (hp.start hpc) rfl
  have hM' : ∀ a ∈ c.area,
      (system calls s x (t + 1)).bus.mem a = (system calls s x b).bus.mem a := by
    intro a ha
    rw [mem_succ_of_resting hal (by rw [hd]; exact hc.current) (.inl (by rw [hd]; exact hne)) hr ha,
      hM a ha]
  have hd' := driver_succ calls s x t
  have hregs := regs_succ calls s x t
  rw [hd] at hd' hregs
  cases hgo : (x t).go with
  | false =>
    have hact : (Driver.mk k pc).acts (x t).go = false := by
      simp [Driver.acts, hgo, hpc.2]
    refine .programming k pc c b (hd'.trans (next_of_not_acts hact)) hpc hne hc.succ hr' ?_ hM'
    rw [hregs, port_of_not_acts hact]
    exact hp.pause hpc rfl
  | true =>
    have hact : (Driver.mk k pc).acts (x t).go = true := by simp [Driver.acts, hgo]
    rw [hgo, next_of_write hc.current hpc] at hd'
    have hp' : Programmed c (system calls s x (t + 1)).bus.entity.regs pc.afterWrite := by
      rw [hregs, port_of_acts hc.current hact]
      exact hp.write hpc
    by_cases hstart : pc = .writeStart
    · subst hstart
      exact .started k c b t hd' hc.succ ⟨hd, hgo⟩ rfl hr' hp' hM'
    · refine .programming k _ c b hd' ?_ ?_ hc.succ hr' hp' hM' <;>
        cases pc <;> simp_all [DriverPc.IsWrite, DriverPc.afterWrite]

/-- In the cycle after the start command the machine leaves `IDLE`.  A poll that begins in this
cycle reads the flag of the previous job; if there was none, it is clear. -/
lemma stage_of_started {k : ℕ} {c : Call} {b v : ℕ} (hal : LeavesAlone calls s x t)
    (hsp : Spaced calls s x v) (hd : (system calls s x t).driver = ⟨k, .poll⟩)
    (hc : InCall calls s x c k b t) (hv : Starts calls s x k v) (ht : t = v + 1)
    (hr : Resting (decide (0 < k)) (system calls s x t).bus)
    (hp : Programmed c (system calls s x t).bus.entity.regs .poll)
    (hM : ∀ a ∈ c.area, (system calls s x t).bus.mem a = (system calls s x b).bus.mem a) :
    Stage calls s x (t + 1) := by
  have hund := undisturbed_of_poll hal hd hc.current (.inl rfl)
  have hjob : (system calls s x t).bus.entity.regs.job = c.job := by rw [hp]; rfl
  have hload : OnBus.Loading c.job c.area (system calls s x b).bus.mem
      (system calls s x (t + 1)).bus := by
    rw [← hjob]
    exact OnBus.loading_of_start hr.idle (by rw [hp]) hr.requests hM hund
  have hu : OnBus.Underway customInstruction c.job c.area (system calls s x b).bus.mem
      (system calls s x (t + 1)).bus := ⟨OnBus.start_step hund, .inl hload⟩
  have hl : Launched calls s x c k b v := ⟨hv, by rw [ht] at hload; exact hload⟩
  have hd' := driver_succ calls s x t
  rw [hd] at hd'
  cases hgo : (x t).go with
  | false =>
    have hact : (Driver.mk k .poll).acts (x t).go = false := by simp [Driver.acts, hgo]
    exact .polling k c b v (hd'.trans (next_of_not_acts hact)) hc.succ hl (by omega) hu
  | true =>
    have hk : ¬ 0 < k := by
      intro hk
      have := hsp (by rw [hv.1]) (by rw [hv.1]; exact hk) hv.2
      rw [← ht, hgo] at this
      exact absurd this (by simp)
    have hact : (Driver.mk k .poll).acts (x t).go = true := by simp [Driver.acts, hgo]
    rw [hgo, next_of_poll hc.current] at hd'
    refine .holding k c b v hd' hc.succ hl (by omega) hu (.inl ?_)
    rw [sReadData_succ, hd, port_of_acts hc.current hact, Call.access, slaveReadProcess_readFinish,
      hr.finish, decide_eq_false hk]
    rfl

/-- Once the machine has left `IDLE`, a poll that reads a set flag reads that of its own job. -/
lemma stage_of_polling {k : ℕ} {c : Call} {b v : ℕ} (hal : LeavesAlone calls s x t)
    (hd : (system calls s x t).driver = ⟨k, .poll⟩) (hc : InCall calls s x c k b t)
    (hl : Launched calls s x c k b v) (ht : v + 2 ≤ t)
    (hu : OnBus.Underway customInstruction c.job c.area (system calls s x b).bus.mem
      (system calls s x t).bus) : Stage calls s x (t + 1) := by
  have hund := undisturbed_of_poll hal hd hc.current (.inl rfl)
  have hu' : OnBus.Underway customInstruction c.job c.area (system calls s x b).bus.mem
      (system calls s x (t + 1)).bus := hu.step (le_refl _) hund
  have hd' := driver_succ calls s x t
  rw [hd] at hd'
  cases hgo : (x t).go with
  | false =>
    have hact : (Driver.mk k .poll).acts (x t).go = false := by simp [Driver.acts, hgo]
    exact .polling k c b v (hd'.trans (next_of_not_acts hact)) hc.succ hl (by omega) hu'
  | true =>
    have hact : (Driver.mk k .poll).acts (x t).go = true := by simp [Driver.acts, hgo]
    rw [hgo, next_of_poll hc.current] at hd'
    refine .holding k c b v hd' hc.succ hl (by omega) hu' ?_
    rw [sReadData_succ, hd, port_of_acts hc.current hact, Call.access, slaveReadProcess_readFinish]
    cases hf : (system calls s x t).bus.entity.master.finish with
    | false => exact .inl rfl
    | true =>
      have hdone : OnBus.Done customInstruction c.job c.area (system calls s x b).bus.mem
          (system calls s x (t + 1)).bus := (hu.done hf).step hu.start rfl hund.other
      have hlow : finishFrom calls s x (v + 2) 0 = false :=
        hl.loading.requests.busy (by simp [hl.loading.state])
      have hhigh : finishFrom calls s x (v + 2) (t - (v + 2)) = true := by
        rw [finishFrom, Nat.add_sub_cancel' ht]
        exact hf
      obtain ⟨w, hw, hrise⟩ := exists_firstRise hlow hhigh
      exact .inr ⟨hdone.finish, w, hrise, by omega⟩

/-- At the end of a poll the call returns or polls again. -/
lemma stage_of_holding {k : ℕ} {c : Call} {b v : ℕ} (hal : LeavesAlone calls s x t)
    (hd : (system calls s x t).driver = ⟨k, .pollHold⟩) (hc : InCall calls s x c k b t)
    (hl : Launched calls s x c k b v) (ht : v + 2 ≤ t)
    (hu : OnBus.Underway customInstruction c.job c.area (system calls s x b).bus.mem
      (system calls s x t).bus)
    (hread : (system calls s x t).bus.entity.sReadData = 0 ∨
      (system calls s x t).bus.entity.master.finish = true ∧
        ∃ w, FirstRise (finishFrom calls s x (v + 2)) w ∧ v + 2 + w < t) :
    Stage calls s x (t + 1) := by
  have hund := undisturbed_of_poll hal hd hc.current (.inr rfl)
  have hd' := driver_succ calls s x t
  rw [hd] at hd'
  by_cases hzero : (system calls s x t).bus.entity.sReadData = 0
  · rw [hzero, next_of_pollHold_zero hc.current] at hd'
    exact .polling k c b v hd' hc.succ hl (by omega) (hu.step (le_refl _) hund)
  · rw [next_of_pollHold hc.current hzero] at hd'
    have hdone : OnBus.Done customInstruction c.job c.area (system calls s x b).bus.mem
        (system calls s x (t + 1)).bus :=
      (hu.done (hread.resolve_left hzero).1).step hu.start rfl hund.other
    refine .waiting (k + 1) hd' ?_ (OnBus.start_step hund)
    rw [decide_eq_true (Nat.succ_pos k)]
    exact resting_of_done hdone

/-- The step lemma: if the start commands so far have been followed by a pause, a stage is followed
by a stage. -/
lemma Stage.succ (hal : LeavesAlone calls s x t) (hsp : ∀ u < t, Spaced calls s x u)
    (h : Stage calls s x t) : Stage calls s x (t + 1) := by
  cases h with
  | waiting k hd hr hs => exact stage_of_waiting hal hd hr hs
  | programming k pc c b hd hpc hne hc hr hp hM =>
    exact stage_of_programming hal hd hpc hne hc hr hp hM
  | started k c b v hd hc hv ht hr hp hM =>
    exact stage_of_started hal (hsp v (by omega)) hd hc hv ht hr hp hM
  | polling k c b v hd hc hl ht hu => exact stage_of_polling hal hd hc hl ht hu
  | holding k c b v hd hc hl ht hu hread => exact stage_of_holding hal hd hc hl ht hu hread

/-- The run lemma: as long as the start commands are followed by a pause, every cycle is at one of
the stages. -/
theorem stage_of_spaced (hs : s.Initial) (hal : ∀ t, LeavesAlone calls s x t)
    (hsp : ∀ u, u + 1 < t → Spaced calls s x u) : Stage calls s x t := by
  induction t with
  | zero =>
    obtain ⟨hr, hstart⟩ := resting_of_afterReset hs.reset
    exact .waiting 0 hs.driver hr hstart
  | succ t ih =>
    exact (ih fun u hu => hsp u (by omega)).succ (hal t) fun u hu => hsp u (by omega)

/-- The end of a polling loop finds the job of its own call completed, as long as the start commands
are followed by a pause. -/
lemma honoured_of_stage {k : ℕ} {c : Call} (hal : LeavesAlone calls s x t) (hwf : c.WellFormed)
    (hc : calls[k]? = some c) (hret : Returns calls s x k t) (h : Stage calls s x t) :
    Honoured calls s x c k t := by
  cases h with
  | holding k' c' b v hd hc' hl ht hu hread =>
    obtain ⟨hd₀, hzero⟩ := hret
    obtain ⟨rfl, -⟩ := Driver.mk.inj (hd.symm.trans hd₀)
    obtain rfl : c = c' := Option.some.inj (hc.symm.trans hc'.current)
    obtain ⟨hf, w, hrise, hw⟩ := hread.resolve_left hzero
    have hund := undisturbed_of_poll hal hd hc (.inr rfl)
    have hdone : OnBus.Done customInstruction c.job c.area (system calls s x b).bus.mem
        (system calls s x (t + 1)).bus := (hu.done hf).step hu.start rfl hund.other
    refine ⟨⟨v, w, hl.starts, hl.loading.state, hl.loading.job, hrise, hw⟩, b, hc'.lt.le,
      hc'.begins, ?_⟩
    intro i hi
    have ha : wordIndex (element c.result 4 i) ∈ c.area := ⟨i, hi.le, .inr rfl⟩
    rw [hdone.mem _ ha]
    exact outcome_element hwf.size hwf.data hwf.result
      (fun i k hik hk => hwf.disjoint i (by omega) k hk.le) _ hi
  | _ => simp_all [Returns, DriverPc.IsWrite]

/-- The driver never goes back in a run. -/
lemma rank_mono {t u : ℕ} (htu : t ≤ u) :
    (system calls s x t).driver.rank ≤ (system calls s x u).driver.rank := by
  induction u, htu using Nat.le_induction with
  | base => exact le_refl _
  | succ u _ ih => exact ih.trans (by rw [driver_succ]; exact rank_le_next _ _)

/-- A call gives its start command once. -/
lemma not_starts_before {k v t : ℕ} (hk : k < calls.length) (hv : Starts calls s x k v)
    (hvt : v < t) : ¬ Starts calls s x k t := by
  intro ht
  have hnext : (system calls s x (v + 1)).driver = ⟨k, .poll⟩ := by
    rw [driver_succ, hv.1, hv.2]
    exact next_of_write (List.getElem?_eq_getElem hk) ⟨by simp, by simp⟩
  have hrank : (system calls s x (v + 1)).driver.rank ≤ (system calls s x t).driver.rank :=
    rank_mono hvt
  rw [hnext, ht.1] at hrank
  simp [Driver.rank] at hrank

/-- Without a pause after its start command, a call after the first one returns at once, because its
first poll reads the flag of the previous job. -/
lemma returns_of_not_spaced (h : Stage calls s x t) (hsp : ¬ Spaced calls s x t) :
    ∃ k c, calls[k]? = some c ∧ Starts calls s x k t ∧ Returns calls s x k (t + 2) := by
  simp only [Spaced, Classical.not_imp, Bool.not_eq_false] at hsp
  obtain ⟨hpc, hpos, hgo, hgo'⟩ := hsp
  cases h with
  | programming k pc c b hd hw hne hc hr hp hM =>
    rw [hd] at hpc hpos
    obtain rfl : pc = .writeStart := hpc
    have hr' : Resting (decide (0 < k)) (system calls s x (t + 1)).bus := hr.step (hp.start hw) rfl
    have hd' : (system calls s x (t + 1)).driver = ⟨k, .poll⟩ := by
      rw [driver_succ, hd, hgo]
      exact next_of_write hc.current hw
    have hact : (Driver.mk k .poll).acts (x (t + 1)).go = true := by simp [Driver.acts, hgo']
    refine ⟨k, c, hc.current, ⟨hd, hgo⟩, ?_, ?_⟩
    · rw [driver_succ, hd', hgo']
      exact next_of_poll hc.current
    · rw [sReadData_succ, hd', port_of_acts hc.current hact, Call.access,
        slaveReadProcess_readFinish, hr'.finish, decide_eq_true hpos]
      decide
  | _ => simp_all

/-- Whatever the calls are, whatever pauses the driver makes and however the bus stalls: the end of
each polling loop means what it should if and only if every start command after that of the first
call is followed by at least one cycle without an access. -/
theorem honoured_iff_spaced (hs : s.Initial) (hwf : ∀ c ∈ calls, c.WellFormed)
    (hal : ∀ t, LeavesAlone calls s x t) :
    (∀ k c t, calls[k]? = some c → Returns calls s x k t → Honoured calls s x c k t) ↔
      ∀ t, Spaced calls s x t := by
  constructor
  · intro hhon t
    induction t using Nat.strong_induction_on with
    | _ t ih =>
      by_contra hsp
      have hstage : Stage calls s x t := stage_of_spaced hs hal fun u hu => ih u (by omega)
      obtain ⟨k, c, hc, hstart, hret⟩ := returns_of_not_spaced hstage hsp
      obtain ⟨v, w, hv, -, -, -, hw⟩ := (hhon k c _ hc hret).completed
      exact not_starts_before (lt_of_getElem? hc) hv (by omega) hstart
  · intro hsp k c t hc hret
    have hmem : c ∈ calls := List.mem_of_getElem? hc
    exact honoured_of_stage (hal t) (hwf c hmem) hc hret (stage_of_spaced hs hal fun u _ => hsp u)

end StageStep

/-! ## Two calls in a row -/

/-- Two calls that reshuffle one word each. -/
def twoCalls : List Call := [⟨0x1000, 0x2000, 1⟩, ⟨0x3000, 0x4000, 1⟩]

/-- The accelerator after a reset, with a memory that holds `0x12345678` in every word. -/
def afterReset : System where
  bus := ⟨run (Entity.step customInstruction) Entity.zero (fun _ => resetThenQuiet 0) 1,
    fun _ => 0x12345678⟩
  driver := ⟨0, .writeData⟩

/-- A driver that acts in the cycles given by `go`, on a bus that never stalls. -/
def promptEnvironment (go : ℕ → Bool) (t : ℕ) : Environment :=
  { go := go t, idlePort := writeStart, mWaitRequest := false, idleData := 0, other := none }

/-- The system is initially as it should be. -/
lemma initial_afterReset : afterReset.Initial :=
  ⟨⟨Entity.zero, fun _ => resetThenQuiet 0, 0, powerUp_zero, fun _ _ => rfl, rfl⟩, rfl⟩

/-- The arguments of the two calls are as they should be. -/
lemma wellFormed_twoCalls : ∀ c ∈ twoCalls, c.WellFormed := by
  intro c hc
  have hmem : c = ⟨0x1000, 0x2000, 1⟩ ∨ c = ⟨0x3000, 0x4000, 1⟩ := by simpa [twoCalls] using hc
  rcases hmem with rfl | rfl <;>
    exact ⟨by decide, by decide, by decide, by decide⟩

/-- Nobody else writes. -/
lemma leavesAlone_promptEnvironment (go : ℕ → Bool) (t : ℕ) :
    LeavesAlone twoCalls afterReset (promptEnvironment go) t := fun _ _ _ _ _ _ => by
  simp [promptEnvironment]

instance (calls : List Call) (s : System) (x : ℕ → Environment) (k t : ℕ) :
    Decidable (Returns calls s x k t) := inferInstanceAs (Decidable (_ ∧ _))

instance (calls : List Call) (s : System) (x : ℕ → Environment) (k t : ℕ) :
    Decidable (Begins calls s x k t) := inferInstanceAs (Decidable (_ ∧ _))

/-- A driver that never pauses: the second call returns two cycles after its start command, and its
result has not been written. -/
theorem honoured_fails_noPause :
    afterReset.Initial ∧ (∀ c ∈ twoCalls, c.WellFormed) ∧
      (∀ t, LeavesAlone twoCalls afterReset (promptEnvironment fun _ => true) t) ∧
      Returns twoCalls afterReset (promptEnvironment fun _ => true) 1 23 ∧
      ¬ Honoured twoCalls afterReset (promptEnvironment fun _ => true) ⟨0x3000, 0x4000, 1⟩ 1
        23 := by
  refine ⟨initial_afterReset, wellFormed_twoCalls, leavesAlone_promptEnvironment _,
    by decide +kernel, ?_⟩
  intro h
  obtain ⟨b, hb, -, hres⟩ := h.result
  have hsource : ∀ b ≤ 23, (system twoCalls afterReset (promptEnvironment fun _ => true) b).bus.mem
      (wordIndex 0x3000) = 0x12345678 := by decide +kernel
  have hword := hres 0 (by decide)
  rw [element_zero, element_zero, hsource b hb] at hword
  exact absurd hword (by decide +kernel)

/-- A driver that pauses after each access: when the second call returns, the result is there. -/
theorem honoured_iff_spaced_pauses :
    (system twoCalls afterReset (promptEnvironment fun t => t % 2 == 0) 44).bus.mem
      (wordIndex 0x4000) = 0x786A2C12 := by
  have hspaced : ∀ t, Spaced twoCalls afterReset (promptEnvironment fun t => t % 2 == 0) t := by
    intro t _ _ hgo
    simp only [promptEnvironment, beq_iff_eq, beq_eq_false_iff_ne] at hgo ⊢
    omega
  have hhon := (honoured_iff_spaced initial_afterReset wellFormed_twoCalls
    (leavesAlone_promptEnvironment _)).mpr hspaced 1 ⟨0x3000, 0x4000, 1⟩ 43 rfl (by decide +kernel)
  obtain ⟨b, hb, -, hres⟩ := hhon.result
  have hsource : ∀ b ≤ 43, (system twoCalls afterReset
      (promptEnvironment fun t => t % 2 == 0) b).bus.mem (wordIndex 0x3000) = 0x12345678 := by
    decide +kernel
  have hword := hres 0 (by decide)
  rw [element_zero, element_zero, hsource b hb] at hword
  rw [hword]
  decide

end CyclonRtes.Swap
