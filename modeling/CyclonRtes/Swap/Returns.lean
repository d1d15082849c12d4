import CyclonRtes.Swap.Polling
import CyclonRtes.Swap.Progress
import CyclonRtes.Synchronous.Fairness

/-!
# Every call of the driver returns

The polling loop of `bit_reshuffle_hardware_accelerator` has no time-out.  It ends all the same:
whatever state the accelerator is in when a call begins, be it in the middle of somebody else's job,
and however the processor pauses and the bus stalls, as long as neither lasts for ever
(`calls_return`).  What the end of the loop means is another question; see `honoured_iff_spaced`.

The measure is `System.remaining`: the register writes still to be made, then the clock edges until
the machine is idle, then the rest of the poll that sees the flag.  The driver is owed a turn in the
first and in the last part, the bus in between; the polls in between count for nothing.
-/

namespace CyclonRtes.Swap

open Synchronous

/-! ## The machine while the driver polls -/

section Pending

variable {v : Variant} {e : Entity} {i : Inputs}

/-- The number of unstalled edges until the machine is idle and stays so, if no register is
written. -/
def Entity.pending (e : Entity) : ℕ :=
  if e.master.state = .idle then if e.regs.start then 5 * e.regs.regLgt.toNat + 7 else 0
  else e.master.remaining e.regs.regLgt

/-- A machine that is at rest has set the flag. -/
def Entity.Awaited (e : Entity) : Prop := e.pending = 0 → e.master.finish = true

/-- The most that can be pending. -/
lemma pending_le : e.pending ≤ 5 * 2 ^ 32 + 2 := by
  have hlgt := e.regs.regLgt.isLt
  have hcnt := e.master.cntLgt.isLt
  unfold Entity.pending
  split_ifs
  · omega
  · omega
  · cases hs : e.master.state <;> simp only [Master.remaining, hs] <;> omega

/-- Nothing is pending when the machine is idle without a start pulse. -/
lemma pending_eq_zero : e.pending = 0 ↔ e.master.state = .idle ∧ e.regs.start = false := by
  unfold Entity.pending
  by_cases hidle : e.master.state = .idle
  · cases hs : e.regs.start <;> simp [hidle]
  · rw [if_neg hidle]
    cases hs : e.master.state <;> simp_all [Master.remaining]

/-- The registers in a cycle without a write. -/
lemma regs_of_not_writes (hi : i.nReset = true) (hw : i.slave.writes = false) :
    (e.step v i).regs = { e.regs with start := false } := by
  rw [step_regs hi, slaveWriteProcess_of_not_writes hw]

/-- A machine at rest stays at rest. -/
lemma step_of_pending_zero (hi : i.nReset = true) (hw : i.slave.writes = false)
    (h : e.pending = 0) :
    (e.step v i).pending = 0 ∧ (e.step v i).master.finish = e.master.finish := by
  obtain ⟨hidle, hs⟩ := pending_eq_zero.mp h
  have hmaster : (e.step v i).master = _ := step_master hi
  rw [fsm_idle hidle hs] at hmaster
  refine ⟨pending_eq_zero.mpr ⟨?_, ?_⟩, ?_⟩
  · rw [hmaster]; exact hidle
  · rw [regs_of_not_writes hi hw]
  · rw [hmaster]

/-- A machine that is not at rest comes one edge closer to it, unless the bus stalls it. -/
lemma pending_step (hi : i.nReset = true) (hw : i.slave.writes = false) (h : e.pending ≠ 0) :
    (e.step v i).pending + 1 = e.pending ∨
      i.mWaitRequest = true ∧ (e.step v i).pending = e.pending := by
  have hmaster : (e.step v i).master = _ := step_master hi
  have hregs := regs_of_not_writes (v := v) hi hw (e := e)
  by_cases hidle : e.master.state = .idle
  · have hs : e.regs.start = true := by
      by_contra hs
      exact h (pending_eq_zero.mpr ⟨hidle, by simpa using hs⟩)
    rw [fsm_idle_start hidle hs] at hmaster
    simp [Entity.pending, hmaster, hregs, hidle, hs, Master.remaining]
  · by_cases hst : e.master.Stalled i.mWaitRequest
    · rw [fsm_of_stalled hst] at hmaster
      refine .inr ⟨hst.2, ?_⟩
      simp [Entity.pending, hmaster, hregs, hidle]
    · have hdrop := fsm_remaining (v := v) (d := i.mReadData) (n := e.regs.regLgt) (r := e.regs)
        hidle hst
      rw [← hmaster] at hdrop
      have hstart : (e.step v i).regs.start = false := by rw [hregs]
      have hlgt : (e.step v i).regs.regLgt = e.regs.regLgt := by rw [hregs]
      refine .inl ?_
      rw [Entity.pending, Entity.pending, if_neg hidle, hstart, hlgt]
      by_cases hidle' : (e.step v i).master.state = .idle
      · rw [← hdrop]
        simp [Master.remaining, hidle']
      · rw [if_neg hidle']
        exact hdrop

/-- A machine comes to rest only by setting the flag. -/
lemma Entity.Awaited.step (h : e.Awaited) (hi : i.nReset = true) (hw : i.slave.writes = false) :
    (e.step v i).Awaited := by
  intro h0
  have hmaster : (e.step v i).master = _ := step_master hi
  have hidle' := (pending_eq_zero.mp h0).1
  by_cases hz : e.pending = 0
  · rw [(step_of_pending_zero hi hw hz).2]
    exact h hz
  · by_cases hidle : e.master.state = .idle
    · have hs : e.regs.start = true := by
        by_contra hs
        exact hz (pending_eq_zero.mpr ⟨hidle, by simpa using hs⟩)
      rw [hmaster, fsm_idle_start hidle hs] at hidle'
      exact absurd hidle' (by simp)
    · rw [hmaster] at hidle' ⊢
      exact finish_of_fsm_idle hidle hidle'

end Pending

/-! ## The measure of a call -/

instance (pc : DriverPc) : Decidable pc.IsWrite := inferInstanceAs (Decidable (_ ∧ _))

/-- Who has to act for the call to go on. -/
inductive Actor where
  | driver | bus
  deriving DecidableEq, Repr

/-- The actor acts in a cycle: the driver when it is let go, the bus when it does not stall. -/
def Actor.acts (x : Environment) : Actor → Prop
  | .driver => x.go = true
  | .bus => x.mWaitRequest = false

namespace System

/-- What the current call has still to do.  The first summand of the writes is more than what can be
pending afterwards. -/
def remaining (s : System) : ℕ :=
  match s.driver.pc with
  | .writeData => 5 * 2 ^ 32 + 8
  | .writeSize => 5 * 2 ^ 32 + 7
  | .writeResult => 5 * 2 ^ 32 + 6
  | .writeStart => 5 * 2 ^ 32 + 5
  | .poll => if s.bus.entity.pending = 0 then 1 else s.bus.entity.pending + 2
  | .pollHold =>
    if s.bus.entity.pending = 0 then if s.bus.entity.sReadData = 0 then 2 else 0
    else s.bus.entity.pending + 2

/-- The actor that is owed a turn. -/
def owed (s : System) : Set Actor :=
  {if s.driver.pc.IsWrite ∨ s.bus.entity.pending = 0 then .driver else .bus}

/-- Call `k` is being made, and while it polls the machine is on its way to set the flag. -/
structure Calling (k : ℕ) (s : System) : Prop where
  call : s.driver.call = k
  awaited : ¬ s.driver.pc.IsWrite → s.bus.entity.Awaited

end System

section Step

variable {calls : List Call} {s : System} {x : Environment} {k : ℕ} {c : Call} {pc : DriverPc}

/-- While the driver polls, no register is written. -/
lemma port_of_not_isWrite (hc : calls[k]? = some c) (hpc : ¬ pc.IsWrite) :
    ((Driver.mk k pc).port calls x).writes = false := by
  cases hacts : (Driver.mk k pc).acts x.go with
  | false => rw [port_of_not_acts hacts]; rfl
  | true =>
    rw [port_of_acts hc hacts]
    cases pc <;> simp_all [DriverPc.IsWrite] <;> rfl

/-- The driver after a cycle. -/
lemma driver_step : (s.step calls x).driver =
    s.driver.next calls x.go s.bus.entity.sReadData := rfl

/-- The accelerator after a cycle. -/
lemma entity_step : (s.step calls x).bus.entity =
    s.bus.entity.step customInstruction (s.bus.inputs (s.busInputs calls x)) := rfl

/-- While the driver polls, what the call has still to do is little more than what is pending. -/
lemma remaining_of_polling (hpc : ¬ s.driver.pc.IsWrite) :
    s.remaining ≤ s.bus.entity.pending + 2 ∧
      (s.bus.entity.pending ≠ 0 → s.remaining = s.bus.entity.pending + 2) := by
  unfold System.remaining
  cases h : s.driver.pc with
  | writeData | writeSize | writeResult | writeStart => simp [h, DriverPc.IsWrite] at hpc
  | poll | pollHold => constructor <;> (dsimp only; split_ifs <;> omega)

/-- Before a register write nothing happens until the driver acts. -/
lemma step_of_write_pause (hd : s.driver = ⟨k, pc⟩) (hpc : pc.IsWrite) (hgo : x.go = false) :
    (s.step calls x).driver = ⟨k, pc⟩ ∧ (s.step calls x).remaining = s.remaining := by
  have hd' : (s.step calls x).driver = ⟨k, pc⟩ := by
    rw [driver_step, hd]
    refine next_of_not_acts ?_
    cases pc <;> simp_all [Driver.acts, DriverPc.IsWrite]
  refine ⟨hd', ?_⟩
  unfold System.remaining
  rw [hd', hd]
  cases pc <;> simp_all [DriverPc.IsWrite]

/-- A register write leads to the next one, and the last one to the polls. -/
lemma step_of_write (hd : s.driver = ⟨k, pc⟩) (hc : calls[k]? = some c) (hpc : pc.IsWrite)
    (hgo : x.go = true) :
    (s.step calls x).Calling k ∧ (s.step calls x).remaining < s.remaining := by
  have hd' : (s.step calls x).driver = ⟨k, pc.afterWrite⟩ := by
    rw [driver_step, hd, hgo]
    exact next_of_write hc hpc
  have hport : s.driver.port calls x = c.access pc := by
    rw [hd]
    exact port_of_acts hc (by simp [Driver.acts, hgo])
  have hregs : (s.step calls x).bus.entity.regs =
      slaveWriteProcess true (c.access pc) s.bus.entity.regs := by
    rw [← hport]
    exact step_regs (i := s.bus.inputs (s.busInputs calls x)) rfl
  constructor
  · refine ⟨by rw [hd'], fun hpoll h0 => ?_⟩
    -- the start pulse that the last write has raised is still pending
    have hstart := (pending_eq_zero.mp h0).2
    rw [hregs] at hstart
    rw [hd'] at hpoll
    cases pc <;> simp_all [DriverPc.IsWrite, DriverPc.afterWrite, Call.access,
      slaveWriteProcess_writeStart]
  · have hle := pending_le (e := (s.step calls x).bus.entity)
    unfold System.remaining
    rw [hd', hd]
    cases pc with
    | writeData | writeSize | writeResult => simp [DriverPc.afterWrite]
    | writeStart => dsimp only [DriverPc.afterWrite]; split_ifs <;> omega
    | poll | pollHold => simp [DriverPc.IsWrite] at hpc

/-- A poll that does not return is followed by the next one. -/
lemma next_of_polling {d : Word} (hc : calls[k]? = some c) (hpc : ¬ pc.IsWrite)
    (hret : ¬ (pc = .pollHold ∧ d ≠ 0)) (go : Bool) :
    ∃ pc', (Driver.mk k pc).next calls go d = ⟨k, pc'⟩ ∧ ¬ pc'.IsWrite := by
  cases pc with
  | writeData | writeSize | writeResult | writeStart => simp [DriverPc.IsWrite] at hpc
  | poll =>
    cases go with
    | true => exact ⟨_, next_of_poll hc, by simp [DriverPc.IsWrite]⟩
    | false => exact ⟨_, next_of_not_acts rfl, hpc⟩
  | pollHold =>
    obtain rfl : d = 0 := by simpa using hret
    exact ⟨_, next_of_pollHold_zero hc, by simp [DriverPc.IsWrite]⟩

/-- At rest the driver only has to finish the poll in which it sees the flag. -/
lemma step_of_rest (hd : s.driver = ⟨k, pc⟩) (hc : calls[k]? = some c) (hpc : ¬ pc.IsWrite)
    (hret : ¬ (pc = .pollHold ∧ s.bus.entity.sReadData ≠ 0)) (h0 : s.bus.entity.pending = 0)
    (h0' : (s.step calls x).bus.entity.pending = 0) (hf : s.bus.entity.master.finish = true) :
    (s.step calls x).remaining < s.remaining ∨
      (s.step calls x).remaining = s.remaining ∧ x.go = false := by
  have hd' : (s.step calls x).driver = s.driver.next calls x.go s.bus.entity.sReadData :=
    driver_step
  rw [hd] at hd'
  cases pc with
  | writeData | writeSize | writeResult | writeStart => simp [DriverPc.IsWrite] at hpc
  | poll =>
    cases hgo : x.go with
    | false =>
      rw [next_of_not_acts (by simp [Driver.acts, hgo])] at hd'
      exact .inr ⟨by simp [System.remaining, hd, hd', h0, h0'], rfl⟩
    | true =>
      rw [hgo, next_of_poll hc] at hd'
      have hread : (s.step calls x).bus.entity.sReadData = 1 := by
        have hport : s.driver.port calls x = readFinish := by
          rw [hd, port_of_acts hc (by simp [Driver.acts, hgo])]
          rfl
        have h := step_sReadData (v := customInstruction) (e := s.bus.entity)
          (i := s.bus.inputs (s.busInputs calls x)) rfl
        change _ = slaveReadProcess (s.driver.port calls x) _ _ _ at h
        rw [hport, slaveReadProcess_readFinish, hf] at h
        exact h
      exact .inl (by simp [System.remaining, hd, hd', h0, h0', hread])
  | pollHold =>
    have hzero : s.bus.entity.sReadData = 0 := by simpa using hret
    rw [hzero, next_of_pollHold_zero hc] at hd'
    exact .inl (by simp [System.remaining, hd, hd', h0, h0', hzero])

/-- The step lemma: a call that does not return goes on, and either it has less to do or it was not
the turn of the actor that is owed it. -/
lemma System.Calling.step (h : s.Calling k) (hc : calls[k]? = some c)
    (hret : ¬ (s.driver.pc = .pollHold ∧ s.bus.entity.sReadData ≠ 0)) :
    (s.step calls x).Calling k ∧ ((s.step calls x).remaining < s.remaining ∨
      (s.step calls x).remaining = s.remaining ∧ (s.step calls x).owed = s.owed ∧
        ∀ a ∈ s.owed, ¬ a.acts x) := by
  obtain ⟨hcall, hawaited⟩ := h
  obtain ⟨pc, hpc'⟩ : ∃ pc, s.driver.pc = pc := ⟨_, rfl⟩
  have hd : s.driver = ⟨k, pc⟩ := by rw [← hcall, ← hpc']
  by_cases hpc : pc.IsWrite
  · cases hgo : x.go with
    | true =>
      obtain ⟨hcalling, hlt⟩ := step_of_write hd hc hpc hgo
      exact ⟨hcalling, .inl hlt⟩
    | false =>
      obtain ⟨hd', hrem⟩ : (s.step calls x).driver = ⟨k, pc⟩ ∧
          (s.step calls x).remaining = s.remaining := step_of_write_pause hd hpc hgo
      refine ⟨⟨by rw [hd'], fun hne => absurd hpc (by rwa [hd'] at hne)⟩, .inr ⟨hrem, ?_, ?_⟩⟩
      · simp [System.owed, hd, hd', hpc]
      · simp [System.owed, hd, hpc, Actor.acts, hgo]
  · have hwrites : ((s.bus.inputs (s.busInputs calls x)).slave).writes = false := by
      change (s.driver.port calls x).writes = false
      rw [hd]
      exact port_of_not_isWrite hc hpc
    rw [hpc'] at hawaited hret
    have hawaited' : (s.step calls x).bus.entity.Awaited := (hawaited hpc).step rfl hwrites
    obtain ⟨pc', hnext, hpc''⟩ := next_of_polling hc hpc hret x.go
    have hd' : (s.step calls x).driver = ⟨k, pc'⟩ := by rw [driver_step, hd, hnext]
    refine ⟨⟨by rw [hd'], fun _ => hawaited'⟩, ?_⟩
    have hrem := remaining_of_polling (s := s) (by rwa [hd])
    have hrem' := remaining_of_polling (s := s.step calls x) (by rwa [hd'])
    by_cases h0 : s.bus.entity.pending = 0
    · obtain ⟨h0', -⟩ := step_of_pending_zero (v := customInstruction) rfl hwrites h0
      refine (step_of_rest hd hc hpc hret h0 h0' (hawaited hpc h0)).imp_right ?_
      rintro ⟨heq, hgo⟩
      refine ⟨heq, ?_, ?_⟩
      · simp [System.owed, h0, entity_step, h0']
      · simp [System.owed, h0, Actor.acts, hgo]
    · have hsame := hrem.2 h0
      rcases pending_step (v := customInstruction) rfl hwrites h0 with hdrop | ⟨hstall, heq⟩
      · rw [← entity_step] at hdrop
        exact .inl (by omega)
      · rw [← entity_step] at heq
        have h0' : (s.step calls x).bus.entity.pending ≠ 0 := by rwa [heq]
        refine .inr ⟨by have := hrem'.2 h0'; omega, ?_, ?_⟩
        · simp [System.owed, hd, hd', hpc, hpc'', h0, h0']
        · have hstall' : x.mWaitRequest = true := hstall
          simp [System.owed, hd, hpc, h0, Actor.acts, hstall']

end Step

section Run

variable {calls : List Call} {s : System} {x : ℕ → Environment} {k t : ℕ} {c : Call}

/-- A call that begins returns. -/
lemma exists_returns (hc : calls[k]? = some c) (ht : (system calls s x t).driver = ⟨k, .writeData⟩)
    (hgo : ∀ t, ∃ u, t ≤ u ∧ (x u).go = true)
    (hbus : ∀ t, ∃ u, t ≤ u ∧ (x u).mWaitRequest = false) :
    ∃ u, t ≤ u ∧ Returns calls s x k u := by
  by_contra hno
  have hret : ∀ n, (system calls s x (t + n)).Calling k →
      ¬ ((system calls s x (t + n)).driver.pc = .pollHold ∧
        (system calls s x (t + n)).bus.entity.sReadData ≠ 0) := by
    rintro n hcalling ⟨hpc, hread⟩
    refine hno ⟨t + n, Nat.le_add_right t n, ?_, hread⟩
    rw [← hcalling.call, ← hpc]
  have hcalling : ∀ n, (system calls s x (t + n)).Calling k := by
    intro n
    induction n with
    | zero =>
      exact ⟨by rw [Nat.add_zero, ht], fun hne => absurd (by simp [ht, DriverPc.IsWrite]) hne⟩
    | succ n ih => exact (ih.step hc (hret n ih)).1
  have hfair : ∀ (a : Actor) n, ∃ u, n ≤ u ∧ a.acts (x (t + u)) := by
    intro a n
    obtain ⟨u, hu, hacts⟩ : ∃ u, t + n ≤ u ∧ a.acts (x u) := by
      cases a with
      | driver => exact hgo (t + n)
      | bus => exact hbus (t + n)
    exact ⟨u - t, by omega, by rwa [Nat.add_sub_cancel' (by omega)]⟩
  obtain ⟨n, hn⟩ := exists_of_fair (G := fun n => Returns calls s x k (t + n))
    (fun n => (system calls s x (t + n)).remaining) (fun n => (system calls s x (t + n)).owed)
    (fun n a => a.acts (x (t + n))) (fun n _ => ⟨_, rfl⟩)
    (fun n _ => ((hcalling n).step hc (hret n (hcalling n))).2.imp_right fun h =>
      ⟨h.1, h.2.1.ge, h.2.2⟩) hfair
  exact hno ⟨t + n, Nat.le_add_right t n, hn⟩

/-- Every call returns, in order and whatever state the accelerator is in at the beginning, provided
that the processor goes on again and again and the bus does not stall for ever. -/
theorem calls_return (hs : s.driver = ⟨0, .writeData⟩) (hgo : ∀ t, ∃ u, t ≤ u ∧ (x u).go = true)
    (hbus : ∀ t, ∃ u, t ≤ u ∧ (x u).mWaitRequest = false) (hk : k < calls.length) :
    ∃ t, Returns calls s x k t ∧ ∀ l < k, ∃ u < t, Returns calls s x l u := by
  have hbegin : ∃ t, (system calls s x t).driver = ⟨k, .writeData⟩ ∧
      ∀ l < k, ∃ u < t, Returns calls s x l u := by
    induction k with
    | zero => exact ⟨0, hs, fun l hl => absurd hl (Nat.not_lt_zero l)⟩
    | succ k ih =>
      obtain ⟨t, ht, hbefore⟩ := ih (Nat.lt_of_succ_lt hk)
      have hc := List.getElem?_eq_getElem (Nat.lt_of_succ_lt hk)
      obtain ⟨u, htu, hu⟩ := exists_returns hc ht hgo hbus
      refine ⟨u + 1, ?_, fun l hl => ?_⟩
      · rw [driver_succ, hu.1]
        exact next_of_pollHold hc hu.2
      · rcases Nat.lt_succ_iff_lt_or_eq.mp hl with hlk | rfl
        · obtain ⟨w, hwt, hw⟩ := hbefore l hlk
          exact ⟨w, by omega, hw⟩
        · exact ⟨u, Nat.lt_succ_self u, hu⟩
  obtain ⟨t, ht, hbefore⟩ := hbegin
  obtain ⟨u, htu, hu⟩ := exists_returns (List.getElem?_eq_getElem hk) ht hgo hbus
  refine ⟨u, hu, fun l hl => ?_⟩
  obtain ⟨w, hwt, hw⟩ := hbefore l hl
  exact ⟨w, by omega, hw⟩

/-- The two calls return also when the driver makes no pause, which lets the second one return too
early, on a bus that stalls two cycles out of three. -/
theorem calls_return_noPause :
    let x := fun t => { promptEnvironment (fun _ => true) t with mWaitRequest := t % 3 != 0 }
    ∃ t, Returns twoCalls afterReset x 1 t ∧ ∀ l < 1, ∃ u < t, Returns twoCalls afterReset x l u :=
  calls_return rfl (fun t => ⟨t, le_rfl, rfl⟩)
    (fun t => ⟨3 * t, by omega, by simp⟩) (by decide)

end Run

end CyclonRtes.Swap
