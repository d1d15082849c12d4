import CyclonRtes.Channel.Fifo
import CyclonRtes.Multiprocessor.Protocol

/-!
# Two processors and a mailbox

The programs `cpu0_mailbox.c` and `cpu1_mailbox.c` of `multiprocessor`: CPU0 sends one message
through the mailbox, CPU1 retrieves one, and each of them shows on its LEDs how its call has ended.
The mailbox driver is not part of the repository.  The mailbox is a channel for one message; a call
of the driver succeeds and returns 0, fails and returns a non-zero status, or goes on polling.

The test of CPU1 compares the address of its local array with `NULL` and does not look at the
status.  The failure pattern is therefore never shown (`lights_cpu1`), and the LEDs of CPU1 tell the
truth if and only if no retrieval fails, or CPU1 makes no step after the failed one
(`agreement_iff`).  CPU0, which tests the status, always tells the truth (`lights_cpu0`).
-/

namespace CyclonRtes.Multiprocessor.Mailbox

open Channel Synchronous

/-! ## The driver -/

/-- The two words of a message. -/
structure Message where
  word0 : Word
  word1 : Word
  deriving DecidableEq, Repr

/-- What a call of the driver returns when it fails. -/
structure ErrorCode where
  status : Word
  nonzero : status ≠ 0

/-- How a call of the driver ends.  A failed `altera_avalon_mailbox_retrieve_poll` leaves `left` in
the array of the caller. -/
inductive Outcome where
  | succeeds
  | fails (code : ErrorCode) (left : Message)

/-- What `altera_avalon_mailbox_open` returns. -/
inductive Handle where
  | null | device
  deriving DecidableEq, Repr

/-- `altera_avalon_mailbox_open`. -/
def mailboxOpen : Outcome → Handle
  | .succeeds => .device
  | .fails _ _ => .null

/-- `altera_avalon_mailbox_send`: the status and the mailbox after the call.  The call goes on
polling if it is to succeed but cannot. -/
def mailboxSend (h : Handle) (message : Message) (box : Fifo Message 1) :
    Outcome → Option (Word × Fifo Message 1)
  | .succeeds =>
    if h = .device ∧ box.items.length < 1 then some (0, box.post message) else none
  | .fails code _ => some (code.status, box)

/-- `altera_avalon_mailbox_retrieve_poll`: the status, the array and the mailbox after the call. -/
def mailboxRetrievePoll (h : Handle) (box : Fifo Message 1) :
    Outcome → Option (Word × Message × Fifo Message 1)
  | .succeeds => if h = .device then box.pend.map fun (message, box) => (0, message, box) else none
  | .fails code left => some (code.status, left, box)

section Driver

variable {h : Handle} {m : Message} {box box' : Fifo Message 1} {o : Outcome} {status : Word}

/-- A send transfers the message and returns 0, or leaves the mailbox alone and returns something
else. -/
lemma mailboxSend_cases (hr : mailboxSend h m box o = some (status, box')) :
    status = 0 ∧ box.items.length < 1 ∧ box' = box.post m ∨ status ≠ 0 ∧ box' = box := by
  cases o with
  | fails code left =>
    obtain ⟨rfl, rfl⟩ := Prod.mk.inj (Option.some.inj hr)
    exact .inr ⟨code.nonzero, rfl⟩
  | succeeds =>
    simp only [mailboxSend, Option.ite_none_right_eq_some, Option.some.injEq, Prod.mk.injEq] at hr
    obtain ⟨⟨-, hroom⟩, rfl, rfl⟩ := hr
    exact .inl ⟨rfl, hroom, rfl⟩

/-- A retrieval transfers a message and returns 0, or leaves the mailbox alone and returns something
else. -/
lemma mailboxRetrievePoll_cases (hr : mailboxRetrievePoll h box o = some (status, m, box')) :
    status = 0 ∧ box.pend = some (m, box') ∨ status ≠ 0 ∧ box' = box := by
  cases o with
  | fails code left =>
    simp only [mailboxRetrievePoll, Option.some.injEq, Prod.mk.injEq] at hr
    obtain ⟨rfl, -, rfl⟩ := hr
    exact .inr ⟨code.nonzero, rfl⟩
  | succeeds =>
    simp only [mailboxRetrievePoll, Option.ite_none_right_eq_some, Option.map_eq_some_iff,
      Prod.mk.injEq, Prod.exists] at hr
    obtain ⟨-, m', q, hpend, rfl, rfl, rfl⟩ := hr
    exact .inl ⟨rfl, hpend⟩

end Driver

/-! ## The programs -/

/-- The next step of a program. -/
inductive MainPc where
  | opens | transfer | led | close | returned
  deriving DecidableEq, Repr

/-- The local variables of CPU0. -/
structure Cpu0 where
  pc : MainPc
  mailboxSender : Handle
  message : Message
  status : Word

/-- A local array of two words.  It is an object, so its address is not `NULL`. -/
structure LocalArray where
  address : Word
  nonzero : address ≠ 0
  words : Message

/-- The local variables of CPU1. -/
structure Cpu1 where
  pc : MainPc
  mailboxRcv : Handle
  rmessage : LocalArray

/-- The mailbox and the two processors. -/
structure System where
  box : Fifo Message 1
  cpu0 : Cpu0
  cpu1 : Cpu1

/-- Which processor makes the next step, and how its call of the driver ends, if the step is one. -/
structure Turn where
  cpu : Cpu
  outcome : Outcome

/-- The pattern that CPU0 shows. -/
def Cpu0.pattern (c : Cpu0) : Word := if c.status ≠ 0 then 0b01000000 else 0b10000000

/-- The pattern that CPU1 shows. -/
def Cpu1.pattern (c : Cpu1) : Word := if c.rmessage.address = 0 then 0b00010000 else 0b00100000

namespace System

/-- One step of CPU0. -/
def stepCpu0 (s : System) (o : Outcome) : System :=
  match s.cpu0.pc with
  | .opens =>
    { s with cpu0 := { s.cpu0 with pc := .transfer, mailboxSender := mailboxOpen o } }
  | .transfer =>
    match mailboxSend s.cpu0.mailboxSender s.cpu0.message s.box o with
    | none => s
    | some (status, box) =>
      { s with box := box, cpu0 := { s.cpu0 with pc := .led, status := status } }
  | .led => { s with cpu0 := { s.cpu0 with pc := .close } }
  | .close => { s with cpu0 := { s.cpu0 with pc := .returned } }
  | .returned => s

/-- One step of CPU1.  It does not keep the status of the retrieval. -/
def stepCpu1 (s : System) (o : Outcome) : System :=
  match s.cpu1.pc with
  | .opens =>
    { s with cpu1 := { s.cpu1 with pc := .transfer, mailboxRcv := mailboxOpen o } }
  | .transfer =>
    match mailboxRetrievePoll s.cpu1.mailboxRcv s.box o with
    | none => s
    | some (_, words, box) =>
      { s with
        box := box
        cpu1 := { s.cpu1 with pc := .led, rmessage := { s.cpu1.rmessage with words := words } } }
  | .led => { s with cpu1 := { s.cpu1 with pc := .close } }
  | .close => { s with cpu1 := { s.cpu1 with pc := .returned } }
  | .returned => s

/-- One step of the system. -/
def step (s : System) (x : Turn) : System :=
  match x.cpu with
  | .cpu0 => s.stepCpu0 x.outcome
  | .cpu1 => s.stepCpu1 x.outcome

/-- The message that a step sends. -/
def sends (s : System) (x : Turn) : List Message :=
  match x.cpu, s.cpu0.pc, mailboxSend s.cpu0.mailboxSender s.cpu0.message s.box x.outcome with
  | .cpu0, .transfer, some (status, _) => if status = 0 then [s.cpu0.message] else []
  | _, _, _ => []

/-- The message that a step retrieves. -/
def retrieves (s : System) (x : Turn) : List Message :=
  match x.cpu, s.cpu1.pc, mailboxRetrievePoll s.cpu1.mailboxRcv s.box x.outcome with
  | .cpu1, .transfer, some (status, words, _) => if status = 0 then [words] else []
  | _, _, _ => []

/-- The pattern that a step shows on the LEDs of its processor. -/
def lights (s : System) (x : Turn) : List (Cpu × Word) :=
  match x.cpu with
  | .cpu0 => if s.cpu0.pc = .led then [(.cpu0, s.cpu0.pattern)] else []
  | .cpu1 => if s.cpu1.pc = .led then [(.cpu1, s.cpu1.pattern)] else []

/-- The mailbox is empty and both programs have just been started. -/
structure Initial (s : System) : Prop where
  box : s.box = .empty
  cpu0 : s.cpu0.pc = .opens
  cpu1 : s.cpu1.pc = .opens

end System

section Statement

variable (s : System) (i : ℕ → Turn)

/-- The system after `t` steps. -/
def system (t : ℕ) : System := run System.step s i t

/-- The messages sent in the first `t` steps. -/
def sent (t : ℕ) : List Message := log System.sends System.step s i t

/-- The messages retrieved in the first `t` steps. -/
def retrieved (t : ℕ) : List Message := log System.retrieves System.step s i t

/-- Step `t` shows the pattern `p` on the LEDs of processor `c`. -/
def Lights (c : Cpu) (p : Word) (t : ℕ) : Prop := (c, p) ∈ (system s i t).lights (i t)

instance (c : Cpu) (p : Word) (t : ℕ) : Decidable (Lights s i c p t) :=
  inferInstanceAs (Decidable (_ ∈ _))

/-- The call of `altera_avalon_mailbox_retrieve_poll` returns a non-zero status in step `t`. -/
def RetrievalFails (t : ℕ) : Prop :=
  (i t).cpu = .cpu1 ∧ (system s i t).cpu1.pc = .transfer ∧
    ∃ status words box, status ≠ 0 ∧
      mailboxRetrievePoll (system s i t).cpu1.mailboxRcv (system s i t).box (i t).outcome =
        some (status, words, box)

/-- Step `t` is the next one that processor `c` makes after step `u`. -/
structure NextTurn (c : Cpu) (u t : ℕ) : Prop where
  after : u < t
  turn : (i t).cpu = c
  first : ∀ r, u < r → r < t → (i r).cpu ≠ c

/-- The LEDs of CPU1 tell the truth. -/
structure Agreement : Prop where
  /-- When the success pattern is shown, a message that CPU0 has sent has been retrieved. -/
  success : ∀ t, Lights s i .cpu1 0b00100000 t → ∃ m ∈ retrieved s i t, m ∈ sent s i t
  /-- The next step of CPU1 after a failed retrieval shows the failure pattern. -/
  failure : ∀ u t, RetrievalFails s i u → NextTurn i .cpu1 u t → Lights s i .cpu1 0b00010000 t

end Statement

/-! ## One step -/

/-- A step of CPU0 sends its message and keeps the status 0, or it leaves the mailbox alone; then it
comes to its LEDs only with a non-zero status. -/
lemma stepCpu0_cases (s : System) (o : Outcome) :
    s.sends ⟨.cpu0, o⟩ = [s.cpu0.message] ∧ s.box.items.length < 1 ∧
        s.stepCpu0 o =
          { s with box := s.box.post s.cpu0.message
                   cpu0 := { s.cpu0 with pc := .led, status := 0 } } ∨
      s.sends ⟨.cpu0, o⟩ = [] ∧ (s.stepCpu0 o).box = s.box ∧ (s.stepCpu0 o).cpu1 = s.cpu1 ∧
        ((s.stepCpu0 o).cpu0.pc = .led → (s.stepCpu0 o).cpu0.status ≠ 0) := by
  cases hpc : s.cpu0.pc with
  | transfer =>
    cases hr : mailboxSend s.cpu0.mailboxSender s.cpu0.message s.box o with
    | none => exact .inr (by simp [System.sends, System.stepCpu0, hpc, hr])
    | some r =>
      obtain ⟨status, box⟩ := r
      obtain ⟨rfl, hroom, rfl⟩ | ⟨hne, rfl⟩ := mailboxSend_cases hr
      · exact .inl ⟨by simp [System.sends, hpc, hr], hroom, by simp [System.stepCpu0, hpc, hr]⟩
      · have hne' : ¬ status = 0#32 := hne
        exact .inr (by simp [System.sends, System.stepCpu0, hpc, hr, hne'])
  | _ => exact .inr (by simp [System.sends, System.stepCpu0, hpc])

/-- A step of CPU1 retrieves the message in the mailbox, or it leaves the mailbox alone; then it
comes to its LEDs only after a failed retrieval. -/
lemma stepCpu1_cases (s : System) (o : Outcome) :
    (∃ m q, s.retrieves ⟨.cpu1, o⟩ = [m] ∧ s.box.pend = some (m, q) ∧
        (s.stepCpu1 o).box = q ∧ (s.stepCpu1 o).cpu0 = s.cpu0) ∨
      s.retrieves ⟨.cpu1, o⟩ = [] ∧ (s.stepCpu1 o).box = s.box ∧
        (s.stepCpu1 o).cpu0 = s.cpu0 ∧
        ((s.stepCpu1 o).cpu1.pc = .led → s.cpu1.pc = .transfer ∧ ∃ status words box, status ≠ 0 ∧
          mailboxRetrievePoll s.cpu1.mailboxRcv s.box o = some (status, words, box)) := by
  cases hpc : s.cpu1.pc with
  | transfer =>
    cases hr : mailboxRetrievePoll s.cpu1.mailboxRcv s.box o with
    | none => exact .inr (by simp [System.retrieves, System.stepCpu1, hpc, hr])
    | some r =>
      obtain ⟨status, words, box⟩ := r
      obtain ⟨rfl, hpend⟩ | ⟨hne, rfl⟩ := mailboxRetrievePoll_cases hr
      · exact .inl ⟨words, box, by simp [System.retrieves, hpc, hr], hpend,
          by simp [System.stepCpu1, hpc, hr], by simp [System.stepCpu1, hpc, hr]⟩
      · have hne' : ¬ status = 0#32 := hne
        exact .inr ⟨by simp [System.retrieves, hpc, hr, hne'], by simp [System.stepCpu1, hpc, hr],
          by simp [System.stepCpu1, hpc, hr], fun _ => ⟨rfl, status, words, _, hne, rfl⟩⟩
  | _ => exact .inr (by simp [System.retrieves, System.stepCpu1, hpc])

/-! ## A whole run -/

section Run

variable {s : System} {i : ℕ → Turn} {t : ℕ}

/-- A processor that makes a step after step `u` makes a next one. -/
lemma exists_nextTurn {c : Cpu} {u : ℕ} (h : ∃ t, u < t ∧ (i t).cpu = c) :
    ∃ t, NextTurn i c u t := by
  obtain ⟨hlt, hturn⟩ := Nat.find_spec h
  exact ⟨Nat.find h, hlt, hturn, fun r hr hmin hc => Nat.find_min h hmin ⟨hr, hc⟩⟩

/-- What holds at any time of the mailbox and of the processors that have come to their LEDs. -/
structure Invariant (s : System) (i : ℕ → Turn) (t : ℕ) : Prop where
  /-- What has been sent has been retrieved or is in the mailbox. -/
  balance : retrieved s i t ++ (system s i t).box.items = sent s i t
  /-- CPU0 has kept the status 0 only if it has sent a message. -/
  sender : (system s i t).cpu0.pc = .led → (system s i t).cpu0.status = 0 → sent s i t ≠ []
  /-- CPU1 has retrieved a message, or its call has failed. -/
  receiver : (system s i t).cpu1.pc = .led → retrieved s i t ≠ [] ∨ ∃ u < t, RetrievalFails s i u

/-- What CPU1 has come to its LEDs by has also happened one step later. -/
lemma Invariant.receiver_succ (h : Invariant s i t) (hpc : (system s i t).cpu1.pc = .led) :
    retrieved s i t ≠ [] ∨ ∃ u < t + 1, RetrievalFails s i u := by
  refine (h.receiver hpc).imp_right ?_
  rintro ⟨u, hu, hfail⟩
  exact ⟨u, Nat.lt_succ_of_lt hu, hfail⟩

/-- A step of CPU0 keeps the invariant. -/
lemma Invariant.succ_cpu0 (h : Invariant s i t) {o : Outcome} (hx : i t = ⟨.cpu0, o⟩) :
    Invariant s i (t + 1) := by
  have hsys : system s i (t + 1) = (system s i t).stepCpu0 o := by
    rw [system, run_succ, hx]
    rfl
  have hsent : sent s i (t + 1) = sent s i t ++ (system s i t).sends ⟨.cpu0, o⟩ := by
    rw [sent, log_succ, hx]
    rfl
  have hretr : retrieved s i (t + 1) = retrieved s i t := by
    rw [retrieved, log_succ, hx]
    exact List.append_nil _
  obtain ⟨hs, hroom, hstep⟩ | ⟨hs, hbox, hcpu1, hled⟩ := stepCpu0_cases (system s i t) o
  · rw [hs] at hsent
    refine ⟨?_, fun _ _ => by simp [hsent], ?_⟩
    · rw [hsys, hretr, hsent, hstep]
      exact Fifo.balance_post h.balance hroom
    · rw [hsys, hretr, hstep]
      exact h.receiver_succ
  · rw [hs, List.append_nil] at hsent
    refine ⟨?_, ?_, ?_⟩
    · rw [hsys, hretr, hsent, hbox]
      exact h.balance
    · rw [hsys]
      exact fun hpc h0 => absurd h0 (hled hpc)
    · rw [hsys, hretr, hcpu1]
      exact h.receiver_succ

/-- A step of CPU1 keeps the invariant. -/
lemma Invariant.succ_cpu1 (h : Invariant s i t) {o : Outcome} (hx : i t = ⟨.cpu1, o⟩) :
    Invariant s i (t + 1) := by
  have hsys : system s i (t + 1) = (system s i t).stepCpu1 o := by
    rw [system, run_succ, hx]
    rfl
  have hsent : sent s i (t + 1) = sent s i t := by
    rw [sent, log_succ, hx]
    exact List.append_nil _
  have hretr : retrieved s i (t + 1) = retrieved s i t ++ (system s i t).retrieves ⟨.cpu1, o⟩ := by
    rw [retrieved, log_succ, hx]
    rfl
  obtain ⟨m, q, hr, hpend, hbox, hcpu0⟩ | ⟨hr, hbox, hcpu0, hled⟩ :=
    stepCpu1_cases (system s i t) o
  · rw [hr] at hretr
    refine ⟨?_, ?_, fun _ => .inl (by simp [hretr])⟩
    · rw [hsys, hretr, hsent, hbox]
      exact Fifo.balance_pend h.balance hpend
    · rw [hsys, hsent, hcpu0]
      exact h.sender
  · rw [hr, List.append_nil] at hretr
    refine ⟨?_, ?_, ?_⟩
    · rw [hsys, hretr, hsent, hbox]
      exact h.balance
    · rw [hsys, hsent, hcpu0]
      exact h.sender
    · intro hpc
      rw [hsys] at hpc
      obtain ⟨htr, hfail⟩ := hled hpc
      refine .inr ⟨t, Nat.lt_succ_self t, by rw [hx], htr, ?_⟩
      rw [hx]
      exact hfail

/-- The run lemma: the invariant holds at any time. -/
theorem invariant_of_initial (hs : s.Initial) (t : ℕ) : Invariant s i t := by
  induction t with
  | zero =>
    refine ⟨?_, ?_, ?_⟩ <;> simp [retrieved, sent, system, hs.box, hs.cpu0, hs.cpu1]
  | succ t ih =>
    cases hx : i t with
    | mk cpu o =>
      cases cpu with
      | cpu0 => exact ih.succ_cpu0 hx
      | cpu1 => exact ih.succ_cpu1 hx

/-- The program tests an address that is not `NULL`: whatever the call has returned, CPU1 shows the
success pattern. -/
lemma lights_cpu1 {p : Word} (h : Lights s i .cpu1 p t) :
    p = 0b00100000 ∧ (i t).cpu = .cpu1 ∧ (system s i t).cpu1.pc = .led := by
  unfold Lights System.lights at h
  split at h
  · split at h <;> simp at h
  · next hcpu =>
    split at h
    · next hpc =>
      obtain rfl : p = (system s i t).cpu1.pattern := by simpa using h
      exact ⟨if_neg (system s i t).cpu1.rmessage.nonzero, hcpu, hpc⟩
    · simp at h

/-- When CPU0 shows its success pattern, its message has been sent. -/
theorem lights_cpu0 (hs : s.Initial) (h : Lights s i .cpu0 0b10000000 t) : sent s i t ≠ [] := by
  unfold Lights System.lights at h
  split at h
  · split at h
    · next hpc =>
      have hp : (0b10000000 : Word) = (system s i t).cpu0.pattern := by simpa using h
      refine (invariant_of_initial hs t).sender hpc ?_
      by_contra hne
      rw [Cpu0.pattern, if_pos hne] at hp
      exact absurd hp (by decide)
    · simp at h
  · split at h <;> simp at h

/-- In every run, and whatever the driver's calls return: the LEDs of CPU1 tell the truth if and
only if no call fails to retrieve a message, or CPU1 makes no step after the failed call. -/
theorem agreement_iff (hs : s.Initial) :
    Agreement s i ↔ ∀ u, RetrievalFails s i u → ∀ t, u < t → (i t).cpu ≠ .cpu1 := by
  constructor
  · intro hagree u hfail t hut hturn
    obtain ⟨v, hnext⟩ := exists_nextTurn ⟨t, hut, hturn⟩
    -- The next step shows the failure pattern, but CPU1 only has the success pattern to show.
    have hlights := hagree.failure u v hfail hnext
    exact absurd (lights_cpu1 hlights).1 (by decide)
  · intro hno
    refine ⟨fun t hp => ?_, fun u t hfail hnext => absurd hnext.turn (hno u hfail t hnext.after)⟩
    obtain ⟨-, hturn, hpc⟩ := lights_cpu1 hp
    have hinv : Invariant s i t := invariant_of_initial hs t
    rcases hinv.receiver hpc with hne | ⟨u, hut, hfail⟩
    · obtain ⟨m, hm⟩ := List.exists_mem_of_ne_nil _ hne
      refine ⟨m, hm, ?_⟩
      rw [← hinv.balance]
      exact List.mem_append_left _ hm
    · exact absurd hturn (hno u hfail t hut)

end Run

/-! ## Two runs -/

/-- The programs before their first steps. -/
def started : System where
  box := .empty
  cpu0 := ⟨.opens, .null, ⟨0x00000001, 0xAA55AA55⟩, 0⟩
  cpu1 := ⟨.opens, .null, ⟨0x1000, by decide, ⟨0, 0⟩⟩⟩

/-- Nothing has been sent yet. -/
lemma initial_started : started.Initial := ⟨rfl, rfl, rfl⟩

/-- CPU1 runs alone, and its call times out. -/
def timesOut (t : ℕ) : Turn where
  cpu := .cpu1
  outcome := if t = 1 then .fails ⟨62, by decide⟩ ⟨0, 0⟩ else .succeeds

/-- CPU0 sends its message, then CPU1 retrieves it. -/
def sendsFirst (t : ℕ) : Turn := ⟨if t < 2 then .cpu0 else .cpu1, .succeeds⟩

/-- The call of CPU1 times out before CPU0 has sent anything, and CPU1 shows its success pattern in
its next step. -/
theorem agreement_fails_timesOut :
    started.Initial ∧ RetrievalFails started timesOut 1 ∧ NextTurn timesOut .cpu1 1 2 ∧
      Lights started timesOut .cpu1 0b00100000 2 ∧ retrieved started timesOut 2 = [] ∧
      ¬ Agreement started timesOut := by
  have hfail : RetrievalFails started timesOut 1 :=
    ⟨rfl, rfl, 62, ⟨0, 0⟩, .empty, by decide, rfl⟩
  have hnext : NextTurn timesOut .cpu1 1 2 :=
    ⟨Nat.lt_succ_self 1, rfl, fun r hlt hgt => absurd hgt (Nat.not_lt.mpr hlt)⟩
  refine ⟨initial_started, hfail, hnext, by decide, rfl, fun h => ?_⟩
  exact absurd (h.failure 1 2 hfail hnext) (by decide)

/-- The theorem at a run in which both calls succeed. -/
theorem agreement_iff_sendsFirst :
    Lights started sendsFirst .cpu1 0b00100000 4 ∧ Agreement started sendsFirst := by
  refine ⟨by decide, (agreement_iff initial_started).mpr ?_⟩
  rintro u ⟨-, -, status, words, box, hne, hr⟩
  rcases mailboxRetrievePoll_cases hr with ⟨h0, -⟩ | ⟨-, -⟩
  · exact absurd h0 hne
  · simp only [sendsFirst, mailboxRetrievePoll, Option.ite_none_right_eq_some,
      Option.map_eq_some_iff, Prod.mk.injEq] at hr
    obtain ⟨-, a, -, h0, -⟩ := hr
    exact absurd h0.symm hne

end CyclonRtes.Multiprocessor.Mailbox
